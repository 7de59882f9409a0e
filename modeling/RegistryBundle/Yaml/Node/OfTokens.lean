import RegistryBundle.Yaml.Implicit
import RegistryBundle.Yaml.Node.Basic
import RegistryBundle.Yaml.Token.Basic

/-!
# The node of a sequence of tokens

Tokens form one document: a node in block or flow style, where a part that is
missing is an empty scalar.

* `Grammar.node` reads a node from the front of a sequence of tokens,
  `Grammar.document` a whole document;
* `Node.ofText` reads the document of a text, which may be empty.
-/

namespace RegistryBundle.Yaml

/-- What the tags and the types of a document depend on. -/
structure Reading where
  version : Version := .older
  /-- What the handles of tags stand for. -/
  handles : List (List Char × List Char) := []

namespace Reading

/-- The handles that every document knows. -/
def commonHandles : List (List Char × List Char) :=
  [(['!'], ['!']), (['!', '!'], Tag.standard.toList)]

/-- The full name of a tag. -/
def tagName (r : Reading) : Option (List Char) × List Char → Except Fault (List Char)
  | (none, suffix) => .ok suffix
  | (some handle, suffix) =>
    match (r.handles ++ commonHandles).find? fun h => h.1 == handle with
    | some h => .ok (h.2 ++ suffix)
    | none => .error (.malformed .grammar)

/-- The type that a text looks like, a break at its end left out of account. -/
def implicitTag (r : Reading) (text : List Char) : Tag :=
  match text with
  | '\n' :: _ => .str
  | _ => Implicit.tag r.version (if text.getLast? == some '\n' then text.dropLast else text)

/-- The tag of a scalar: the type it looks like where it is plain or its tag leaves that open, its
own tag otherwise. -/
def scalarTag (r : Reading) (name : Option (List Char)) (text : List Char) (plain : Bool) : Tag :=
  match name with
  | none => if plain then r.implicitTag text else .str
  | some n => if n == ['!'] then r.implicitTag text else .ofName (String.ofList n)

/-- The tag of a broken text, which looks like no other type. -/
def brokenTag (name : Option (List Char)) : Tag :=
  match name with
  | none => .str
  | some n => if n == ['!'] then .str else .ofName (String.ofList n)

/-- The tag of a collection. -/
def collectionTag (usual : Tag) (name : Option (List Char)) : Tag :=
  match name with
  | none => usual
  | some n => if n == ['!'] then usual else .ofName (String.ofList n)

end Reading

namespace Grammar

variable {A : Alphabet}

/-- The names of the anchors met so far, in their order; the label of a node
is the place of its name. -/
abbrev Names := List (List Char)

/-- What a rule gives: a part of the tree, the anchors behind it and the tokens that are left. -/
abbrev Parsed (α : Type) := α × Names × List Token

/-- The fault of tokens that do not go on as they should. -/
def unexpected : List Token → Fault
  | .fault f :: _ => f
  | _ => .malformed .grammar

/-- Whether the next token is one of some. -/
def nextIs (ts : List Token) (kinds : List Token) : Bool :=
  match ts with
  | t :: _ => kinds.contains t
  | [] => false

/-- The properties of a node: an anchor and a tag, in either order. -/
structure Properties where
  anchor : Option (List Char) := none
  tag : Option (Option (List Char) × List Char) := none

/-- Whether a node has a property. -/
def Properties.any (p : Properties) : Bool :=
  p.anchor.isSome || p.tag.isSome

/-- The properties at the front. -/
def properties : List Token → Properties × List Token
  | .anchor a :: .tag h s :: ts => ({ anchor := some a, tag := some (h, s) }, ts)
  | .tag h s :: .anchor a :: ts => ({ anchor := some a, tag := some (h, s) }, ts)
  | .anchor a :: ts => ({ anchor := some a }, ts)
  | .tag h s :: ts => ({ tag := some (h, s) }, ts)
  | ts => ({}, ts)

/-- A part that is missing. -/
def missing : Node A := .scalar .null []

/-- The names with one more. In the newer version a name may come again; then
it means the later node. -/
def register (v : Version) (names : Names) : Option (List Char) → Except Fault Names
  | none => .ok names
  | some a =>
    if !names.contains a then .ok (names ++ [a])
    else if v = .newer then .ok (names.map (fun n => if n = a then [] else n) ++ [a])
    else .error (.malformed .references)

/-- A node under the anchor that `names` got last. -/
def withAnchor (anchor : Option (List Char)) (names : Names) (n : Node A) : Node A :=
  match anchor with
  | none => n
  | some a => .anchored (names.idxOf a) n

mutual

/-- A node, in block style only where `block` allows it; `indentless` allows a sequence at the
column of its key. -/
def node (r : Reading) (block indentless : Bool) :
    Nat → Names → List Token → Except Fault (Parsed (Node A))
  | 0, _, _ => .error (.malformed .grammar)
  | fuel + 1, names, ts =>
    match ts with
    | .reference a :: ts =>
      if names.contains a then .ok (.reference (names.idxOf a), names, ts)
      else .error (.malformed .references)
    | _ => do
      let (p, ts) := properties ts
      let name ← match p.tag with
        | none => pure none
        | some t => (r.tagName t).map some
      let names ← register r.version names p.anchor
      let finish (n : Node A) := withAnchor p.anchor names n
      match ts with
      | .scalar text plain :: ts => return (finish (.scalar (r.scalarTag name text plain) text),
          names, ts)
      | .broken t :: ts =>
        if h : A = .letters then return (finish (.broken h (Reading.brokenTag name) t), names, ts)
        else .error (.malformed .tokens)
      | .flowSequence :: ts => do
        let (items, after, ts) ← flowItems r true fuel names ts
        return (finish (.sequence (Reading.collectionTag .seq name) items), after, ts)
      | .flowMapping :: ts => do
        let (entries, after, ts) ← flowEntries r true fuel names ts
        return (finish (.mapping (Reading.collectionTag .map name) entries), after, ts)
      | _ =>
        if indentless && nextIs ts [.entry] then do
          let (items, after, ts) ← levelItems r fuel names ts
          return (finish (.sequence (Reading.collectionTag .seq name) items), after, ts)
        else if block && nextIs ts [.blockSequence] then do
          let (items, after, ts) ← blockItems r fuel names (ts.drop 1)
          return (finish (.sequence (Reading.collectionTag .seq name) items), after, ts)
        else if block && nextIs ts [.blockMapping] then do
          let (entries, after, ts) ← blockEntries r fuel names (ts.drop 1)
          return (finish (.mapping (Reading.collectionTag .map name) entries), after, ts)
        else if p.any then
          return (finish (.scalar (r.scalarTag name [] true) []), names, ts)
        else .error (unexpected ts)

/-- The items of a block sequence, up to its end. -/
def blockItems (r : Reading) : Nat → Names → List Token → Except Fault (Parsed (List (Node A)))
  | 0, _, _ => .error (.malformed .grammar)
  | fuel + 1, names, ts =>
    match ts with
    | .entry :: ts => do
      let (n, names, ts) ←
        if nextIs ts [.entry, .blockEnd] then .ok (missing, names, ts)
          else node r true false fuel names ts
      let (rest, names, ts) ← blockItems r fuel names ts
      return (n :: rest, names, ts)
    | .blockEnd :: ts => .ok ([], names, ts)
    | _ => .error (unexpected ts)

/-- The items of a sequence at the column of its key. -/
def levelItems (r : Reading) : Nat → Names → List Token → Except Fault (Parsed (List (Node A)))
  | 0, _, _ => .error (.malformed .grammar)
  | fuel + 1, names, ts =>
    match ts with
    | .entry :: ts => do
      let (n, names, ts) ←
        if nextIs ts [.entry, .key, .value, .blockEnd] then .ok (missing, names, ts)
        else node r true false fuel names ts
      let (rest, names, ts) ← levelItems r fuel names ts
      return (n :: rest, names, ts)
    | _ => .ok ([], names, ts)

/-- The entries of a block mapping, up to its end. -/
def blockEntries (r : Reading) :
    Nat → Names → List Token → Except Fault (Parsed (List (Node A × Node A)))
  | 0, _, _ => .error (.malformed .grammar)
  | fuel + 1, names, ts =>
    match ts with
    | .key :: ts => do
      let (k, names, ts) ←
        if nextIs ts [.key, .value, .blockEnd] then .ok (missing, names, ts)
        else node r true true fuel names ts
      let (v, names, ts) ←
        match ts with
        | .value :: ts =>
          if nextIs ts [.key, .value, .blockEnd] then .ok (missing, names, ts)
          else node r true true fuel names ts
        | _ => .ok (missing, names, ts)
      let (rest, names, ts) ← blockEntries r fuel names ts
      return ((k, v) :: rest, names, ts)
    | .blockEnd :: ts => .ok ([], names, ts)
    | _ => .error (unexpected ts)

/-- The items of a sequence in brackets; one with a key is a mapping of one entry. -/
def flowItems (r : Reading) (first : Bool) :
    Nat → Names → List Token → Except Fault (Parsed (List (Node A)))
  | 0, _, _ => .error (.malformed .grammar)
  | fuel + 1, names, ts =>
    if nextIs ts [.flowSequenceEnd] then .ok ([], names, ts.drop 1)
    else if !first && !nextIs ts [.comma] then .error (unexpected ts)
    else
      let ts := if first then ts else ts.drop 1
      match ts with
      | .flowSequenceEnd :: ts => .ok ([], names, ts)
      | .key :: ts => do
        let (k, names, ts) ←
          if nextIs ts [.value, .comma, .flowSequenceEnd] then .ok (missing, names, ts)
          else node r false false fuel names ts
        let (v, names, ts) ←
          match ts with
          | .value :: ts =>
            if nextIs ts [.comma, .flowSequenceEnd] then .ok (missing, names, ts)
            else node r false false fuel names ts
          | _ => .ok (missing, names, ts)
        let (rest, names, ts) ← flowItems r false fuel names ts
        return (.mapping .map [(k, v)] :: rest, names, ts)
      | _ => do
        let (n, names, ts) ← node r false false fuel names ts
        let (rest, names, ts) ← flowItems r false fuel names ts
        return (n :: rest, names, ts)

/-- The entries of a mapping in braces; one without a colon has an empty value. -/
def flowEntries (r : Reading) (first : Bool) :
    Nat → Names → List Token → Except Fault (Parsed (List (Node A × Node A)))
  | 0, _, _ => .error (.malformed .grammar)
  | fuel + 1, names, ts =>
    if nextIs ts [.flowMappingEnd] then .ok ([], names, ts.drop 1)
    else if !first && !nextIs ts [.comma] then .error (unexpected ts)
    else
      let ts := if first then ts else ts.drop 1
      match ts with
      | .flowMappingEnd :: ts => .ok ([], names, ts)
      | .key :: ts => do
        let (k, names, ts) ←
          if nextIs ts [.value, .comma, .flowMappingEnd] then .ok (missing, names, ts)
          else node r false false fuel names ts
        let (v, names, ts) ←
          match ts with
          | .value :: ts =>
            if nextIs ts [.comma, .flowMappingEnd] then .ok (missing, names, ts)
            else node r false false fuel names ts
          | _ => .ok (missing, names, ts)
        let (rest, names, ts) ← flowEntries r false fuel names ts
        return ((k, v) :: rest, names, ts)
      | _ => do
        let (k, names, ts) ← node r false false fuel names ts
        let (rest, names, ts) ← flowEntries r false fuel names ts
        return ((k, missing) :: rest, names, ts)

end

/-- The directives at the front: the version once, and it must be 1; each handle once. -/
def directives (r : Reading) (versioned : Bool) : List Token → Except Fault (Reading × List Token)
  | .directive (.version major) :: ts =>
    if versioned || major != 1 then .error (.malformed .grammar) else directives r true ts
  | .directive (.handle name text) :: ts =>
    if r.handles.any fun h => h.1 == name then .error (.malformed .grammar)
    else directives { r with handles := r.handles ++ [(name, text)] } versioned ts
  | .directive .unknown :: ts => directives r versioned ts
  | ts => .ok (r, ts)

/-- Nothing may follow a document but marks of its end. -/
def finished (ts : List Token) : Except Fault Unit :=
  match ts.dropWhile (· == .documentEnd) with
  | [] => .ok ()
  | .directive _ :: _ | .documentStart :: _ => .error (.malformed .references)
  | ts => .error (unexpected ts)

/-- The steps that tokens can take at most. -/
def fuelFor (ts : List Token) : Nat :=
  2 * ts.length + 2

/-- The document that all tokens form; none if there are no tokens. -/
def document (version : Version) (ts : List Token) : Except Fault (Option (Node A)) := do
  match ts with
  | [] => return none
  | .directive _ :: _ | .documentStart :: _ =>
    let (r, ts) ← directives { version := version } false ts
    match ts with
    | .documentStart :: ts =>
      match ts with
      | [] => return some missing
      | .directive _ :: _ | .documentStart :: _ | .documentEnd :: _ => do
        finished ts
        return some missing
      | _ => do
        let (n, _, ts) ← node r true false (fuelFor ts) [] ts
        finished ts
        return some n
    | _ => .error (unexpected ts)
  | _ =>
    let (n, _, ts) ← node { version := version } true false (fuelFor ts) [] ts
    finished ts
    return some n

end Grammar

/-- The document of a text, references in the place of nodes met before; none
if the text holds no node. -/
def Node.ofText {A : Alphabet} (version : Version) (cs : List Char) :
    Except Fault (Option (Node A)) :=
  let ts := Token.ofText cs
  (Grammar.document version ts).map fun n => n.map fun n =>
    ((n.label false ts.length).1.expand []).1

end RegistryBundle.Yaml
