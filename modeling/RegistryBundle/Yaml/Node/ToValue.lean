import RegistryBundle.Number.Numeral
import RegistryBundle.Text.Base64
import RegistryBundle.Value.Basic
import RegistryBundle.Yaml.Node.OfTokens

/-!
# The value of a node

Every node of a standard type has a value. The tag of a scalar says how its text is read; a mapping
takes over the entries of the mappings under its merge keys, its own entries last.

* `ScalarText.value` reads the text of a scalar;
* `Node.toValue` is the value of a node; of several faults it reports the one inside the fewest
  collections, the first of those in the order of the document;
* `Yaml.readOver` gives the value of a text over an alphabet, `Yaml.read` that over the characters.
-/

namespace RegistryBundle.Yaml

namespace ScalarText

variable {A : Alphabet}

/-- A whole number to a base, its sign given apart. -/
def based (negative : Bool) (base : Nat) (cs : List Char) : Except Fault Int :=
  match Numeral.ofText? base cs with
  | some n => .ok (if negative then -n else n)
  | none => .error .badValue

/-- The number that fields to the base 60 form, the last one counting ones. -/
def sixty (digits : List Int) : Int :=
  digits.foldl (fun n d => n * 60 + d) 0

/-- A whole number: decimal, to one of the marked bases, or to the base 60. -/
def whole (v : Version) (cs : List Char) : Except Fault Int :=
  match cs.filter (· != '_') with
  | [] => .error .emptyNumber
  | c :: rest =>
    let (negative, body) := Binary64.takeSign (c :: rest)
    match body with
    | [] => .error .emptyNumber
    | ['0'] => .ok 0
    | '0' :: 'b' :: ds => based negative 2 ds
    | '0' :: 'x' :: ds => based negative 16 ds
    | first :: ds =>
      match v with
      | .older =>
        if first = '0' then based negative 8 (first :: ds)
        else if body.contains ':' then do
          let digits ← (Reading.fields ':' body).mapM (based false 10)
          return if negative then -(sixty digits) else sixty digits
        else based negative 10 body
      | .newer =>
        if first = '0' && ds.head? == some 'o' then based negative 8 (ds.drop 1)
        else based negative 10 body

/-- A decimal text as a double. -/
def decimal (cs : List Char) : Except Fault Binary64 :=
  match Binary64.ofText? cs with
  | some x => .ok x
  | none => .error .badValue

/-- The sum of fields to the base 60, the first of `digits` counting
`base`, and each place rounded. -/
def sumSixty (base : Nat) (sum : Binary64) : List Binary64 → Except Fault Binary64
  | [] => .ok sum
  | d :: rest =>
    match (Binary64.ofInt base).toInt? with
    | some b => sumSixty (base * 60) (sum.add (d.scale b.toNat)) rest
    | none => .error .overflow

/-- A double: infinity, NaN, a number to the base 60, or a decimal text. -/
def double (v : Version) (cs : List Char) : Except Fault Binary64 :=
  match (cs.filter (· != '_')).map Char.toLower with
  | [] => .error .emptyNumber
  | c :: rest =>
    let (negative, body) := Binary64.takeSign (c :: rest)
    let word := String.ofList body
    let signed (x : Binary64) := if negative then x.neg else x
    if word = ".inf" then .ok (.infinite negative)
    else if word = ".nan" then .ok .nan
    else if v = .older && body.contains ':' then do
      let digits ← (Reading.fields ':' body).mapM decimal
      let x ← sumSixty 1 (.finite false 0 0) digits.reverse
      return signed x
    else (decimal body).map signed

/-- A truth value by its word, in any case. -/
def truth (cs : List Char) : Except Fault Bool :=
  let word := String.ofList (cs.map Char.toLower)
  if ["yes", "true", "on"].contains word then .ok true
  else if ["no", "false", "off"].contains word then .ok false
  else .error .unknownWord

/-- Six digits of a fraction as microseconds. -/
def microseconds (fraction : List Char) : Nat :=
  let ds := fraction.take 6
  Nat.ofDigitChars 10 (ds ++ List.replicate (6 - ds.length) '0') 0

/-- A date, or a moment whose offset is below a day. -/
def timestamp (cs : List Char) : Except Fault (Value A) :=
  match Implicit.timestamp? (if cs.getLast? == some '\n' then cs.dropLast else cs) with
  | none => .error .badTimestamp
  | some p =>
    let d : Date := ⟨p.year, p.month, p.day⟩
    match p.time with
    | none => if d.Valid then .ok (.date d) else .error .badValue
    | some (h, m, s) =>
      let t : Moment := ⟨d, h, m, s, microseconds p.fraction, p.zone⟩
      if t.Valid && (p.zone.getD 0).natAbs < 1440 then .ok (.moment t) else .error .badValue

/-- Octets as letters. -/
def octets (cs : List Char) : Except Fault (Value A) :=
  if cs.all fun c => c.toNat < 128 then
    match Base64.decode? cs with
    | some bs => .ok (.bytes ⟨bs.toArray⟩)
    | none => .error (.malformed .types)
  else .error (.malformed .types)

/-- The value of a scalar text of a type; a type that no scalar has is a fault. -/
def value (v : Version) (t : Tag) (cs : List Char) : Except Fault (Value A) :=
  match t with
  | .null => .ok .null
  | .bool => (truth cs).map .bool
  | .int => (whole v cs).map .int
  | .float => (double v cs).map .float
  | .timestamp => timestamp cs
  | .str => .ok (.str (String.ofList cs))
  | .binary => octets cs
  | _ => .error (.malformed .types)

/-- The value of a broken text of a type: it is no number, no date and no octets. -/
def brokenValue (h : A = .letters) (t : Tag) (text : BrokenText) : Except Fault (Value A) :=
  match t with
  | .str => .ok (.broken h text)
  | .null => .ok .null
  | .bool => .error .unknownWord
  | .int | .float => .error .badValue
  | .timestamp => .error .badTimestamp
  | _ => .error (.malformed .types)

end ScalarText

/-- A fault and how many collections stand around its place. -/
structure PlacedFault where
  depth : Nat
  fault : Fault
deriving DecidableEq, Repr

namespace PlacedFault

/-- Of two faults the one inside fewer collections, the first of two inside as many. -/
def first (a b : PlacedFault) : PlacedFault :=
  if b.depth < a.depth then b else a

/-- Both of two results; of two faults the one to report. -/
def both (f : α → β → γ) : Except PlacedFault α → Except PlacedFault β → Except PlacedFault γ
  | .ok a, .ok b => .ok (f a b)
  | .ok _, .error e => .error e
  | .error e, .ok _ => .error e
  | .error d, .error e => .error (d.first e)

end PlacedFault

namespace Node

variable {A : Alphabet}

/-- The tag of a node; none for one that stands inside itself. -/
def tag? : Node A → Option Tag
  | .scalar t _ | .broken _ t _ | .sequence t _ | .mapping t _ => some t
  | .anchored _ n => n.tag?
  | .reference _ => none

/-- Whether a node is a merge key. -/
def isMergeKey (n : Node A) : Bool :=
  n.tag? == some .merge

mutual

/-- Whether all entries under merge keys come from mappings. -/
def mergeable : Node A → Bool
  | .mapping _ entries => mergeableEntries entries
  | .anchored _ n => mergeable n
  | .reference _ => true
  | _ => false

/-- The same for a mapping, or a sequence of mappings, under a merge key. -/
def mergeableSource : Node A → Bool
  | .mapping _ entries => mergeableEntries entries
  | .sequence _ items => mergeableItems items
  | .anchored _ n => mergeableSource n
  | .reference _ => true
  | .scalar .. | .broken .. => false

/-- The same for each of several mappings. -/
def mergeableItems : List (Node A) → Bool
  | [] => true
  | n :: rest => mergeable n && mergeableItems rest

/-- The same for the merge keys of a mapping. -/
def mergeableEntries : List (Node A × Node A) → Bool
  | [] => true
  | (k, v) :: rest => (!k.isMergeKey || mergeableSource v) && mergeableEntries rest

end

mutual

/-- The value of a type that a node has as a scalar: by its own text, or by that under the key `=`
of a mapping. -/
def scalarValue (r : Version) (t : Tag) : Node A → Except Fault (Value A)
  | .scalar _ cs => ScalarText.value r t cs
  | .broken h _ text => ScalarText.brokenValue h t text
  | .mapping _ entries => scalarValueOfEntries r t entries
  | .anchored _ n => scalarValue r t n
  | _ => .error (.malformed .types)

/-- The same by the text under the first key `=`. -/
def scalarValueOfEntries (r : Version) (t : Tag) : List (Node A × Node A) → Except Fault (Value A)
  | [] => .error (.malformed .types)
  | (k, v) :: rest =>
    if k.tag? == some .value then scalarValue r t v else scalarValueOfEntries r t rest

end

/-- The value under the label of its object, if it is an object that may be met again. -/
def labelValue (l : Nat) (v : Value A) : Value A :=
  match v with
  | .list _ | .set _ | .map _ | .date _ | .moment _ => .shared l v
  | v => v

/-- Whether a value can be a key: no collection, in the newer version a list of keys as well. -/
def isKey (r : Version) (v : Value A) : Bool :=
  v.hashable ||
    match v.bare with
    | .list items => r == .newer && items.all Value.hashable
    | _ => false

/-- A key: a value that can be one. -/
def asKey (r : Version) (depth : Nat) :
    Except PlacedFault (Value A) → Except PlacedFault (Value A)
  | .ok v => if isKey r v then .ok v else .error ⟨depth, .malformed .types⟩
  | .error e => .error (if depth < e.depth then ⟨depth, .malformed .types⟩ else e)

/-- The entries of a mapping, those that merge keys bring in before its own. In the newer version a
mapping without merge keys has each key once. -/
def entriesOf (r : Version) (depth : Nat) (merges : Bool) :
    Except PlacedFault (Entries A × Entries A) → Except PlacedFault (Entries A)
  | .ok (merged, own) =>
    let entries := Value.ofList (merged ++ own)
    if r = .newer && !merges && entries.length != own.length then .error ⟨depth, .malformed .keys⟩
      else .ok entries
  | .error e => .error e

mutual

/-- The value of a node that stands inside `depth` collections. -/
def construct (r : Version) (depth : Nat) : Node A → Except PlacedFault (Value A)
  | .scalar t cs =>
    match t with
    | .seq | .map | .set | .omap | .pairs => .error ⟨depth + 1, .malformed .types⟩
    | t => (ScalarText.value r t cs).mapError (.mk depth)
  | .broken h t text =>
    match t with
    | .seq | .map | .set | .omap | .pairs => .error ⟨depth + 1, .malformed .types⟩
    | t => (ScalarText.brokenValue h t text).mapError (.mk depth)
  | .sequence t items =>
    match t with
    | .seq => (constructItems r (depth + 1) items).map .list
    | .omap | .pairs => (constructPairs r (depth + 1) items).map .list
    | .map | .set => .error ⟨depth + 1, .malformed .types⟩
    | _ => .error ⟨depth, .malformed .types⟩
  | .mapping t entries =>
    match t with
    | .map =>
      if mergeableEntries entries then
        (entriesOf r (depth + 1) (entries.any fun e => e.1.isMergeKey)
          (constructEntries r (depth + 1) entries)).map .map
      else .error ⟨depth + 1, .malformed .types⟩
    | .set =>
      if mergeableEntries entries then
        (entriesOf r (depth + 1) (entries.any fun e => e.1.isMergeKey)
          (constructEntries r (depth + 1) entries)).map fun es => .set (es.map Prod.fst)
      else .error ⟨depth + 1, .malformed .types⟩
    | .seq | .omap | .pairs => .error ⟨depth + 1, .malformed .types⟩
    | t => (scalarValueOfEntries r t entries).mapError (.mk depth)
  | .anchored l n => (construct r depth n).map (labelValue l)
  | .reference l => .ok (.cycle l)

/-- The values of items. -/
def constructItems (r : Version) (depth : Nat) :
    List (Node A) → Except PlacedFault (List (Value A))
  | [] => .ok []
  | n :: rest => PlacedFault.both List.cons (construct r depth n) (constructItems r depth rest)

/-- The only entry of a mapping as a pair. -/
def constructPair (r : Version) (depth : Nat) : Node A → Except PlacedFault (Value A)
  | .mapping _ [(k, v)] => PlacedFault.both .pair (construct r depth k) (construct r depth v)
  | .anchored _ n => constructPair r depth n
  | _ => .error ⟨depth, .malformed .types⟩

/-- Items that are mappings of one entry, as pairs. -/
def constructPairs (r : Version) (depth : Nat) :
    List (Node A) → Except PlacedFault (List (Value A))
  | [] => .ok []
  | n :: rest => PlacedFault.both List.cons (constructPair r depth n) (constructPairs r depth rest)

/-- A key that is no merge key; `=` is a text there. -/
def constructKey (r : Version) (depth : Nat) : Node A → Except PlacedFault (Value A)
  | .scalar .value cs => .ok (.str (String.ofList cs))
  | .broken h .value text => .ok (.broken h text)
  | .anchored l n => (constructKey r depth n).map (labelValue l)
  | n => asKey r depth (construct r depth n)

/-- The entries that merge keys bring in, and the entries of the mapping itself. -/
def constructEntries (r : Version) (depth : Nat) :
    List (Node A × Node A) → Except PlacedFault (Entries A × Entries A)
  | [] => .ok ([], [])
  | (k, v) :: rest =>
    if k.isMergeKey then
      PlacedFault.both (fun es (m, o) => (es ++ m, o)) (mergedEntries r depth v)
        (constructEntries r depth rest)
    else
      PlacedFault.both (fun e (m, o) => (m, e :: o))
        (PlacedFault.both Prod.mk (constructKey r depth k) (construct r depth v))
        (constructEntries r depth rest)

/-- The entries of a mapping, or those of a sequence of mappings from the last to the first. -/
def mergedEntries (r : Version) (depth : Nat) : Node A → Except PlacedFault (Entries A)
  | .mapping _ entries => (constructEntries r depth entries).map fun e => e.1 ++ e.2
  | .sequence _ items => mergedItems r depth items
  | .anchored _ n => mergedEntries r depth n
  | _ => .ok []

/-- The entries of mappings from the last to the first. -/
def mergedItems (r : Version) (depth : Nat) : List (Node A) → Except PlacedFault (Entries A)
  | [] => .ok []
  | n :: rest =>
    PlacedFault.both (fun es later => later ++ es) (mergedEntries r depth n)
      (mergedItems r depth rest)

end

/-- The value of a node. -/
def toValue (r : Version) (n : Node A) : Except Fault (Value A) :=
  match construct r 0 n with
  | .ok v => .ok v
  | .error e => .error e.fault

end Node

/-- The value of a text over an alphabet: null for an empty document. -/
def readOver (A : Alphabet) (r : Version) (s : String) : Except Fault (Value A) := do
  match ← Node.ofText r s.toList with
  | some n => n.toValue r
  | none => return .null

/-- The value of a text, which holds no broken texts. -/
def readAs (r : Version) (s : String) : Except Fault Value :=
  readOver .characters r s

/-- The value of a text in the older version of the format. -/
def read (s : String) : Except Fault Value :=
  readAs .older s

end RegistryBundle.Yaml
