import RegistryBundle.Yaml.Token.Lexeme

/-!
# Tokens

A document as a sequence of tokens, the extent of block collections marked by tokens of their own.
Whether a scalar is a key shows only at the colon behind it, so a reader first leaves a mark
wherever a key may begin, and the colon names the mark that it belongs to.

* `Scan` is what the reader knows between two tokens, `Scan.next` takes one step;
* `Mark.resolve` turns the marks that a colon names into keys and drops the others;
* `Token.ofText` gives the tokens of a text; a text that is not in the format ends in a fault.
-/

namespace RegistryBundle.Yaml

open Chars

/-- A token of a document. -/
inductive Token where
  | directive (d : Lexeme.Directive)
  | documentStart
  | documentEnd
  | blockSequence
  | blockMapping
  | blockEnd
  | flowSequence
  | flowSequenceEnd
  | flowMapping
  | flowMappingEnd
  | entry
  | comma
  | key
  | value
  | reference (name : List Char)
  | anchor (name : List Char)
  | tag (handle : Option (List Char)) (suffix : List Char)
  | scalar (text : List Char) (plain : Bool)
  /-- A quoted scalar with a half of a character in it. -/
  | broken (t : BrokenText)
  /-- The place where reading fails. -/
  | fault (f : Fault)
deriving DecidableEq, Repr

/-- The token of a quoted scalar. -/
def Token.ofLetters (letters : List Letter) : Token :=
  if h : letters.any Letter.isHalf = true then .broken ⟨letters, h⟩
  else .scalar (letters.filterMap Letter.char?) false

/-- Characters are the scalar of these characters. -/
theorem Token.ofLetters_chars (cs : List Char) : ofLetters (cs.map .char) = .scalar cs false := by
  rw [ofLetters, dif_neg (by rw [Letter.any_isHalf_chars]; exact Bool.false_ne_true),
    Letter.filterMap_char?_chars]

/-- A token, or what may become one. -/
inductive Mark where
  | token (t : Token)
  /-- The place where a key may begin, named by its position. -/
  | maybeKey (index : Nat)
  /-- A colon behind the key at a position, and whether that key opens a mapping. -/
  | colon (index : Nat) (opens : Bool)
deriving DecidableEq, Repr

namespace Mark

/-- The keys that colons further on name. -/
abbrev Named := List (Nat × Bool)

/-- The tokens, and the keys that their colons name. -/
def resolveWith : List Mark → List Token × Named
  | [] => ([], [])
  | .token t :: rest =>
    let (ts, keys) := resolveWith rest
    (t :: ts, keys)
  | .colon i opens :: rest =>
    let (ts, keys) := resolveWith rest
    (.value :: ts, (i, opens) :: keys)
  | .maybeKey i :: rest =>
    let (ts, keys) := resolveWith rest
    match keys.find? fun k => k.1 == i with
    | some (_, true) => (.blockMapping :: .key :: ts, keys)
    | some (_, false) => (.key :: ts, keys)
    | none => (ts, keys)

/-- The tokens, with a key at each place that a colon names. -/
def resolve (marks : List Mark) : List Token :=
  (resolveWith marks).1

end Mark

/-- A key that may have begun: where, and whether the line cannot be anything else. -/
structure PendingKey where
  index : Nat
  line : Nat
  column : Nat
  required : Bool
deriving DecidableEq, Repr

/-- What the reader knows between two tokens. -/
structure Scan where
  cursor : Cursor := {}
  /-- The columns of the open block collections, innermost first. -/
  indents : List Nat := []
  /-- Whether a key may begin here. -/
  allowKey : Bool := true
  /-- The key that may have begun at this level of brackets. -/
  pending : Option PendingKey := none
  /-- The same for the levels outside, innermost first; empty outside all brackets. -/
  outer : List (Option PendingKey) := []
deriving DecidableEq, Repr

namespace Scan

/-- What one step gives: marks, the state behind them and the text that is left. -/
abbrev Step := List Mark × Scan × List Char

/-- Whether the reader is inside brackets. -/
def inFlow (s : Scan) : Bool :=
  !s.outer.isEmpty

/-- Whether a column lies right of the innermost block collection. -/
def isDeeper (s : Scan) (column : Nat) : Bool :=
  match s.indents with
  | [] => true
  | i :: _ => i < column

/-- Whether a column is that of the innermost block collection. -/
def isLevel (s : Scan) (column : Nat) : Bool :=
  s.indents.head? == some column

/-- The longest key that a colon may end. -/
def maxKeyLength : Nat := 1024

/-- A key that can no longer be ended is forgotten, unless the line requires it. -/
def forgetStale (p : Cursor) : Option PendingKey → Except Fault (Option PendingKey)
  | none => .ok none
  | some k =>
    if k.line != p.line || k.index + maxKeyLength < p.index then
      if k.required then .error (.malformed .tokens) else .ok none
    else .ok (some k)

/-- The key of this level is given up, which a required key forbids. -/
def giveUpKey (s : Scan) : Except Fault Scan :=
  match s.pending with
  | some k => if k.required then .error (.malformed .tokens) else .ok { s with pending := none }
  | none => .ok s

/-- A key may begin here, if one is allowed. -/
def noteKey (s : Scan) : Except Fault (List Mark × Scan) :=
  if s.allowKey then do
    let s ← s.giveUpKey
    let p := s.cursor
    let required := !s.inFlow && s.isLevel p.column
    return ([.maybeKey p.index], { s with pending := some ⟨p.index, p.line, p.column, required⟩ })
  else .ok ([], s)

/-- Blanks, comments and breaks before the next token; a break outside brackets allows a key. -/
def passOver (inFlow comment allowKey : Bool) (p : Cursor) : List Char → Bool × Cursor × List Char
  | [] => (allowKey, p, [])
  | c :: rest =>
    if isBreak c then passOver inFlow false (allowKey || !inFlow) (p.step c rest) rest
    else if comment || c = ' ' then passOver inFlow comment allowKey (p.step c rest) rest
    else if c = '#' then passOver inFlow true allowKey (p.step c rest) rest
    else (allowKey, p, c :: rest)

/-- The ends of the block collections right of a column, and those that stay open. -/
def closeBlocks (column : Nat) : List Nat → List Mark × List Nat
  | [] => ([], [])
  | i :: rest =>
    if column < i then
      let (marks, open?) := closeBlocks column rest
      (.token .blockEnd :: marks, open?)
    else ([], i :: rest)

/-- The ends of all open block collections. -/
def closeAll (s : Scan) : List Mark :=
  if s.inFlow then [] else s.indents.map fun _ => .token .blockEnd

/-- The marks of a line that belongs to no collection: block collections end, a key cannot go on. -/
def leaveBlocks (s : Scan) : Except Fault (List Mark × Scan) := do
  let marks := s.closeAll
  let s ← s.giveUpKey
  return (marks, { s with indents := if s.inFlow then s.indents else [], allowKey := false })

/-- The state behind `n` characters. -/
def advance (s : Scan) (n : Nat) (cs : List Char) : Scan × List Char :=
  let (p, left) := Lexeme.skip n s.cursor cs
  ({ s with cursor := p }, left)

/-- A block collection opens at a column right of the others. -/
def openBlock (s : Scan) (column : Nat) (t : Token) : List Mark × Scan :=
  if s.isDeeper column then ([.token t], { s with indents := column :: s.indents }) else ([], s)

/-- A mark between documents. -/
def documentMark (s : Scan) (t : Token) (cs : List Char) : Except Fault Step := do
  let (marks, s) ← s.leaveBlocks
  let (s, left) := s.advance 3 cs
  return (marks ++ [.token t], s, left)

/-- A directive and the rest of its line. -/
def directiveLine (s : Scan) (cs : List Char) : Except Fault Step := do
  let (marks, s) ← s.leaveBlocks
  let (d, left) ← Lexeme.directive (cs.drop 1)
  let (s, left) := s.advance (cs.length - left.length) cs
  let (p, left) ← Lexeme.ignoredLine s.cursor left
  return (marks ++ [.token (.directive d)], { s with cursor := p }, left)

/-- A bracket that opens. -/
def openBracket (s : Scan) (t : Token) (cs : List Char) : Except Fault Step := do
  let (marks, s) ← s.noteKey
  let (s, left) := s.advance 1 cs
  return (marks ++ [.token t],
    { s with outer := s.pending :: s.outer, pending := none, allowKey := true }, left)

/-- A bracket that closes. -/
def closeBracket (s : Scan) (t : Token) (cs : List Char) : Except Fault Step := do
  let s ← s.giveUpKey
  match s.outer with
  | [] => .error (.malformed .tokens)
  | k :: outer =>
    let (s, left) := s.advance 1 cs
    return ([.token t], { s with outer := outer, pending := k, allowKey := false }, left)

/-- A comma between the parts of a flow collection. -/
def commaToken (s : Scan) (cs : List Char) : Except Fault Step := do
  let s ← s.giveUpKey
  let (s, left) := s.advance 1 cs
  return ([.token .comma], { s with allowKey := true }, left)

/-- A hyphen before an item. -/
def entryToken (s : Scan) (cs : List Char) : Except Fault Step := do
  if !s.inFlow && !s.allowKey then .error (.malformed .tokens)
  else
    let (marks, s) := if s.inFlow then ([], s) else s.openBlock s.cursor.column .blockSequence
    let s ← s.giveUpKey
    let (s, left) := s.advance 1 cs
    return (marks ++ [.token .entry], { s with allowKey := true }, left)

/-- A question mark before a key. -/
def keyToken (s : Scan) (cs : List Char) : Except Fault Step := do
  if !s.inFlow && !s.allowKey then .error (.malformed .tokens)
  else
    let (marks, s) := if s.inFlow then ([], s) else s.openBlock s.cursor.column .blockMapping
    let s ← s.giveUpKey
    let (s, left) := s.advance 1 cs
    return (marks ++ [.token .key], { s with allowKey := !s.inFlow }, left)

/-- A colon: behind a key that has begun on this line, or alone before the value of a
key after a question mark. -/
def valueToken (s : Scan) (cs : List Char) : Except Fault Step := do
  match s.pending with
  | some k =>
    let opens := !s.inFlow && s.isDeeper k.column
    let s := { s with
      pending := none, allowKey := false, indents :=
        if opens then k.column :: s.indents else s.indents }
    let (s, left) := s.advance 1 cs
    return ([.colon k.index opens], s, left)
  | none =>
    if !s.inFlow && !s.allowKey then .error (.malformed .tokens)
    else
      let (marks, s) := if s.inFlow then ([], s) else s.openBlock s.cursor.column .blockMapping
      let (s, left) := s.advance 1 cs
      return (marks ++ [.token .value], { s with allowKey := !s.inFlow }, left)

/-- A token that may be a key, or part of one: its text begins behind `n` characters
and is read by `reader`. -/
def keyPart (s : Scan) (n : Nat) (cs : List Char)
    (reader : Cursor → List Char → Except Fault (Token × Cursor × List Char)) :
      Except Fault Step := do
  let (marks, s) ← s.noteKey
  let (t, left) := s.advance n cs
  let (token, p, left) ← reader t.cursor left
  return (marks ++ [.token token], { s with cursor := p, allowKey := false }, left)

/-- A reference or an anchor. -/
def namedToken (s : Scan) (make : List Char → Token) (cs : List Char) : Except Fault Step :=
  s.keyPart 1 cs fun p left => do
    let (name, p, left) ← Lexeme.anchorName p left
    return (make name, p, left)

/-- A tag. -/
def tagToken (s : Scan) (cs : List Char) : Except Fault Step :=
  s.keyPart 0 cs fun p left => do
    let ((handle, suffix), rest) ← Lexeme.tag left
    let (p, rest) := Lexeme.skip (left.length - rest.length) p left
    return (.tag handle suffix, p, rest)

/-- A quoted scalar. -/
def quotedToken (s : Scan) (double : Bool) (cs : List Char) : Except Fault Step :=
  s.keyPart 1 cs fun p left => do
    let (letters, p, left) ← Lexeme.quoted double (left.length + 1) p left
    return (.ofLetters letters, p, left)

/-- The column that the later lines of a scalar reach at least. -/
def scalarColumn (s : Scan) : Nat :=
  match s.indents with
  | [] => 0
  | i :: _ => i + 1

/-- A plain scalar; one that ends by a break leaves a key allowed. -/
def plainToken (s : Scan) (cs : List Char) : Except Fault Step := do
  let (marks, s) ← s.noteKey
  let ((text, broken), p, left) := Lexeme.plain s.inFlow s.scalarColumn (cs.length + 1) s.cursor cs
  return (marks ++ [.token (.scalar text true)], { s with cursor := p, allowKey := broken }, left)

/-- A block scalar. -/
def blockToken (s : Scan) (folded : Bool) (cs : List Char) : Except Fault Step := do
  let s ← s.giveUpKey
  let (t, left) := s.advance 1 cs
  let (text, p, left) ← Lexeme.block folded s.scalarColumn t.cursor left
  return ([.token (.scalar text false)], { s with cursor := p, allowKey := true }, left)

/-- Whether a plain scalar may begin with a character. -/
def startsPlain (s : Scan) (c : Char) (rest : List Char) : Bool :=
  !(isBlank c || isBreak c || isIndicator c) ||
    (!atBoundary rest && (c == '-' || (!s.inFlow && (c == '?' || c == ':'))))

/-- The token at the front of a text that begins with one. -/
def next (s : Scan) (c : Char) (rest : List Char) : Except Fault Step :=
  let cs := c :: rest
  let start := s.cursor.column == 0
  if c = '%' && start then s.directiveLine cs
  else if start && Lexeme.atDocumentMark cs then
    s.documentMark (if c = '-' then .documentStart else .documentEnd) cs
  else if c = '[' then s.openBracket .flowSequence cs
  else if c = '\x7b' then s.openBracket .flowMapping cs
  else if c = ']' then s.closeBracket .flowSequenceEnd cs
  else if c = '\x7d' then s.closeBracket .flowMappingEnd cs
  else if c = ',' then s.commaToken cs
  else if c = '-' && atBoundary rest then s.entryToken cs
  else if c = '?' && (s.inFlow || atBoundary rest) then s.keyToken cs
  else if c = ':' && (s.inFlow || atBoundary rest) then s.valueToken cs
  else if c = '*' then s.namedToken .reference cs
  else if c = '&' then s.namedToken .anchor cs
  else if c = '!' then s.tagToken cs
  else if c = '|' && !s.inFlow then s.blockToken false cs
  else if c = '>' && !s.inFlow then s.blockToken true cs
  else if c = '\'' then s.quotedToken false cs
  else if c = '"' then s.quotedToken true cs
  else if s.startsPlain c rest then s.plainToken cs
  else .error (.malformed .tokens)

/-- The state in front of the next token: keys that can no longer be ended are forgotten, and block
collections right of the token end. -/
def settle (s : Scan) : Except Fault (List Mark × Scan) := do
  let pending ← forgetStale s.cursor s.pending
  let outer ← s.outer.mapM (forgetStale s.cursor)
  let s := { s with pending := pending, outer := outer }
  if s.inFlow then return ([], s)
  else
    let (marks, indents) := closeBlocks s.cursor.column s.indents
    return (marks, { s with indents := indents })

/-- The marks of a text from a state on. -/
def marks : Nat → Scan → List Char → List Mark
  | 0, _, _ => [.token (.fault (.malformed .tokens))]
  | fuel + 1, s, cs =>
    let (allowKey, p, cs) := passOver s.inFlow false s.allowKey s.cursor cs
    match settle { s with cursor := p, allowKey := allowKey } with
    | .error f => [.token (.fault f)]
    | .ok (closed, s) =>
      match cs with
      | [] =>
        match s.leaveBlocks with
        | .error f => closed ++ [.token (.fault f)]
        | .ok (final, _) => closed ++ final
      | c :: rest =>
        match s.next c rest with
        | .error f => closed ++ [.token (.fault f)]
        | .ok (found, s, left) => closed ++ found ++ marks fuel s left

end Scan

/-- The tokens of a text. -/
def Token.ofText (cs : List Char) : List Token :=
  if cs.all isAllowed then
    let (s, cs) := match cs with
      | c :: rest =>
        if c = byteOrderMark then ({ cursor := ({} : Cursor).step c rest : Scan }, rest)
          else ({}, cs)
      | [] => ({}, cs)
    Mark.resolve (Scan.marks (cs.length + 1) s cs)
  else [.fault (.malformed .characters)]

end RegistryBundle.Yaml
