import RegistryBundle.Text.Letter
import RegistryBundle.Yaml.Chars

/-!
# The words of a document

The pieces of text that one token holds: plain scalars, quoted scalars, block scalars, anchors, tags
and directives. Every reader starts at a `Cursor`, takes some text, and gives the cursor behind it
and the text that is left.

* `Cursor.step` moves over one character;
* `Lexeme.plain`, `Lexeme.quoted`, `Lexeme.block` read the three kinds of scalars;
* `Fault` says why a document cannot be read.
-/

namespace RegistryBundle.Yaml

open Chars

/-- Where a text shows that it is not in the format. -/
inductive Layer where
  /-- A character that no document holds. -/
  | characters
  | tokens
  | grammar
  /-- References to nodes, and the end of the document. -/
  | references
  /-- The types of nodes. -/
  | types
  /-- A key that is in its mapping already. -/
  | keys
deriving DecidableEq, Repr

/-- Why a document cannot be read. -/
inductive Fault where
  /-- The text is not in the format. -/
  | malformed (layer : Layer)
  /-- A text stands where a number, a date or a character of its type should. -/
  | badValue
  /-- A word that is no truth value. -/
  | unknownWord
  /-- A number without a digit. -/
  | emptyNumber
  /-- A text that is no timestamp. -/
  | badTimestamp
  /-- A code or a number beyond every range. -/
  | overflow
deriving DecidableEq, Repr

/-- A position: how many characters precede it, and its line and column. -/
structure Cursor where
  index : Nat := 0
  line : Nat := 0
  column : Nat := 0
deriving DecidableEq, Repr

/-- The mark of byte order, which takes no column. -/
def byteOrderMark : Char := '\uFEFF'

/-- The cursor behind a character; `rest` is what follows it. -/
def Cursor.step (p : Cursor) (c : Char) (rest : List Char) : Cursor :=
  if isBreak c && !(c == '\r' && rest.head? == some '\n') then ⟨p.index + 1, p.line + 1, 0⟩
  else if c == byteOrderMark then { p with index := p.index + 1 }
  else { p with index := p.index + 1, column := p.column + 1 }

namespace Lexeme

/-- What a reader found, the cursor behind it and the text that is left. -/
abbrev Found (α : Type) := α × Cursor × List Char

/-- The characters at the front that satisfy a test. -/
def run (test : Char → Bool) (p : Cursor) : List Char → Found (List Char)
  | [] => ([], p, [])
  | c :: rest =>
    if test c then
      let (cs, q, left) := run test (p.step c rest) rest
      (c :: cs, q, left)
    else ([], p, c :: rest)

/-- The break at the front, as the character it stands for. -/
def lineBreak (p : Cursor) : List Char → Found (List Char)
  | '\r' :: '\n' :: rest => (['\n'], (p.step '\r' ('\n' :: rest)).step '\n' rest, rest)
  | c :: rest =>
    if c = '\r' || c = '\n' || c = '\x85' then (['\n'], p.step c rest, rest)
    else if isBreak c then ([c], p.step c rest, rest)
    else ([], p, c :: rest)
  | [] => ([], p, [])

/-- Whether the mark between documents stands at the front. -/
def atDocumentMark (cs : List Char) : Bool :=
  (cs.take 3 == ['-', '-', '-'] || cs.take 3 == ['.', '.', '.']) && atBoundary (cs.drop 3)

/-! ## Plain scalars -/

/-- Whether a plain scalar ends before a character, inside brackets or not. -/
def endsPlain (flow : Bool) (c : Char) (rest : List Char) : Bool :=
  isBlank c || isBreak c || (c == ':' &&
    (atBoundary rest || (flow && rest.head?.any isFlowIndicator))) ||
    (flow && (isFlowIndicator c || c == '?'))

/-- A run of characters of a plain scalar. -/
def plainRun (flow : Bool) (p : Cursor) : List Char → Found (List Char)
  | [] => ([], p, [])
  | c :: rest =>
    if endsPlain flow c rest then ([], p, c :: rest)
    else
      let (cs, q, left) := plainRun flow (p.step c rest) rest
      (c :: cs, q, left)

/-- The breaks and spaces after the first break inside a plain scalar; nothing
if a document ends there. -/
def plainBreaks : Nat → Cursor → List Char → Found (Option (List Char))
  | 0, p, cs => (some [], p, cs)
  | fuel + 1, p, cs =>
    match cs with
    | [] => (some [], p, [])
    | c :: rest =>
      if c = ' ' then plainBreaks fuel (p.step c rest) rest
      else if isBreak c then
        let (b, p, rest) := lineBreak p cs
        if atDocumentMark rest then (none, p, rest)
        else
          let (more, p, rest) := plainBreaks fuel p rest
          (more.map (b ++ ·), p, rest)
      else (some [], p, cs)

/-- What separates two runs of a plain scalar, empty if the scalar ends, and whether it breaks the
line: a single break is a space, and of several the first vanishes. -/
def plainGap (p : Cursor) (cs : List Char) : Found (List Char × Bool) :=
  let (white, p, cs) := run (· == ' ') p cs
  match cs with
  | [] => ((white, false), p, cs)
  | c :: _ =>
    if isBreak c then
      let (first, p, cs) := lineBreak p cs
      if atDocumentMark cs then (([], true), p, cs)
      else
        match plainBreaks (cs.length + 1) p cs with
        | (none, p, cs) => (([], true), p, cs)
        | (some more, p, cs) =>
          let gap := if first != ['\n'] then first ++ more else if more.isEmpty then [' '] else more
          ((gap, true), p, cs)
    else ((white, false), p, cs)

/-- A plain scalar whose later lines are indented to `column` at least, and
whether it ended by a break. -/
def plain (flow : Bool) (column : Nat) : Nat → Cursor → List Char → Found (List Char × Bool)
  | 0, p, cs => (([], false), p, cs)
  | fuel + 1, p, cs =>
    if cs.head? == some '#' then (([], false), p, cs)
    else
      let (word, p, cs) := plainRun flow p cs
      if word.isEmpty then (([], false), p, cs)
      else
        let ((gap, broken), p, cs) := plainGap p cs
        if gap.isEmpty || cs.head? == some '#' || (!flow && p.column < column) then
          ((word, broken), p, cs)
        else
          let ((more, last), q, left) := plain flow column fuel p cs
          if more.isEmpty then ((word, broken), q, left) else ((word ++ gap ++ more, last), q, left)

/-! ## Quoted scalars -/

/-- The characters that stand for others after a backslash. -/
def escapes : List (Char × Char) :=
  [('0', '\x00'), ('a', '\x07'), ('b', '\x08'), ('t', '\x09'), ('\t', '\x09'), ('n', '\x0a'),
    ('v', '\x0b'), ('f', '\x0c'), ('r', '\x0d'), ('e', '\x1b'), (' ', ' '), ('"', '"'),
    ('\\', '\\'), ('/', '/'), ('N', '\x85'), ('_', '\xa0'), ('L', '\u2028'), ('P', '\u2029')]

/-- How many digits the code of a character has after a letter. -/
def codeLength? (c : Char) : Option Nat :=
  if c = 'x' then some 2 else if c = 'u' then some 4 else if c = 'U' then some 8 else none

/-- The letter with a code; a code of no letter is a fault. -/
def letterOfCode (n : Nat) : Except Fault Letter :=
  match Letter.ofCode? n with
  | some l => .ok l
  | none => if n < 0x80000000 then .error .badValue else .error .overflow

/-- Moves over a number of characters. -/
def skip : Nat → Cursor → List Char → Cursor × List Char
  | 0, p, cs => (p, cs)
  | _, p, [] => (p, [])
  | n + 1, p, c :: rest => skip n (p.step c rest) rest

/-- The breaks inside a quoted scalar, with the blanks around them passed over; a mark between
documents is a fault. -/
def quotedBreaks : Nat → Cursor → List Char → Except Fault (Found (List Char))
  | 0, _, _ => .error (.malformed .tokens)
  | fuel + 1, p, cs =>
    if atDocumentMark cs then .error (.malformed .tokens)
    else
      let (_, p, cs) := run isBlank p cs
      match cs with
      | c :: _ =>
        if isBreak c then do
          let (b, p, cs) := lineBreak p cs
          let (more, p, cs) ← quotedBreaks fuel p cs
          return (b ++ more, p, cs)
        else .ok ([], p, cs)
      | [] => .ok ([], p, cs)

/-- Blanks inside a quoted scalar, and the breaks among them: a single break is a space, and of
several the first vanishes. -/
def quotedGap (p : Cursor) (cs : List Char) : Except Fault (Found (List Char)) :=
  let (white, p, cs) := run isBlank p cs
  match cs with
  | [] => .error (.malformed .tokens)
  | c :: _ =>
    if isBreak c then do
      let (first, p, cs) := lineBreak p cs
      let (more, p, cs) ← quotedBreaks (cs.length + 1) p cs
      return (if first != ['\n'] then first ++ more else if more.isEmpty then [' '] else more, p,
        cs)
    else .ok (white, p, cs)

/-- What a backslash and the text after it stand for. -/
def escaped (p : Cursor) (cs : List Char) : Except Fault (Found (List Letter)) :=
  match cs with
  | [] => .error (.malformed .tokens)
  | e :: rest =>
    match escapes.find? fun x => x.1 == e with
    | some (_, c) => .ok ([.char c], p.step e rest, rest)
    | none =>
      match codeLength? e with
      | some n =>
        let digits := rest.take n
        if digits.length == n && digits.all isHex then do
          let l ← letterOfCode (ofHex digits)
          let (p, left) := skip n (p.step e rest) rest
          return ([l], p, left)
        else .error (.malformed .tokens)
      | none =>
        if isBreak e then do
          let (_, p, cs) := lineBreak p cs
          let (breaks, p, cs) ← quotedBreaks (cs.length + 1) p cs
          return (breaks.map .char, p, cs)
        else .error (.malformed .tokens)

/-- The rest of a quoted scalar, up to and with its closing quote. -/
def quoted (double : Bool) : Nat → Cursor → List Char → Except Fault (Found (List Letter))
  | 0, _, _ => .error (.malformed .tokens)
  | _, _, [] => .error (.malformed .tokens)
  | fuel + 1, p, c :: rest =>
    let quote := if double then '"' else '\''
    if c = quote then
      match double, rest with
      | false, '\'' :: more => do
        let (cs, q, left) ← quoted double fuel ((p.step c rest).step '\'' more) more
        return (.char '\'' :: cs, q, left)
      | _, _ => .ok ([], p.step c rest, rest)
    else if double && c = '\\' then do
      let (x, p, cs) ← escaped (p.step c rest) rest
      let (more, q, left) ← quoted double fuel p cs
      return (x ++ more, q, left)
    else if isBlank c || isBreak c then do
      let (gap, p, cs) ← quotedGap p (c :: rest)
      let (more, q, left) ← quoted double fuel p cs
      return (gap.map .char ++ more, q, left)
    else do
      let (more, q, left) ← quoted double fuel (p.step c rest) rest
      return (.char c :: more, q, left)

/-! ## Block scalars -/

/-- What happens to the breaks at the end of a block scalar: all but one are dropped,
all are kept, or none is. -/
inductive Chomping where
  | clip
  | keep
  | strip
deriving DecidableEq, Repr

/-- The end of a line on which nothing but a comment may stand. -/
def ignoredLine (p : Cursor) (cs : List Char) : Except Fault (Cursor × List Char) :=
  let (_, p, cs) := run (· == ' ') p cs
  let (p, cs) := if cs.head? == some '#' then (run (!isBreak ·) p cs).2 else (p, cs)
  if atLineEnd cs then .ok (lineBreak p cs).2 else .error (.malformed .tokens)

/-- The digit of a block scalar's indentation. -/
def indentDigit? (cs : List Char) : Except Fault (Option Nat × List Char) :=
  match cs with
  | c :: rest =>
    if c = '0' then .error (.malformed .tokens)
    else if c.isDigit then .ok (some (c.toNat - 48), rest)
    else .ok (none, cs)
  | [] => .ok (none, [])

/-- The sign of a block scalar's chomping. -/
def chomping? : List Char → Option Chomping × List Char
  | '+' :: rest => (some .keep, rest)
  | '-' :: rest => (some .strip, rest)
  | cs => (none, cs)

/-- The header of a block scalar: chomping and indentation, in either order. -/
def blockHeader (cs : List Char) : Except Fault (Chomping × Option Nat × List Char) := do
  let (chomp, cs) := chomping? cs
  let (digit, cs) ← indentDigit? cs
  let (chomp, cs) := if chomp.isNone && digit.isSome then chomping? cs else (chomp, cs)
  if atSpaceOrEnd cs then return (chomp.getD .clip, digit, cs) else .error (.malformed .tokens)

/-- The empty lines before a block scalar whose indentation is not given, and the
widest of their columns. -/
def blockIndentation (widest : Nat) (p : Cursor) : List Char → Found (List Char × Nat)
  | [] => (([], widest), p, [])
  | c :: rest =>
    let q := p.step c rest
    if c = ' ' then blockIndentation (max widest q.column) q rest
    else if c = '\r' && rest.head? == some '\n' then blockIndentation widest q rest
    else if isBreak c then
      let ((more, widest), q, left) := blockIndentation widest q rest
      (((if c = '\r' || c = '\x85' then '\n' else c) :: more, widest), q, left)
    else (([], widest), p, c :: rest)

/-- The empty lines of a block scalar, and the indentation of the line after them. -/
def blockBreaks (indent : Nat) (p : Cursor) : List Char → Found (List Char)
  | [] => ([], p, [])
  | c :: rest =>
    let q := p.step c rest
    if c = ' ' && p.column < indent then blockBreaks indent q rest
    else if c = '\r' && rest.head? == some '\n' then blockBreaks indent q rest
    else if isBreak c then
      let (more, q, left) := blockBreaks indent q rest
      ((if c = '\r' || c = '\x85' then '\n' else c) :: more, q, left)
    else ([], p, c :: rest)

/-- The lines of a block scalar, each with the breaks that end it: whether it begins with a blank,
its text, its own break and the breaks of the empty lines after it. -/
structure BlockLine where
  text : List Char
  ending : List Char
  breaks : List Char

/-- The lines of a block scalar from one that is indented. -/
def blockLines (indent : Nat) : Nat → Cursor → List Char → Found (List BlockLine)
  | 0, p, cs => ([], p, cs)
  | fuel + 1, p, cs =>
    if p.column == indent && !cs.isEmpty then
      let (text, p, cs) := run (!isBreak ·) p cs
      let (ending, p, cs) := lineBreak p cs
      let (breaks, p, cs) := blockBreaks indent p cs
      let (more, p, cs) := blockLines indent fuel p cs
      (⟨text, ending, breaks⟩ :: more, p, cs)
    else ([], p, cs)

/-- Whether a line begins with a blank. -/
def BlockLine.isIndented (l : BlockLine) : Bool :=
  l.text.head?.any isBlank

/-- The text of the lines of a block scalar, a break between two unindented
lines folded to a space. -/
def blockText (folded : Bool) (chomp : Chomping) : List BlockLine → List Char
  | [] => []
  | [l] =>
    match chomp with
    | .strip => l.text
    | .clip => l.text ++ l.ending
    | .keep => l.text ++ l.ending ++ l.breaks
  | l :: next :: rest =>
    let joint :=
      if folded && l.ending == ['\n'] && !l.isIndented && !next.isIndented then
        if l.breaks.isEmpty then [' '] else []
      else l.ending
    l.text ++ joint ++ l.breaks ++ blockText folded chomp (next :: rest)

/-- A block scalar from behind its indicator; its lines are indented to `column` at least. -/
def block (folded : Bool) (column : Nat) (p : Cursor) (cs : List Char) :
    Except Fault (Found (List Char)) := do
  let (chomp, digit, left) ← blockHeader cs
  let (p, cs) ← ignoredLine (skip (cs.length - left.length) p cs).1 left
  let least := max column 1
  let ((breaks, indent), p, cs) :=
    match digit with
    | none =>
      let ((breaks, widest), p, cs) := blockIndentation 0 p cs
      ((breaks, max least widest), p, cs)
    | some d =>
      let indent := least + d - 1
      let (breaks, p, cs) := blockBreaks indent p cs
      ((breaks, indent), p, cs)
  let (lines, p, cs) := blockLines indent (cs.length + 1) p cs
  let front := if lines.isEmpty && chomp != .keep then [] else breaks
  return (front ++ blockText folded chomp lines, p, cs)

/-! ## Anchors, tags and directives -/

/-- The name after an anchor's or a reference's indicator. -/
def anchorName (p : Cursor) (cs : List Char) : Except Fault (Found (List Char)) :=
  let (name, p, cs) := run isWord p cs
  if name.isEmpty then .error (.malformed .tokens)
  else if atBoundary cs || "?:,]\x7d%@\x60".toList.contains (cs.headD ' ') then .ok (name, p, cs)
  else .error (.malformed .tokens)

/-- The octets of escapes `%xx`. -/
def octets : List Char → List UInt8 × List Char
  | '%' :: a :: b :: rest =>
    if isHex a && isHex b then
      let (os, left) := octets rest
      ((hexValue a * 16 + hexValue b).toUInt8 :: os, left)
    else ([], '%' :: a :: b :: rest)
  | cs => ([], cs)

/-- The characters of a tag, `%xx` standing for octets of the encoding. -/
def tagChars : Nat → List Char → Except Fault (List Char × List Char)
  | 0, _ => .error (.malformed .tokens)
  | _, [] => .ok ([], [])
  | fuel + 1, c :: rest =>
    if c = '%' then
      let (os, left) := octets (c :: rest)
      if os.isEmpty || left.head? == some '%' then .error (.malformed .tokens)
      else
        match String.fromUTF8? ⟨os.toArray⟩ with
        | none => .error (.malformed .tokens)
        | some s => do
          let (more, left) ← tagChars fuel left
          return (s.toList ++ more, left)
    else if isTagChar c then do
      let (more, left) ← tagChars fuel rest
      return (c :: more, left)
    else .ok ([], c :: rest)

/-- The characters of a tag, at least one. -/
def tagText (cs : List Char) : Except Fault (List Char × List Char) := do
  let (text, left) ← tagChars (cs.length + 1) cs
  if text.isEmpty then .error (.malformed .tokens) else return (text, left)

/-- A handle of a tag, from its first exclamation mark to its last. -/
def tagHandle (cs : List Char) : Except Fault (List Char × List Char) :=
  match cs with
  | '!' :: ' ' :: _ => .ok (['!'], cs.drop 1)
  | '!' :: rest =>
    let name := rest.takeWhile isWord
    match rest.dropWhile isWord with
    | '!' :: left => .ok ('!' :: (name ++ ['!']), left)
    | _ => .error (.malformed .tokens)
  | _ => .error (.malformed .tokens)

/-- A tag: its handle, if it has one, and the rest of its name. -/
def tag (cs : List Char) : Except Fault ((Option (List Char) × List Char) × List Char) := do
  let (found, left) ← match cs with
    | '!' :: '<' :: rest => do
      let (text, left) ← tagText rest
      match left with
      | '>' :: left => pure ((none, text), left)
      | _ => .error (.malformed .tokens)
    | _ =>
      if atBoundary (cs.drop 1) then pure ((none, ['!']), cs.drop 1)
      else if ((cs.drop 1).takeWhile fun c => c != ' ' && !isBreak c).contains '!' then do
        let (handle, left) ← tagHandle cs
        let (text, left) ← tagText left
        pure ((some handle, text), left)
      else do
        let (text, left) ← tagText (cs.drop 1)
        pure ((some ['!'], text), left)
  if atSpaceOrEnd left then return (found, left) else .error (.malformed .tokens)

/-- A line that says how to read the document after it. -/
inductive Directive where
  /-- The version of the format. -/
  | version (major : Nat)
  /-- What a handle of tags stands for. -/
  | handle (name : List Char) (text : List Char)
  | unknown
deriving DecidableEq, Repr

/-- Digits, at least one. -/
def digits (cs : List Char) : Except Fault (Nat × List Char) :=
  let ds := cs.takeWhile Char.isDigit
  if ds.isEmpty then .error (.malformed .tokens)
    else .ok (Nat.ofDigitChars 10 ds 0, cs.drop ds.length)

/-- A directive from behind its indicator. -/
def directive (cs : List Char) : Except Fault (Directive × List Char) := do
  let name := cs.takeWhile isWord
  let cs := cs.drop name.length
  if name.isEmpty || !atSpaceOrEnd cs then .error (.malformed .tokens)
  else if name == "YAML".toList then do
    let (major, cs) ← digits (cs.dropWhile (· == ' '))
    match cs with
    | '.' :: cs => do
      let (_, cs) ← digits cs
      if atSpaceOrEnd cs then return (.version major, cs) else .error (.malformed .tokens)
    | _ => .error (.malformed .tokens)
  else if name == "TAG".toList then do
    let (handle, cs) ← tagHandle (cs.dropWhile (· == ' '))
    if cs.head? != some ' ' then .error (.malformed .tokens)
    else do
      let (text, cs) ← tagText (cs.dropWhile (· == ' '))
      if atSpaceOrEnd cs then return (.handle handle text, cs) else .error (.malformed .tokens)
  else return (.unknown, cs.dropWhile (!isBreak ·))

end Lexeme

end RegistryBundle.Yaml
