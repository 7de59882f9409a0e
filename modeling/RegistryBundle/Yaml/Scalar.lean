import RegistryBundle.Yaml.Chars

/-!
# Scalars on the page

A text is written plain if nothing in it could be taken for something else, within single quotes if
it is printable, and within double quotes with escapes otherwise. A line is broken where it has
grown past 80 columns: at a single space, or within double quotes by a backslash.

* `Scalar.style` chooses between the three; `style_key_unbroken`: a key on the line of its colon
  holds no line break;
* `Scalar.plainBody`, `Scalar.singleBody`, `Scalar.doubleBody` are the three ways of writing,
  each told the column at which it starts, the indentation of the lines it continues on, and
  whether it may break lines.
-/

namespace RegistryBundle.Yaml.Scalar

open Chars

/-- The width after which lines are broken. -/
def width : Nat := 80

/-- The spaces of an indentation. -/
def spaces (n : Nat) : List Char :=
  List.replicate n ' '

/-- A character that is written as itself outside double quotes. -/
def isPlainChar (c : Char) : Bool :=
  c == '\n' || (0x20 ≤ c.toNat && c.toNat ≤ 0x7E)

/-- A break as the writer knows it: a carriage return counts among the characters to escape. -/
def isLineBreak (c : Char) : Bool :=
  c == '\n' || c == '\x85' || c == '\u2028' || c == '\u2029'

/-- A character after which, or the end of text at which, an indicator would be read. -/
def boundary (cs : List Char) : Bool :=
  match cs with
  | [] => true
  | c :: _ => c == '\x00' || isBlank c || isBreak c

/-- Whether a text begins like the marks between documents. -/
def isDocumentMark (cs : List Char) : Bool :=
  cs.take 3 == ['-', '-', '-'] || cs.take 3 == ['.', '.', '.']

/-- Whether the first character, with the rest of the text after it, would
be read as an indicator. -/
def leadingIndicator (c : Char) (rest : List Char) : Bool :=
  "#,[]\x7b\x7d&*!|>'\"%@\x60".toList.contains c ||
    ((c == '?' || c == ':' || c == '-') && boundary rest)

/-- Whether an indicator stands inside a text: a colon before a blank or a number sign after one.
`previous` is the character before. -/
def innerIndicator : Char → List Char → Bool
  | _, [] => false
  | previous, c :: rest =>
    (c == ':' && boundary rest) || (c == '#' && boundary [previous]) || innerIndicator c rest

/-- Whether a text holds an indicator of block structure. -/
def hasIndicator (cs : List Char) : Bool :=
  match cs with
  | [] => false
  | c :: rest => isDocumentMark cs || leadingIndicator c rest || innerIndicator c rest

/-- Whether a space and a line break stand next to each other, the first of them being `first`. -/
def adjoins (first second : Char → Bool) : List Char → Bool
  | c :: d :: rest => (first c && second d) || adjoins first second (d :: rest)
  | _ => false

/-- Whether a text can stand within single quotes: printable, no space beside a line break. -/
def allowsSingle (cs : List Char) : Bool :=
  cs.all isPlainChar && !adjoins isLineBreak (· == ' ') cs && !adjoins (· == ' ') isLineBreak cs

/-- Whether a text is one line of printable characters without an
indicator, a space at neither end. -/
def allowsPlain (cs : List Char) : Bool :=
  cs.all isPlainChar && !cs.any isLineBreak && cs.head? != some ' ' && cs.getLast? != some ' ' &&
    !hasIndicator cs

/-- How a scalar is written. -/
inductive Style where
  | plain
  | single
  | double
deriving DecidableEq, Repr

/-- The style of a text. `implicit` tells whether it would be read back plain as what it is, `key`
whether it is a key on the line of its colon. -/
def style (implicit key : Bool) (cs : List Char) : Style :=
  if implicit && allowsPlain cs && !(key && cs.isEmpty) then .plain
  else if allowsSingle cs && !(key && cs.any isLineBreak) then .single
  else .double

/-- A text whose single spaces break overlong lines and whose line breaks are doubled, `quote`
spelling its characters. `previous` is the character before, none at the start. -/
def foldedBody (quote : Char → List Char) (indent : Nat) (split : Bool) :
    Option Char → Nat → List Char → List Char
  | _, _, [] => []
  | previous, column, c :: rest =>
    if c = ' ' then
      if split && width < column && previous.any (· != ' ') && rest.head?.any (· != ' ') then
        '\n' :: (spaces indent ++ foldedBody quote indent split (some c) indent rest)
      else
        ' ' :: foldedBody quote indent split (some c) (column + 1) rest
    else if c = '\n' then
      (if previous == some '\n' then ['\n'] else ['\n', '\n']) ++
        (if rest.head? == some '\n' then [] else spaces indent) ++
          foldedBody quote indent split (some c) indent rest
    else
      quote c ++ foldedBody quote indent split (some c) (column + (quote c).length) rest

/-- The spelling of a character within single quotes. -/
def singleQuote (c : Char) : List Char :=
  if c = '\'' then ['\'', '\''] else [c]

/-- A plain scalar. -/
def plainBody (column indent : Nat) (split : Bool) (cs : List Char) : List Char :=
  foldedBody (fun c => [c]) indent split none column cs

/-- A scalar within single quotes. -/
def singleBody (column indent : Nat) (split : Bool) (cs : List Char) : List Char :=
  '\'' :: (foldedBody singleQuote indent split none (column + 1) cs ++ ['\''])

/-- The characters that have an escape of their own, with its letter. -/
def escapes : List (Char × Char) :=
  [('\x00', '0'), ('\x07', 'a'), ('\x08', 'b'), ('\x09', 't'), ('\x0a', 'n'), ('\x0b', 'v'),
    ('\x0c', 'f'), ('\x0d', 'r'), ('\x1b', 'e'), ('"', '"'), ('\\', '\\'), ('\x85', 'N'),
    ('\xa0', '_'), ('\u2028', 'L'), ('\u2029', 'P')]

/-- The upper-case hexadecimal digits of a number, `width` of them. -/
def hexDigits (width n : Nat) : List Char :=
  let ds := (Nat.toDigits 16 n).map Char.toUpper
  List.replicate (width - ds.length) '0' ++ ds

/-- The escape of a character. -/
def escape (c : Char) : List Char :=
  match escapes.find? fun p => p.1 == c with
  | some (_, letter) => ['\\', letter]
  | none =>
    if c.toNat ≤ 0xFF then '\\' :: 'x' :: hexDigits 2 c.toNat
    else if c.toNat ≤ 0xFFFF then '\\' :: 'u' :: hexDigits 4 c.toNat
    else '\\' :: 'U' :: hexDigits 8 c.toNat

/-- Whether a character is escaped within double quotes. -/
def isEscaped (c : Char) : Bool :=
  c == '"' || c == '\\' || !(0x20 ≤ c.toNat && c.toNat ≤ 0x7E)

/-- A text within double quotes. A line past the width is broken after an escape, before a space, or
at once behind an escape; `fresh` tells that the last thing written was an escape or a break,
`first` that nothing was written yet. -/
def escapedBody (indent : Nat) (split : Bool) : (first fresh : Bool) → Nat → List Char → List Char
  | _, _, _, [] => []
  | first, fresh, column, c :: rest =>
    let mayBreak := split && !first && !rest.isEmpty
    if isEscaped c then
      let column := column + (escape c).length
      if mayBreak && width + 1 < column then
        if rest.head? == some ' ' then
          escape c ++ '\\' :: '\n' :: (spaces indent ++ '\\' ::
            escapedBody indent split false true (indent + 1) rest)
        else
          escape c ++ '\\' :: '\n' :: (spaces indent ++
            escapedBody indent split false true indent rest)
      else
        escape c ++ escapedBody indent split false true column rest
    else if mayBreak && (c == ' ' || fresh) && width < column then
      if c = ' ' then
        '\\' :: '\n' :: (spaces indent ++ '\\' :: c ::
          escapedBody indent split false false (indent + 2) rest)
      else
        '\\' :: '\n' :: (spaces indent ++ c ::
          escapedBody indent split false false (indent + 1) rest)
    else
      c :: escapedBody indent split false false (column + 1) rest

/-- A scalar within double quotes. -/
def doubleBody (column indent : Nat) (split : Bool) (cs : List Char) : List Char :=
  '"' :: (escapedBody indent split true true (column + 1) cs ++ ['"'])

/-- A scalar in a style. -/
def body (s : Style) (column indent : Nat) (split : Bool) (cs : List Char) : List Char :=
  match s with
  | .plain => plainBody column indent split cs
  | .single => singleBody column indent split cs
  | .double => doubleBody column indent split cs

/-- A key on the line of its colon is unbroken, unless it is within double quotes. -/
theorem style_key_unbroken {implicit : Bool} {cs : List Char}
    (h : style implicit true cs ≠ .double) :
    cs.any isLineBreak = false := by
  unfold style at h
  split at h
  · next h1 =>
    simp only [allowsPlain, Bool.and_eq_true, Bool.not_eq_true'] at h1
    exact h1.1.2.1.1.1.2
  · split at h
    · next h2 =>
      simp only [Bool.and_eq_true, Bool.not_eq_true', Bool.true_and] at h2
      exact h2.2
    · exact absurd rfl h

end RegistryBundle.Yaml.Scalar
