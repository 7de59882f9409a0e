import RegistryBundle.Number.Numeral
import RegistryBundle.Text.Reading
import RegistryBundle.Value.Basic
import RegistryBundle.Yaml.Chars

/-!
# JSON documents

A text in the notation of JSON, in which the numbers `NaN`, `Infinity` and
`-Infinity` occur as well.

* `Json.value?` reads the value of a text; a text that holds none, or more than one, is none;
* `Json.objects` finds the objects in any text.
-/

namespace RegistryBundle.Json

open Reading (Taken)

/-- A blank between two parts of a document. -/
def isSpace (c : Char) : Bool :=
  c == ' ' || c == '\t' || c == '\n' || c == '\r'

/-- A text without the blanks at its front. -/
def skipSpace (cs : List Char) : List Char :=
  cs.dropWhile isSpace

/-- A number of four hexadecimal digits. -/
def codeUnit (cs : List Char) : Option (Taken Nat) :=
  let ds := cs.take 4
  if ds.length = 4 ∧ ds.all Yaml.Chars.isHex then some (Yaml.Chars.ofHex ds, cs.drop 4) else none

/-- The character of one code unit, or of two where the first is the upper half of a pair. -/
def codedChar (cs : List Char) : Option (Taken Char) := do
  let (high, rest) ← codeUnit cs
  if 0xD800 ≤ high ∧ high < 0xDC00 then
    let (low, rest) ← codeUnit (← Reading.after? 'u' (← Reading.after? '\\' rest))
    if 0xDC00 ≤ low ∧ low < 0xE000 then
      return (← Reading.char? (0x10000 + (high - 0xD800) * 0x400 + (low - 0xDC00)), rest)
    else none
  else return (← Reading.char? high, rest)

/-- The character behind a backslash. -/
def escape : List Char → Option (Taken Char)
  | '"' :: rest => some ('"', rest)
  | '\\' :: rest => some ('\\', rest)
  | '/' :: rest => some ('/', rest)
  | 'b' :: rest => some ('\x08', rest)
  | 'f' :: rest => some ('\x0c', rest)
  | 'n' :: rest => some ('\n', rest)
  | 'r' :: rest => some ('\r', rest)
  | 't' :: rest => some ('\t', rest)
  | 'u' :: rest => codedChar rest
  | _ => none

/-- The rest of a string, up to its closing quote. -/
def string : Nat → List Char → Option (Taken (List Char))
  | 0, _ => none
  | _, [] => none
  | _, '"' :: rest => some ([], rest)
  | fuel + 1, '\\' :: rest => do
    let (c, rest) ← escape rest
    let (more, rest) ← string fuel rest
    return (c :: more, rest)
  | fuel + 1, c :: rest =>
    if c.toNat < 0x20 then none
    else do
      let (more, rest) ← string fuel rest
      return (c :: more, rest)

/-- The digits at the front of a text. -/
def digits (cs : List Char) : Taken (List Char) :=
  (cs.takeWhile Char.isDigit, cs.dropWhile Char.isDigit)

/-- The whole part of a number: zero, or digits that begin with another. -/
def wholePart : List Char → Option (Taken (List Char))
  | '0' :: rest => some (['0'], rest)
  | cs => if (digits cs).1.isEmpty then none else some (digits cs)

/-- A point and digits, if they are there. -/
def fractionPart : List Char → Taken (List Char)
  | '.' :: rest => if (digits rest).1.isEmpty then ([], '.' :: rest) else ('.' :: (digits rest).1,
      (digits rest).2)
  | cs => ([], cs)

/-- A sign of an exponent, if it is there. -/
def signPart : List Char → Taken (List Char)
  | '+' :: rest => (['+'], rest)
  | '-' :: rest => (['-'], rest)
  | cs => ([], cs)

/-- An exponent, if it is there. -/
def exponentPart : List Char → Taken (List Char)
  | [] => ([], [])
  | e :: rest =>
    let (sign, body) := signPart rest
    let (ds, left) := digits body
    if (e = 'e' || e = 'E') && !ds.isEmpty then ('e' :: (sign ++ ds), left) else ([], e :: rest)

/-- A number: a whole one unless it has a fraction or an exponent. -/
def number (cs : List Char) : Option (Taken Value) := do
  let (sign, body) := match cs with
    | '-' :: rest => (['-'], rest)
    | rest => ([], rest)
  let (whole, rest) ← wholePart body
  let (fraction, rest) := fractionPart rest
  let (exponent, rest) := exponentPart rest
  if fraction.isEmpty && exponent.isEmpty then
    return (.int (← Numeral.ofText? 10 (sign ++ whole)), rest)
  else
    return (.float (← Binary64.ofText? (sign ++ whole ++ fraction ++ exponent)), rest)

/-- The values that have a word, by their words. -/
def words : List (String × Value) :=
  [("null", .null), ("true", .bool true), ("false", .bool false), ("NaN", .float .nan),
    ("Infinity", .float (.infinite false)), ("-Infinity", .float (.infinite true))]

/-- A value that has a word. -/
def word (cs : List Char) : Option (Taken Value) :=
  (words.find? fun w => w.1.toList.isPrefixOf cs).map fun w => (w.2, cs.drop w.1.length)

mutual

/-- A value at the front of a text. -/
def value : Nat → List Char → Option (Taken Value)
  | 0, _ => none
  | fuel + 1, cs =>
    match cs with
    | '"' :: rest => (string (rest.length + 1) rest).map fun s => (.str (String.ofList s.1), s.2)
    | '[' :: rest =>
      match skipSpace rest with
      | ']' :: rest => some (.list [], rest)
      | rest => (items fuel rest).map fun vs => (.list vs.1, vs.2)
    | '\x7b' :: rest =>
      match skipSpace rest with
      | '\x7d' :: rest => some (.map [], rest)
      | rest => (entries fuel rest).map fun es => (.map (Value.ofList es.1), es.2)
    | cs => (word cs).or (number cs)

/-- The items of an array and its end. -/
def items : Nat → List Char → Option (Taken (List Value))
  | 0, _ => none
  | fuel + 1, cs => do
    let (v, rest) ← value fuel (skipSpace cs)
    match skipSpace rest with
    | ',' :: rest =>
      let (vs, rest) ← items fuel rest
      return (v :: vs, rest)
    | ']' :: rest => return ([v], rest)
    | _ => none

/-- The entries of an object and its end. -/
def entries : Nat → List Char → Option (Taken Entries)
  | 0, _ => none
  | fuel + 1, cs => do
    let rest ← Reading.after? '"' (skipSpace cs)
    let (key, rest) ← string (rest.length + 1) rest
    let rest ← Reading.after? ':' (skipSpace rest)
    let (v, rest) ← value fuel (skipSpace rest)
    let e := (Value.str (String.ofList key), v)
    match skipSpace rest with
    | ',' :: rest =>
      let (es, rest) ← entries fuel rest
      return (e :: es, rest)
    | '\x7d' :: rest => return ([e], rest)
    | _ => none

end

/-- The value that a text holds. -/
def value? (cs : List Char) : Option Value := do
  let (v, rest) ← value (cs.length + 1) (skipSpace cs)
  if (skipSpace rest).isEmpty then return v else none

/-- The objects in a text, from the first brace on that begins one; `fuel`
bounds the places to look at. -/
def objectsFrom : Nat → List Char → List Value
  | 0, _ => []
  | _, [] => []
  | fuel + 1, c :: rest =>
    if c = '\x7b' then
      match value (rest.length + 2) (c :: rest) with
      | some (v, left) => v :: objectsFrom fuel left
      | none => objectsFrom fuel rest
    else objectsFrom fuel rest

/-- The objects in a text, none of them inside another. -/
def objects (cs : List Char) : List Value :=
  objectsFrom cs.length cs

end RegistryBundle.Json
