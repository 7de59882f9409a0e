import RegistryBundle.Json
import RegistryBundle.Text.LetterCase
import RegistryBundle.Value.Text

/-!
# Conversions of settings

A setting is given as a text; a conversion turns that text, or the value of another setting, into a
value of the kind that is wanted.

* `Conversion.ofWord?` knows a conversion by its word;
* `Conversion.apply` converts a value, if it can be converted.
-/

namespace RegistryBundle

/-- What a value is turned into. -/
inductive Conversion where
  | text
  | whole
  | double
  | truth
  /-- The value that a text holds in the notation of JSON. -/
  | json
  | lower
  | upper
  | title
  | capital
  | folded
  | swapped
  | strip
  | stripStart
  | stripEnd
  /-- The list of the parts between blanks. -/
  | split
deriving DecidableEq, Repr

namespace Conversion

/-- The conversions by their words. -/
def words : List (String × Conversion) :=
  [("@str", text), ("@int", whole), ("@float", double), ("@bool", truth), ("@json", json),
    ("@lower", lower), ("@upper", upper), ("@title", title), ("@capitalize", capital),
    ("@casefold", folded), ("@swapcase", swapped), ("@strip", strip), ("@lstrip", stripStart),
    ("@rstrip", stripEnd), ("@split", split)]

/-- The words that mean true, in lower case. -/
def trueWords : List String :=
  ["t", "true", "enabled", "1", "on", "yes"]

/-- The whole number of a value: a fraction is cut off. -/
def wholeOf? : Value → Option Int
  | .str s => Numeral.ofText? 10 s.toList
  | .int n => some n
  | .bool b => some (if b then 1 else 0)
  | .float (.finite negative m e) =>
    let (n, d) := Binary64.toRatio negative m e
    some (n.tdiv d)
  | _ => none

/-- The double of a value. -/
def doubleOf? : Value → Option Binary64
  | .str s => Binary64.ofText? s.toList
  | .int n => some (.ofInt n)
  | .bool b => some (.ofInt (if b then 1 else 0))
  | .float x => some x
  | _ => none

/-- What a text is mapped to; none for conversions of other values. -/
def textMap? : Conversion → Option (List Char → List Char)
  | lower => some LetterCase.lowerText
  | upper => some LetterCase.upperText
  | title => some LetterCase.titleText
  | capital => some LetterCase.capitalText
  | folded => some LetterCase.foldedText
  | swapped => some LetterCase.swappedText
  | strip => some (Unicode.trim Unicode.isBlank)
  | stripStart => some (List.dropWhile Unicode.isBlank)
  | stripEnd => some (Unicode.trimEnd Unicode.isBlank)
  | _ => none

/-- A value converted; none if it cannot be. -/
def convert? (c : Conversion) (v : Value) : Option Value :=
  match c, v with
  | text, v => v.text?.map .str
  | whole, v => (wholeOf? v).map .int
  | double, v => (doubleOf? v).map .float
  | truth, v => v.text?.map fun s =>
      .bool (trueWords.contains (String.ofList (LetterCase.lowerText s.toList)))
  | json, .str s => Json.value? s.toList
  | split, .str s =>
      some (.list ((Unicode.words Unicode.isBlank s.toList).map fun w => .str (String.ofList w)))
  | c, .str s => c.textMap?.map fun f => .str (String.ofList (f s.toList))
  | _, _ => none

theorem convert?_text_str (s : String) : text.convert? (.str s) = some (.str s) := rfl

end Conversion

end RegistryBundle
