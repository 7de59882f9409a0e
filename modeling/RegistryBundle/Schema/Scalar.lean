import RegistryBundle.Number.Numeral
import RegistryBundle.Schema.Checked

/-!
# Scalars of a schema

What counts as a text, a whole number or a truth value. A text may be given by its octets; a
whole number by a truth value, a double without a fraction or a numeral; a truth value by
one and zero or by a word.

* `Schema.text`, `Schema.whole`, `Schema.truth` check a value.
-/

namespace RegistryBundle.Schema

-- The bounds of 64 bits are powers by core's `instPowNat`; Mathlib would find them in a monoid
-- (`NPow.toPow`).
attribute [local instance (high)] instPowNat

/-- The text that octets encode. -/
def decoded (b : ByteArray) : Option String :=
  String.fromUTF8? b

/-- A text, or the octets of one. -/
def text {A : Alphabet} {τ : Type} [TextOver A τ] (v : Value A) : Checked τ :=
  match v.bare with
  | .str s => .fits (TextOver.ofString s)
  | .broken h t => .fits (TextOver.ofBroken h t)
  | .bytes b =>
    match decoded b with
    | some s => .fits (TextOver.ofString s)
    | none => .issue .textEncoding
  | _ => .issue .textExpected

/-- Digits with at most single underscores between them. -/
def digitGroups (cs : List Char) : Bool :=
  cs.head?.any Char.isDigit && Binary64.underscoresBetweenDigits false cs &&
    cs.all fun c => c.isDigit || c == '_'

/-- A fraction that is zero: nothing, or a point and zeros. -/
def isZeroFraction : List Char → Bool
  | [] => true
  | c :: r => c == '.' && !r.isEmpty && r.all (· == '0')

/-- A numeral of a whole number: a sign, digits and a fraction that is zero,
with white space around. -/
def numeral (cs : List Char) : Checked Int :=
  let (negative, body) := Binary64.takeSign (Unicode.trim Unicode.isWhiteSpace cs)
  let digits := body.takeWhile (· != '.')
  if digitGroups digits && isZeroFraction (body.dropWhile (· != '.')) then
    let n := Nat.ofDigitChars 10 (digits.filter (· != '_')) 0
    if (Nat.toDigits 10 n).length ≤ maxDigits then .fits (if negative then -(n : Int) else n)
    else .issue .wholeTooLarge
  else .issue .wholeUnreadable

/-- A double without a fraction, strictly between the ends of the signed words of 64 bits. -/
def wholeOfDouble (x : Binary64) : Checked Int :=
  if x.isFinite then
    match x.toInt? with
    | none => .issue .wholeFromFraction
    | some n => if -(2 ^ (63 : Nat)) < n ∧ n < 2 ^ (63 :
        Nat) then .fits n else .issue .wholeTooLarge
  else .issue .notFinite

/-- A whole number. -/
def whole (v : Value) : Checked Int :=
  match v.bare with
  | .int n => .fits n
  | .bool b => .fits (if b then 1 else 0)
  | .float x => wholeOfDouble x
  | .str s => numeral s.toList
  | .bytes b =>
    match decoded b with
    | some s => numeral s.toList
    | none => .issue .wholeUnreadable
  | _ => .issue .wholeExpected

/-- A truth value by its word, in any case. -/
def truthWord (s : String) : Checked Bool :=
  let word := String.ofList (s.toList.map Char.toLower)
  if ["1", "t", "y", "on", "yes", "true"].contains word then .fits true
  else if ["0", "f", "n", "off", "no", "false"].contains word then .fits false
  else .issue .truthUnreadable

/-- A truth value by a number: one or zero. -/
def truthNumber (n : Int) : Checked Bool :=
  if n = 1 then .fits true else if n = 0 then .fits false else .issue .truthUnreadable

/-- A truth value. -/
def truth (v : Value) : Checked Bool :=
  match v.bare with
  | .bool b => .fits b
  | .str s => truthWord s
  | .bytes b =>
    match decoded b with
    | some s => truthWord s
    | none => .issue .truthUnreadable
  | .int n => if -(2 ^ (63 : Nat)) ≤ n ∧ n < 2 ^ (63 :
      Nat) then truthNumber n else .issue .truthExpected
  | .float x =>
    match wholeOfDouble x with
    | .fits n => truthNumber n
    | .issues _ => .issue .truthExpected
  | _ => .issue .truthExpected

@[simp] theorem text_str (s : String) : text (.str s : Value) = .fits s := rfl

@[simp] theorem whole_int (n : Int) : whole (.int n) = .fits n := rfl

@[simp] theorem truth_bool (b : Bool) : truth (.bool b) = .fits b := rfl

end RegistryBundle.Schema
