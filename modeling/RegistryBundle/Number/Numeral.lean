import RegistryBundle.Number.Decimal

/-!
# Numerals of whole numbers

A whole number is read from digits to a base, in any script, with a sign and blanks around it.

* `Numeral.ofText?` reads one; decimal numerals have at most `maxDigits` digits.
-/

namespace RegistryBundle

/-- The most digits that a decimal text of a whole number may have. -/
def maxDigits : Nat := 4300

namespace Numeral

/-- The value of a digit, letters counting from ten. -/
def digit? (c : Char) : Option Nat :=
  match Unicode.digitValue? c with
  | some v => some v
  | none =>
    if 'a' ≤ c && c ≤ 'z' then some (c.toNat - 'a'.toNat + 10)
    else if 'A' ≤ c && c ≤ 'Z' then some (c.toNat - 'A'.toNat + 10)
    else none

/-- The number that digits to a base denote. -/
def ofDigits? (base : Nat) (cs : List Char) : Option Nat :=
  if cs.isEmpty then none
  else
    cs.foldlM (fun n c => do
      let v ← digit? c
      if v < base then some (n * base + v) else none) 0

/-- The letters that mark a base. -/
def marks (base : Nat) : List Char :=
  if base = 2 then ['b', 'B'] else if base = 8 then ['o', 'O'] else if base = 16 then ['x', 'X']
    else []

/-- The digits without the mark of their base. -/
def withoutMark (base : Nat) : List Char → List Char
  | '0' :: c :: rest => if (marks base).contains c then rest else '0' :: c :: rest
  | cs => cs

/-- The whole number that a text denotes. -/
def ofText? (base : Nat) (cs : List Char) : Option Int :=
  let (negative, body) := Binary64.takeSign (Unicode.trim Unicode.isBlank cs)
  if base = 10 && maxDigits < body.length then none
  else (ofDigits? base (withoutMark base body)).map fun n => if negative then -(n : Int) else n

end Numeral

end RegistryBundle
