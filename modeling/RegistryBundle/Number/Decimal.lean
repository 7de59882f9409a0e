import RegistryBundle.Number.Binary64
import RegistryBundle.Text.Unicode

/-!
# Decimal texts of doubles

A double is written with the fewest digits that read back as itself, and of those the
nearest; the point is placed among them while the number is of ordinary size, and an
exponent is written otherwise.

* `Binary64.shortest` finds the digits, by testing on ever finer decimal grids the two
  neighbours of the number;
* `Binary64.toText` writes them, in a `FloatFormat`;
* `Binary64.ofText?` reads any decimal text.
-/

namespace RegistryBundle

-- Powers of ten are those of core (`instPowNat`); Mathlib would read `^` as the power of a monoid
-- (`NPow.toPow`).
attribute [local instance (high)] instPowNat

/-- The largest power of ten that `n / d` reaches. -/
def floorLogTen (n d : Nat) : Int :=
  let estimate : Int := ((n.log2 : Int) - d.log2) * 30103 / 100000
  let reaches (t : Int) : Bool :=
    if 0 ≤ t then d * 10 ^ t.toNat ≤ n else d ≤ n * 10 ^ (-t).toNat
  if reaches (estimate + 1) then estimate + 1 else if reaches estimate then estimate
    else estimate - 1

/-- Trailing zeros of the digits moved to the exponent, at most `fuel` of them. -/
def dropZeros : Nat → Nat × Int → Nat × Int
  | 0, x => x
  | fuel + 1, (c, k) => if c % 10 = 0 then dropZeros fuel (c / 10, k + 1) else (c, k)

namespace Binary64

/-- The interval of numbers that round to a double, in units of `1 / den`: its ends, its middle, and
whether the ends belong to it. -/
structure Rounding where
  low : Nat
  middle : Nat
  high : Nat
  den : Nat
  closed : Bool

/-- The interval that rounds to `m * 2 ^ e`: half a step to each side, a
quarter below a power of two. -/
def rounding (m : Nat) (e : Int) : Rounding :=
  let num := if 2 ≤ e then 2 ^ (e - 2).toNat else 1
  let low := if m = 2 ^ (52 : Nat) ∧ -1074 < e then 4 * m - 1 else 4 * m - 2
  { low := low * num
    middle := 4 * m * num
    high := (4 * m + 2) * num
    den := if 2 ≤ e then 1 else 2 ^ (2 - e).toNat
    closed := m % 2 == 0 }

/-- The point of the grid of multiples of `10 ^ k` that lies in the interval, the nearer of two, the
even one of two as near. -/
def Rounding.gridPoint? (r : Rounding) (k : Int) : Option Nat :=
  let up := if 0 ≤ k then 10 ^ k.toNat else 1
  let down := if 0 ≤ k then 1 else 10 ^ (-k).toNat
  let c := r.middle * down / (r.den * up)
  let inside (x : Nat) : Bool :=
    let y := x * (r.den * up)
    if r.closed then r.low * down ≤ y && y ≤ r.high * down else r.low * down < y && y <
      r.high * down
  let below := r.middle * down - c * (r.den * up)
  let above := (c + 1) * (r.den * up) - r.middle * down
  if inside c then
    if inside (c + 1) && (above < below || (above == below && c % 2 == 1)) then some (c + 1)
      else some c
  else if inside (c + 1) then some (c + 1)
  else none

/-- The fewest digits `c` and the exponent `k` such that `c * 10 ^ k` reads back as `m * 2 ^ e`. -/
def shortest (m : Nat) (e : Int) : Nat × Int :=
  let r := rounding m e
  let top := floorLogTen r.middle r.den
  let found := (List.range 17).findSome? fun (i : Nat) =>
    let k := top - i
    (r.gridPoint? k).map fun c => (c, k)
  dropZeros 17 (found.getD (0, 0))

end Binary64

/-- How a double is spelt where digits alone do not say it. -/
structure FloatFormat where
  /-- The text of a NaN. -/
  nan : String
  /-- The text of the positive infinity. -/
  infinity : String
  /-- Whether a mantissa of one digit takes `.0` before its exponent. -/
  pointedMantissa : Bool

namespace Binary64

/-- The digits `ds` of `0.ds * 10 ^ point`: positional from `10 ^ -4` up to `10 ^ 16`, with an
exponent of at least two digits otherwise. -/
def digitsText (f : FloatFormat) (ds : List Char) (point : Int) : List Char :=
  let zeros (n : Int) := List.replicate n.toNat '0'
  if -4 < point ∧ point ≤ 16 then
    if point ≤ 0 then '0' :: '.' :: (zeros (-point) ++ ds)
    else if ds.length ≤ point then ds ++ zeros (point - ds.length) ++ ['.', '0']
    else ds.take point.toNat ++ '.' :: ds.drop point.toNat
  else
    let e := point - 1
    let mantissa := match ds with
      | [d] => if f.pointedMantissa then [d, '.', '0'] else [d]
      | d :: r => d :: '.' :: r
      | [] => []
    let magnitude := Nat.toDigits 10 e.natAbs
    mantissa ++ 'e' :: (if e < 0 then '-' else '+') ::
      (List.replicate (2 - magnitude.length) '0' ++ magnitude)

/-- The text of a double. -/
def toText (f : FloatFormat) : Binary64 → List Char
  | .nan => f.nan.toList
  | .infinite s => (if s then ['-'] else []) ++ f.infinity.toList
  | .finite s m e =>
    let body :=
      if m = 0 then ['0', '.', '0']
      else
        let (c, k) := shortest m e
        let ds := Nat.toDigits 10 c
        digitsText f ds (ds.length + k)
    (if s then ['-'] else []) ++ body

/-- The spelling of doubles in messages. -/
def plainFormat : FloatFormat := ⟨"nan", "inf", false⟩

/-- Whether every underscore stands between two digits; `digit` tells whether one precedes. -/
def underscoresBetweenDigits : Bool → List Char → Bool
  | _, [] => true
  | digit, c :: r =>
    if c = '_' then digit && r.head?.any Char.isDigit && underscoresBetweenDigits false r
    else underscoresBetweenDigits c.isDigit r

/-- A sign, if there is one, and the rest. -/
def takeSign : List Char → Bool × List Char
  | '-' :: r => (true, r)
  | '+' :: r => (false, r)
  | r => (false, r)

/-- The exponent that ends a decimal text. -/
def exponent? : List Char → Option Int
  | [] => some 0
  | c :: r =>
    if c = 'e' || c = 'E' then
      let (negative, ds) := takeSign r
      if !ds.isEmpty && ds.all Char.isDigit then
        let n := Nat.ofDigitChars 10 ds 0
        some (if negative then -(n : Int) else n)
      else none
    else none

/-- The double that a sequence of digits, with a point and an exponent, denotes. -/
def ofDigits? (negative : Bool) (cs : List Char) : Option Binary64 :=
  let whole := cs.takeWhile Char.isDigit
  let rest := cs.dropWhile Char.isDigit
  let (fraction, rest) := match rest with
    | '.' :: r => (r.takeWhile Char.isDigit, r.dropWhile Char.isDigit)
    | r => ([], r)
  if whole.isEmpty && fraction.isEmpty then none
  else
    (exponent? rest).map fun e =>
      ofScientific negative (Nat.ofDigitChars 10 (whole ++ fraction) 0) (e - fraction.length)

/-- The double that a decimal text denotes: blanks around it, digits of any script, single
underscores between digits, and the words for infinity and NaN in any case. -/
def ofText? (cs : List Char) : Option Binary64 :=
  let cs := (Unicode.trim Unicode.isBlank cs).map Unicode.asciiDigit
  if underscoresBetweenDigits false cs then
    let (negative, body) := takeSign (cs.filter (· != '_'))
    let word := String.ofList (body.map Char.toLower)
    if word = "inf" || word = "infinity" then some (.infinite negative)
    else if word = "nan" then some .nan
    else ofDigits? negative body
  else none

end Binary64

end RegistryBundle
