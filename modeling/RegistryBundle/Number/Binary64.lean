/-!
# Double-precision numbers

A double is kept as what it denotes: no number, an infinity, or a sign, a whole mantissa and a power
of two. Every operation is exact arithmetic on whole numbers followed by one rounding.

* `roundDiv n d` is the whole number nearest to `n / d`, a half going to the even neighbour
  (`roundDiv_mul_le`, `le_roundDiv_mul`: the distance is at most half of `d`);
* `Binary64.ofRatio` is the double nearest to a quotient, `Binary64.ofScientific` the
  one nearest to a decimal;
* `Binary64.compare` orders doubles by what they denote, and a NaN not at all.
-/

namespace RegistryBundle

-- `2 ^ e` is core's power (`instPowNat`) also where Mathlib is imported, which has one for monoids
-- (`NPow.toPow`).
attribute [local instance (high)] instPowNat

/-- The whole number nearest to `n / d`; a tie goes to the even neighbour. -/
def roundDiv (n d : Nat) : Nat :=
  let q := n / d
  let r := n % d
  if 2 * r < d then q else if d < 2 * r then q + 1 else q + q % 2

/-- The whole number is the one below the quotient, which is then at most a half
above it, or the one above. -/
private theorem roundDiv_cases (n d : Nat) :
    (roundDiv n d = n / d ∧ 2 * (n % d) ≤ d) ∨ (roundDiv n d = n / d + 1 ∧ d ≤ 2 * (n % d)) := by
  simp only [roundDiv]
  split
  · exact .inl ⟨rfl, by omega⟩
  · split
    · exact .inr ⟨rfl, by omega⟩
    · rcases Nat.mod_two_eq_zero_or_one (n / d) with h | h
      · exact .inl ⟨by rw [h, Nat.add_zero], by omega⟩
      · exact .inr ⟨by rw [h], by omega⟩

theorem le_roundDiv_mul (n d : Nat) (hd : 0 < d) : 2 * n ≤ 2 * (roundDiv n d * d) + d := by
  have hn := Nat.div_add_mod' n d
  have hr := Nat.mod_lt n hd
  rcases roundDiv_cases n d with ⟨heq, hhalf⟩ | ⟨heq, hhalf⟩ <;> rw [heq]
  · omega
  · rw [Nat.succ_mul (n / d) d]
    omega

theorem roundDiv_mul_le (n d : Nat) : 2 * (roundDiv n d * d) ≤ 2 * n + d := by
  have hn := Nat.div_add_mod' n d
  rcases roundDiv_cases n d with ⟨heq, hhalf⟩ | ⟨heq, hhalf⟩ <;> rw [heq]
  · omega
  · rw [Nat.succ_mul (n / d) d]
    omega

/-- A double: not a number, an infinity, or plus or minus `mantissa * 2 ^ exponent`. -/
inductive Binary64 where
  | nan
  | infinite (negative : Bool)
  | finite (negative : Bool) (mantissa : Nat) (exponent : Int)
deriving DecidableEq, Repr

namespace Binary64

/-- Whether `n / d` is at least `2 ^ k`. -/
def atLeastPowTwo (n d : Nat) (k : Int) : Bool :=
  if 0 ≤ k then d * 2 ^ k.toNat ≤ n else d ≤ n * 2 ^ (-k).toNat

/-- The double nearest to `n / d`, with the given sign: 53 bits of mantissa, the exponent not below
-1074, and an infinity from `2 ^ 1024` on. -/
def ofRatio (negative : Bool) (n d : Nat) : Binary64 :=
  if n = 0 then
    .finite negative 0 0
  else
    let k : Int := (n.log2 : Int) - d.log2
    let top := if atLeastPowTwo n d k then k else k - 1
    let e := max (top - 52) (-1074)
    let m := if 0 ≤ e then roundDiv n (d * 2 ^ e.toNat) else roundDiv (n * 2 ^ (-e).toNat) d
    if m = 0 then .finite negative 0 0
    else if m = 2 ^ (53 : Nat) then
      if 970 < e then .infinite negative else .finite negative (2 ^ (52 : Nat)) (e + 1)
    else if 971 < e then .infinite negative
    else .finite negative m e

/-- The double nearest to `digits * 10 ^ exponent`; a decimal far outside the range of doubles is an
infinity or zero without its power of ten being computed. -/
def ofScientific (negative : Bool) (digits : Nat) (exponent : Int) : Binary64 :=
  if digits = 0 then .finite negative 0 0
  else if 400 < exponent then .infinite negative
  else if exponent + (digits.log2 / 3 + 1 : Nat) < -400 then .finite negative 0 0
  else if 0 ≤ exponent then ofRatio negative (digits * 10 ^ exponent.toNat) 1
  else ofRatio negative digits (10 ^ (-exponent).toNat)

/-- The signed numerator and the denominator of a finite double. -/
def toRatio (negative : Bool) (mantissa : Nat) (exponent : Int) : Int × Nat :=
  let n := if 0 ≤ exponent then mantissa * 2 ^ exponent.toNat else mantissa
  let d := if 0 ≤ exponent then 1 else 2 ^ (-exponent).toNat
  (if negative then -(n : Int) else n, d)

/-- The double nearest to a signed quotient. -/
def ofIntRatio (n : Int) (d : Nat) : Binary64 :=
  ofRatio (n < 0) n.natAbs d

/-- The double nearest to a whole number. -/
def ofInt (n : Int) : Binary64 :=
  ofIntRatio n 1

/-- The whole number a double denotes, if it denotes one. -/
def toInt? : Binary64 → Option Int
  | .finite negative m e =>
    let (n, d) := toRatio negative m e
    if n % d = 0 then some (n / d) else none
  | _ => none

/-- Whether a double denotes the number zero. -/
def isZero : Binary64 → Bool
  | .finite _ m _ => m == 0
  | _ => false

/-- Whether a double is a number at all and not infinite. -/
def isFinite : Binary64 → Bool
  | .finite .. => true
  | _ => false

/-- The order of two doubles by what they denote; none where one of them is a NaN. -/
def compare : Binary64 → Binary64 → Option Ordering
  | .nan, _ => none
  | _, .nan => none
  | .infinite s, .infinite t => some (Ord.compare t s)
  | .infinite s, .finite .. => some (if s then .lt else .gt)
  | .finite .., .infinite s => some (if s then .gt else .lt)
  | .finite s m e, .finite t n f =>
    let (a, b) := toRatio s m e
    let (c, d) := toRatio t n f
    some (Ord.compare (a * d) (c * b))

/-- The opposite of a double. -/
def neg : Binary64 → Binary64
  | .nan => .nan
  | .infinite s => .infinite (!s)
  | .finite s m e => .finite (!s) m e

/-- The rounded sum of two finite doubles, by the rules of signed zeros and infinities. -/
def add : Binary64 → Binary64 → Binary64
  | .nan, _ => .nan
  | _, .nan => .nan
  | .infinite s, .infinite t => if s = t then .infinite s else .nan
  | .infinite s, .finite .. => .infinite s
  | .finite .., .infinite s => .infinite s
  | .finite s m e, .finite t n f =>
    let (a, b) := toRatio s m e
    let (c, d) := toRatio t n f
    let total := a * d + c * b
    if total = 0 then .finite (s && t) 0 0 else ofIntRatio total (b * d)

/-- The rounded product of a double and a positive whole number. -/
def scale : Binary64 → Nat → Binary64
  | .finite s m e, k =>
    let (n, d) := toRatio s m e
    ofRatio s (n.natAbs * k) d
  | x, _ => x

end Binary64

end RegistryBundle
