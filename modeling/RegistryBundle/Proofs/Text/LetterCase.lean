import RegistryBundle.Text.LetterCase

/-!
# Letters without look-alikes

The lower form of a character outside ASCII is outside ASCII, but for two letters: the sign of the
kelvin has the lower form `k`, and that of `İ` begins with `i`.

* `LetterCase.exists_cons_lowerBetween` is the step, for one character between others;
* `LetterCase.lowerText_eq_iff`: a word with neither of the two letters is the lower form of the
  same texts in all scripts and in ASCII alone.
-/

namespace RegistryBundle.LetterCase

variable {c : Char} {cs word : List Char}

/-- A letter of ASCII that is the lower form of no character outside ASCII, or its beginning. -/
def IsApart (c : Char) : Prop :=
  isAscii c = true ∧ c ≠ 'k' ∧ c ≠ 'i'

instance (c : Char) : Decidable (IsApart c) := by
  unfold IsApart
  infer_instance

/-- The counterparts in a row are outside ASCII, or the row is that of the sign of the kelvin. -/
def KeepsApart (r : Nat × Nat × Nat × Int) : Prop :=
  r = (0x212A, 0x212A, 1, -8383) ∨
    128 ≤ (r.1 : Int) + r.2.2.2 ∧
      ((r.2.1 : Int) + r.2.2.2 < 0xD800 ∨ 0xDFFF < (r.1 : Int) + r.2.2.2 ∧
        (r.2.1 : Int) + r.2.2.2 < 0x110000)

instance (r : Nat × Nat × Nat × Int) : Decidable (KeepsApart r) := by
  unfold KeepsApart
  infer_instance

private theorem keepsApart_of_mem_lowerRows : ∀ r ∈ lowerRows, KeepsApart r := by decide +kernel

/-- What stands in the rows. -/
theorem rowTarget?_lowerRows {n : Nat} {target : List Char}
    (h : rowTarget? lowerRows n = some target) :
    ∃ d, target = [d] ∧ ¬IsApart d := by
  obtain ⟨r, hr, rfl⟩ := Option.map_eq_some_iff.mp h
  have hin := List.find?_some hr
  simp only [Bool.and_eq_true, decide_eq_true_eq, beq_iff_eq] at hin
  obtain ⟨⟨hfirst, hlast⟩, -⟩ := hin
  refine ⟨_, rfl, fun hapart => ?_⟩
  rcases keepsApart_of_mem_lowerRows r (List.mem_of_find?_eq_some hr) with rfl | ⟨hlow, hhigh⟩
  · obtain rfl : n = 0x212A := Nat.le_antisymm hlast hfirst
    exact hapart.2.1 rfl
  · have hvalid : ((n : Int) + r.2.2.2).toNat.isValidChar := by
      rcases hhigh with hhigh | ⟨hhigh, hhigh'⟩
      · exact .inl (by omega)
      · exact .inr ⟨by omega, by omega⟩
    have hascii : (Char.ofNat ((n : Int) + r.2.2.2).toNat).toNat < 128 := of_decide_eq_true hapart.1
    rw [Char.ofNat, dif_pos hvalid] at hascii
    have hcode : ((n : Int) + r.2.2.2).toNat < 128 := hascii
    omega

private theorem expansion?_lowerExpansions {n : Nat} {target : List Char}
    (h : expansion? lowerExpansions n = some target) :
    ∃ d rest, target = d :: rest ∧ ¬IsApart d := by
  obtain ⟨codes, hcodes, rfl⟩ := Option.map_eq_some_iff.mp h
  rw [lowerExpansions, List.lookup_cons, List.lookup_nil] at hcodes
  split at hcodes
  · obtain rfl := Option.some.inj hcodes
    exact ⟨_, _, rfl, by decide⟩
  · contradiction

/-- **The lower form of a character outside ASCII** begins with a character outside ASCII, or with
one of the two letters. -/
theorem exists_cons_lowerBetween (h : isAscii c = false) (before after : List Char) :
    ∃ d rest, lowerBetween before after c = d :: rest ∧ ¬IsApart d := by
  have hself : ¬IsApart c := fun hapart => Bool.false_ne_true (h.symm.trans hapart.1)
  unfold lowerBetween
  split
  · split
    · exact ⟨_, _, rfl, by decide⟩
    · exact ⟨_, _, rfl, by decide⟩
  · rw [lower, h, if_neg Bool.false_ne_true]
    cases hrow : rowTarget? lowerRows c.toNat with
    | some target =>
        obtain ⟨d, rfl, hd⟩ := rowTarget?_lowerRows hrow
        exact ⟨d, [], rfl, hd⟩
    | none =>
        cases hexpansion : expansion? lowerExpansions c.toNat with
        | some target => exact expansion?_lowerExpansions hexpansion
        | none => exact ⟨c, [], rfl, hself⟩

private theorem lowerBetween_of_ascii (h : isAscii c = true) (before after : List Char) :
    lowerBetween before after c = [c.toLower] := by
  have hsigma : c ≠ 'Σ' := by
    rintro rfl
    exact absurd h (by decide)
  rw [lowerBetween, if_neg hsigma, lower_of_ascii h]

/-- Outside ASCII no character has a lower form in ASCII alone. -/
theorem toLower_of_not_ascii (h : isAscii c = false) : c.toLower = c := by
  have hcode : 128 ≤ c.val.toNat := Nat.le_of_not_lt (of_decide_eq_false h)
  have hletter : ¬(65 ≤ c.val ∧ c.val ≤ 90) := by
    rintro ⟨-, hz⟩
    have hz' : c.val.toNat ≤ 90 := UInt32.le_iff_toNat_le.mp hz
    omega
  exact dif_neg hletter

/-- **A word without the two letters** is the lower form of the same texts, in all
scripts or in ASCII alone. -/
theorem lowerText_eq_iff (hword : ∀ d ∈ word, IsApart d) :
    lowerText cs = word ↔ cs.map Char.toLower = word := by
  rw [lowerText]
  generalize [] = before
  induction cs generalizing word before with
  | nil => rfl
  | cons c rest ih =>
      rw [mapBetween, List.map_cons]
      cases h : isAscii c with
      | true =>
          rw [lowerBetween_of_ascii h, List.singleton_append]
          cases word with
          | nil => simp
          | cons d word =>
              rw [List.cons.injEq, List.cons.injEq,
                ih fun e he => hword e (List.mem_cons_of_mem d he)]
      | false =>
          obtain ⟨d, more, hlower, hd⟩ := exists_cons_lowerBetween h before rest
          rw [hlower, toLower_of_not_ascii h]
          -- A text that begins outside ASCII has no lower form that is such a word.
          refine iff_of_false (fun heq => hd (hword d ?_)) (fun heq => ?_)
          · rw [← heq]
            exact List.mem_cons_self
          · have hc : c ∈ word := by
              rw [← heq]
              exact List.mem_cons_self
            exact Bool.false_ne_true (h.symm.trans (hword c hc).1)

/-- The sign of the kelvin is why the two letters are left out. -/
example : lowerText ['\u212A'] = ['k'] ∧ ['\u212A'].map Char.toLower ≠ ['k'] := by decide

end RegistryBundle.LetterCase
