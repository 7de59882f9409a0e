import RegistryBundle.Proofs.Yaml.Typed
import RegistryBundle.Yaml.Node.OfValue

/-!
# Doubles on a page

The text of every double may stand plain, looks like a double and nothing else, and is read as one.

* `Exponent` and `Pointed` are the shapes of such texts (`pointed_digitsText`), made of the
  characters `doubleChars`;
* `Pointed.isFloat`, `Pointed.allowsPlain` and `Pointed.double` are the facts that matter;
* `doubleText_reads` puts them together.
-/

namespace RegistryBundle.Yaml

open Scalar

/-- What ends the text of a double: nothing, or an exponent with its sign. -/
inductive Exponent : List Char → Prop where
  | none : Exponent []
  | signed (negative : Bool) {ds : List Char} (hne : ds ≠ [])
  (hdigit : ∀ d ∈ ds, d.isDigit = true) :
      Exponent ('e' :: (if negative then '-' else '+') :: ds)

/-- The texts of doubles without their sign: digits around a point, and an exponent perhaps. -/
inductive Pointed : List Char → Prop where
  | mk (whole fraction : List Char) {exponent : List Char} (hne : whole ≠ [])
      (hwhole : ∀ d ∈ whole, d.isDigit = true)
      (hfraction : ∀ d ∈ fraction, d.isDigit = true) (hexponent : Exponent exponent) :
      Pointed (whole ++ '.' :: (fraction ++ exponent))

/-- Zeros and digits are digits. -/
theorem isDigit_zeros (n : Nat) {ds : List Char} (hdigit : ∀ d ∈ ds, d.isDigit = true) :
    ∀ d ∈ List.replicate n '0' ++ ds, d.isDigit = true := by
  rw [List.forall_mem_append]
  refine ⟨fun d hd => ?_, hdigit⟩
  rw [List.eq_of_mem_replicate hd]
  rfl

/-- Digits are written with a point. -/
theorem pointed_digitsText {f : FloatFormat} (hf : f.pointedMantissa = true) {ds : List Char}
    (hne : ds ≠ [])
    (hdigit : ∀ d ∈ ds, d.isDigit = true) (point : Int) :
      Pointed (Binary64.digitsText f ds point) := by
  unfold Binary64.digitsText
  split
  · next hpositional =>
    split
    · have hzeros := isDigit_zeros (-point).toNat hdigit
      simpa using Pointed.mk ['0'] _ (by simp) (List.forall_mem_singleton.mpr rfl) hzeros .none
    · next hpoint =>
      split
      · have hwhole : ∀ d ∈ ds ++ List.replicate (point - ds.length).toNat '0', d.isDigit =
            true := by
          rw [List.forall_mem_append]
          exact ⟨hdigit, by simp⟩
        simpa using Pointed.mk _ ['0'] (by simp [hne]) hwhole (List.forall_mem_singleton.mpr rfl)
          .none
      · next hlength =>
        have htake : ds.take point.toNat ≠ [] := by
          rw [Ne, List.take_eq_nil_iff, not_or]
          exact ⟨by omega, hne⟩
        simpa using Pointed.mk _ _ htake (fun d hd => hdigit d (List.mem_of_mem_take hd))
          (fun d hd => hdigit d (List.mem_of_mem_drop hd)) .none
  · -- The mantissa has one digit in front of its point.
    have hmagnitude : Exponent ('e' :: (if decide (point - 1 < 0) then '-' else '+') ::
        (List.replicate (2 - (Nat.toDigits 10 (point - 1).natAbs).length) '0' ++
          Nat.toDigits 10 (point - 1).natAbs)) :=
      .signed _ (by simp [Nat.toDigits_ne_nil]) (isDigit_zeros _ (digits_toDigits _).digit)
    simp only [decide_eq_true_eq] at hmagnitude
    obtain ⟨d, r, rfl⟩ := List.exists_cons_of_ne_nil hne
    obtain ⟨hd, hr⟩ := List.forall_mem_cons.mp hdigit
    cases r with
    | nil =>
        simpa [hf] using Pointed.mk [d] ['0'] (by simp) (by simpa using hd)
          (List.forall_mem_singleton.mpr rfl) hmagnitude
    | cons e r => simpa using Pointed.mk [d] _ (by simp) (by simpa using hd) hr hmagnitude

/-! ## Characters -/

/-- The digits are ten characters. -/
theorem mem_of_isDigit {c : Char} (h : c.isDigit = true) : c ∈ "0123456789".toList := by
  have hfinite : ∀ n < 10, Nat.digitChar n ∈ "0123456789".toList := by decide
  simp only [Char.isDigit, Bool.and_eq_true, decide_eq_true_eq] at h
  have hlow : 0x30 ≤ c.toNat := h.1
  have hhigh : c.toNat ≤ 0x39 := h.2
  have hc : Nat.digitChar (c.toNat - 0x30) = c := by
    apply Char.toNat_inj.mp
    rw [Nat.toNat_digitChar_of_lt_ten (by omega)]
    omega
  rw [← hc]
  exact hfinite _ (by omega)

/-- The characters of doubles. -/
def doubleChars : List Char :=
  "0123456789".toList ++ ".e+-".toList

private theorem mem_doubleChars_of_isDigit {c : Char} (h : c.isDigit = true) : c ∈ doubleChars :=
  List.mem_append_left _ (mem_of_isDigit h)

private theorem map_of_doubleChars {f : Char → Char}
    (hf : (doubleChars.all fun c => f c == c) = true)
    {cs : List Char}
    (h : ∀ c ∈ cs, c ∈ doubleChars) : cs.map f = cs :=
  (List.map_congr_left fun c hc => beq_iff_eq.mp (List.all_eq_true.mp hf c (h c hc))).trans
    (List.map_id cs)

private theorem filter_of_doubleChars {cs : List Char} (h : ∀ c ∈ cs, c ∈ doubleChars) :
    cs.filter (· != '_') = cs := by
  have hbar : doubleChars.all (· != '_') = true := by decide
  exact List.filter_eq_self.mpr fun c hc => List.all_eq_true.mp hbar c (h c hc)

theorem Exponent.mem_doubleChars {cs : List Char} (h : Exponent cs) {c : Char} (hc : c ∈ cs) :
    c ∈ doubleChars := by
  cases h with
  | none => exact absurd hc List.not_mem_nil
  | signed negative hne hdigit =>
      rcases List.mem_cons.mp hc with rfl | hc
      · decide
      · rcases List.mem_cons.mp hc with rfl | hc
        · cases negative <;> decide
        · exact mem_doubleChars_of_isDigit (hdigit c hc)

/-- It denotes some exponent. -/
theorem Exponent.exists_exponent? {cs : List Char} (h : Exponent cs) :
    ∃ e, Binary64.exponent? cs = some e := by
  cases h with
  | none => exact ⟨0, rfl⟩
  | @signed negative ds hne hdigit =>
      have hempty : ds.isEmpty = false := List.isEmpty_eq_false_iff.mpr hne
      have hall : ds.all Char.isDigit = true := List.all_eq_true.mpr hdigit
      cases negative <;> simp [Binary64.exponent?, Binary64.takeSign, hempty, hall]

namespace Pointed

variable {cs : List Char}

theorem mem_doubleChars (h : Pointed cs) {c : Char} (hc : c ∈ cs) : c ∈ doubleChars := by
  obtain ⟨whole, fraction, -, hwhole, hfraction, hexponent⟩ := h
  simp only [List.mem_append, List.mem_cons] at hc
  rcases hc with hc | rfl | hc | hc
  · exact mem_doubleChars_of_isDigit (hwhole c hc)
  · decide
  · exact mem_doubleChars_of_isDigit (hfraction c hc)
  · exact hexponent.mem_doubleChars hc

/-- A digit is in front. -/
theorem head (h : Pointed cs) : ∃ d es, cs = d :: es ∧ d.isDigit = true := by
  obtain ⟨whole, fraction, hne, hwhole, -, -⟩ := h
  obtain ⟨d, ds, rfl⟩ := List.exists_cons_of_ne_nil hne
  exact ⟨d, _, rfl, hwhole d List.mem_cons_self⟩

theorem unsigned (h : Pointed cs) (negative : Bool) :
    Implicit.unsigned (sign negative ++ cs) = cs ∧
      Binary64.takeSign (sign negative ++ cs) = (negative, cs) := by
  obtain ⟨d, es, rfl, hd⟩ := h.head
  cases negative with
  | true => exact ⟨rfl, rfl⟩
  | false =>
      have hminus : d ≠ '-' := ne_of_isDigit hd (by decide)
      have hplus : d ≠ '+' := ne_of_isDigit hd (by decide)
      simp [Implicit.unsigned, Binary64.takeSign, sign, hminus, hplus]

/-! ## Looks -/

/-- It looks like a double. -/
theorem isFloat (h : Pointed cs) (negative : Bool) :
    Implicit.isFloat .older (sign negative ++ cs) = true := by
  have hunsigned := (h.unsigned negative).1
  obtain @⟨whole, fraction, exponent, hne, hwhole, hfraction, hexponent⟩ := h
  have hbar : ∀ {ds : List Char}, (∀ d ∈ ds, d.isDigit = true) →
      ∀ d ∈ ds, Implicit.isDigitOrBar d = true :=
    fun hds d hd => by simp [Implicit.isDigitOrBar, hds d hd]
  have hpoint : Implicit.isDigitOrBar '.' = false := rfl
  have htake : (whole ++ '.' :: (fraction ++ exponent)).takeWhile Implicit.isDigitOrBar =
      whole := by
    rw [List.takeWhile_append_of_pos (hbar hwhole), List.takeWhile_cons_of_neg (by simp [hpoint]),
      List.append_nil]
  have hdrop : (whole ++ '.' :: (fraction ++ exponent)).dropWhile Implicit.isDigitOrBar =
      '.' :: (fraction ++ exponent) := by
    rw [List.dropWhile_append_of_pos (hbar hwhole), List.dropWhile_cons_of_neg (by simp [hpoint])]
  have hrun : Implicit.isDigitRun whole = true := by
    obtain ⟨d, ds, rfl⟩ := List.exists_cons_of_ne_nil hne
    obtain ⟨hd, hds⟩ := List.forall_mem_cons.mp hwhole
    rw [Implicit.isDigitRun, hd, List.all_eq_true.mpr (hbar hds)]
    rfl
  have hexponents : Implicit.isFraction false (fraction ++ exponent) = true := by
    rw [Implicit.isFraction, List.dropWhile_append_of_pos (hbar hfraction)]
    cases hexponent with
    | none => rfl
    | signed negative hne hdigit =>
        rw [List.dropWhile_cons_of_neg (by decide)]
        cases negative <;> simp [Implicit.isExponent, hne, List.all_eq_true.mpr hdigit]
  simp only [Implicit.isFloat, hunsigned, htake, hdrop, hrun, hexponents, Bool.and_self,
    Bool.true_or, Bool.or_true]

/-- It looks like nothing else. -/
theorem tag (h : Pointed cs) (negative : Bool) :
    Implicit.tag .older (sign negative ++ cs) = .float := by
  have hbool : Implicit.isBool .older (sign negative ++ cs) = false := by
    rw [Bool.eq_false_iff]
    intro hbool
    obtain ⟨word, hword, hcs⟩ := Implicit.isBool_iff.mp hbool
    have hopens : ((Implicit.boolWords .older).all fun word => word.toList.head?.all fun c =>
      !c.isDigit && c != '-') = true := by decide
    have hopen := List.all_eq_true.mp hopens word hword
    obtain ⟨d, es, rfl, hd⟩ := h.head
    rw [← hcs] at hopen
    cases negative with
    | true => simp [sign] at hopen
    | false => simp [sign, hd] at hopen
  rw [Implicit.tag, hbool, h.isFloat]
  rfl

/-- It may stand plain. -/
theorem allowsPlain (h : Pointed cs) (negative : Bool) :
    Scalar.allowsPlain (sign negative ++ cs) = true := by
  have hchars : (doubleChars.all fun c => isPlainChar c && !isLineBreak c) = true := by decide
  have hmem : ∀ c ∈ cs, c ∈ doubleChars := fun c hc => h.mem_doubleChars hc
  obtain ⟨d, es, rfl, hd⟩ := h.head
  have hes : ∀ c ∈ es, c ∈ doubleChars := fun c hc => hmem c (List.mem_cons_of_mem d hc)
  have hnotMem : ∀ {c : Char}, c ∉ doubleChars → c ∉ es := fun hc hm => hc (hes _ hm)
  exact allowsPlain_of_isDigit negative hd
    (fun c hc => by simpa using List.all_eq_true.mp hchars c (hes c hc))
    (fun heq => hnotMem (c := ' ') (by decide) (List.mem_of_getLast? heq))
    (innerIndicator_of_notMem (hnotMem (by decide)) (hnotMem (by decide)) d)

/-! ## Values -/

/-- It denotes some number. -/
theorem ofDigits? (h : Pointed cs) : ∃ x, Binary64.ofDigits? false cs = some x := by
  obtain @⟨whole, fraction, exponent, hne, hwhole, hfraction, hexponent⟩ := h
  obtain ⟨e, he⟩ := hexponent.exists_exponent?
  have htake : exponent.takeWhile Char.isDigit = [] ∧
      exponent.dropWhile Char.isDigit = exponent := by
    cases hexponent with
    | none => exact ⟨rfl, rfl⟩
    | signed => exact ⟨rfl, rfl⟩
  have hempty : whole.isEmpty = false := List.isEmpty_eq_false_iff.mpr hne
  have hpoint : ¬ '.'.isDigit = true := by decide
  simp only [Binary64.ofDigits?, List.takeWhile_append_of_pos hwhole,
    List.dropWhile_append_of_pos hwhole, List.takeWhile_cons_of_neg hpoint,
    List.dropWhile_cons_of_neg hpoint, List.takeWhile_append_of_pos hfraction,
    List.dropWhile_append_of_pos hfraction, htake.1, htake.2, he, hempty, List.append_nil,
    Bool.false_and, Bool.false_eq_true, if_false, Option.map_some]
  exact ⟨_, rfl⟩

/-- What begins with a digit is none of the words that do not. -/
private theorem ne_word (h : Pointed cs) (word : String)
    (hword : (word.toList.head?.all fun c => !c.isDigit) = true) :
    String.ofList cs ≠ word := by
  rintro rfl
  obtain ⟨d, es, rfl, hd⟩ := h.head
  simp [hd] at hword

/-- No underscore stands beside anything but a digit if there is none. -/
private theorem underscoresBetweenDigits_of_notMem (h : '_' ∉ cs) (digit : Bool) :
    Binary64.underscoresBetweenDigits digit cs = true := by
  induction cs generalizing digit with
  | nil => rfl
  | cons c cs ih =>
      rw [List.mem_cons, not_or] at h
      rw [Binary64.underscoresBetweenDigits, if_neg (Ne.symm h.1)]
      exact ih h.2 _

/-- It is read as a number. -/
theorem ofText? (h : Pointed cs) : ∃ x, Binary64.ofText? cs = some x := by
  have hmem : ∀ c ∈ cs, c ∈ doubleChars := fun c hc => h.mem_doubleChars hc
  have hblank : (doubleChars.all fun c => !Unicode.isBlank c) = true := by decide
  have htrim : Unicode.trim Unicode.isBlank cs = cs :=
    trim_of_all fun c hc => by simpa using List.all_eq_true.mp hblank c (hmem c hc)
  have hdigits : cs.map Unicode.asciiDigit = cs := map_of_doubleChars (by decide) hmem
  have hlower : cs.map Char.toLower = cs := map_of_doubleChars (by decide) hmem
  have hbar : '_' ∉ cs := fun hm => absurd (hmem '_' hm) (by decide)
  have hsign : Binary64.takeSign cs = (false, cs) := (h.unsigned false).2
  obtain ⟨x, hx⟩ := h.ofDigits?
  refine ⟨x, ?_⟩
  rw [Binary64.ofText?, htrim, hdigits, if_pos (underscoresBetweenDigits_of_notMem hbar false),
    filter_of_doubleChars hmem, hsign]
  simp only [hlower, h.ne_word "inf" (by decide), h.ne_word "infinity" (by decide),
    h.ne_word "nan" (by decide), decide_false, Bool.or_false, Bool.false_eq_true, if_false, hx]

/-- It is read as some double. -/
theorem double (h : Pointed cs) (negative : Bool) :
    ∃ x, ScalarText.double .older (sign negative ++ cs) = .ok x := by
  have hsigned : ∀ c ∈ sign negative ++ cs, c ∈ doubleChars := by
    rw [List.forall_mem_append]
    refine ⟨?_, fun c hc => h.mem_doubleChars hc⟩
    cases negative with
    | true => exact List.forall_mem_singleton.mpr (by decide)
    | false => exact nofun
  have hcolon : cs.contains ':' = false := by
    rw [List.contains_eq_mem, decide_eq_false_iff_not]
    exact fun hm => absurd (h.mem_doubleChars hm) (by decide)
  have hsign := (h.unsigned negative).2
  obtain ⟨x, hx⟩ := h.ofText?
  rw [ScalarText.double, filter_of_doubleChars hsigned, map_of_doubleChars (by decide) hsigned]
  split
  · next heq =>
    rw [heq] at hsign
    obtain ⟨d, es, rfl, -⟩ := h.head
    simp [Binary64.takeSign] at hsign
  · next c rest heq =>
    rw [heq] at hsign
    simp only [hsign, h.ne_word ".inf" (by decide), h.ne_word ".nan" (by decide), hcolon, if_false,
      Bool.and_false, Bool.false_eq_true, ScalarText.decimal, hx]
    exact ⟨_, rfl⟩

end Pointed

/-- **The text of a double** may stand plain, looks like a double, and is read as one. -/
theorem doubleText_reads (x : Binary64) : Scalar.allowsPlain (x.toText floatFormat) = true ∧
    x.toText floatFormat ≠ [] ∧ Implicit.tag .older (x.toText floatFormat) = .float ∧
      ∃ w : Value, ScalarText.value .older .float (x.toText floatFormat) = .ok w := by
  cases x with
  | nan => exact ⟨by decide, by decide, by decide, .float .nan, rfl⟩
  | infinite negative =>
      cases negative
      · exact ⟨by decide, by decide, by decide, .float (.infinite false), rfl⟩
      · exact ⟨by decide, by decide, by decide, .float (.infinite true), rfl⟩
  | finite negative m e =>
      obtain ⟨cs, hcs, htext⟩ : ∃ cs, Pointed cs ∧
          (Binary64.finite negative m e).toText floatFormat = sign negative ++ cs := by
        refine ⟨_, ?_, rfl⟩
        split
        · exact Pointed.mk ['0'] ['0'] (by simp) (List.forall_mem_singleton.mpr rfl)
            (List.forall_mem_singleton.mpr rfl)
            .none
        · exact pointed_digitsText rfl Nat.toDigits_ne_nil (digits_toDigits _).digit _
      rw [htext]
      obtain ⟨d, es, rfl, -⟩ := hcs.head
      obtain ⟨x, hx⟩ := hcs.double negative
      exact ⟨hcs.allowsPlain negative, by simp, hcs.tag negative,
        .float x, by rw [ScalarText.value, hx]; rfl⟩

end RegistryBundle.Yaml
