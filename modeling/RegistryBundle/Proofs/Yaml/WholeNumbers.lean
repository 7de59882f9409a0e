import RegistryBundle.Proofs.Outcome
import RegistryBundle.Value.Text
import RegistryBundle.Yaml.Node.ToValue
import RegistryBundle.Yaml.Scalar

/-!
# Whole numbers on a page

The decimal digits of a whole number stand plain, look like a whole number and nothing else, and are
read as the number.

* `Decimal` are such texts: a sign perhaps, and digits of which the first is not zero
  unless it is the only one;
* `decimal_intText`: the text of every whole number is one;
* `Decimal.tag`, `Decimal.allowsPlain`, `Decimal.whole` are the three facts.
-/

namespace RegistryBundle.Yaml

open Scalar

/-- The digits of a number without a sign: no zero in front of others. -/
structure Digits (ds : List Char) : Prop where
  ne : ds ≠ []
  digit : ∀ c ∈ ds, c.isDigit = true
  first : ds = ['0'] ∨ ds.head? ≠ some '0'

/-- The digits of a number begin with no zero, but for zero itself. -/
theorem digits_toDigits (n : Nat) : Digits (Nat.toDigits 10 n) where
  ne := Nat.toDigits_ne_nil
  digit := fun _ hc => Nat.isDigit_of_mem_toDigits (by omega) (by omega) hc
  first := by
    induction n using Nat.strongRecOn with
    | ind n ih =>
      by_cases hn : n < 10
      · rw [Nat.toDigits_of_lt_base hn]
        have : ∀ d < 10, [Nat.digitChar d] = ['0'] ∨ [Nat.digitChar d].head? ≠ some '0' := by decide
        exact this n hn
      · rw [Nat.toDigits_of_base_le (by omega) (by omega)]
        have hne : Nat.toDigits 10 (n / 10) ≠ [] := Nat.toDigits_ne_nil
        refine .inr ?_
        rcases ih (n / 10) (by omega) with hz | hz
        · -- The digits in front of the last are not zero.
          have hzero : n / 10 = 0 := by
            rw [← Nat.ofDigitChars_ten_toDigits (n := n / 10), hz]
            rfl
          omega
        · cases hds : Nat.toDigits 10 (n / 10) with
          | nil => exact absurd hds hne
          | cons c cs =>
              rw [hds] at hz
              simpa using hz

/-- A digit is none of the characters that are not. -/
theorem ne_of_isDigit {c d : Char} (hc : c.isDigit = true) (hd : d.isDigit = false) : c ≠ d := by
  intro heq
  subst heq
  rw [hc] at hd
  exact Bool.noConfusion hd

theorem Digits.notMem {ds : List Char} (h : Digits ds) {c : Char} (hc : c.isDigit = false) :
    c ∉ ds := fun hm =>
  ne_of_isDigit (h.digit c hm) hc rfl

/-- A text without a separator is one part. -/
theorem fields_of_notMem {separator : Char} {cs : List Char} (h : separator ∉ cs) :
    Reading.fields separator cs = [cs] := by
  induction cs with
  | nil => rfl
  | cons c cs ih =>
      rw [List.mem_cons, not_or] at h
      rw [Reading.fields, ih h.2]
      simp [Ne.symm h.1]

private theorem dropWhile_of_all {test : Char → Bool} {cs : List Char}
    (h : ∀ c ∈ cs, test c = true) :
    cs.dropWhile test = [] := by
  induction cs with
  | nil => rfl
  | cons c cs ih =>
      rw [List.dropWhile_cons_of_pos (h c List.mem_cons_self)]
      exact ih fun d hd => h d (List.mem_cons_of_mem c hd)

/-- Digits, behind a sign if the number is negative. -/
structure Decimal (negative : Bool) (ds cs : List Char) : Prop where
  digits : Digits ds
  eq : cs = (if negative then ['-'] else []) ++ ds

/-- The text of a whole number. -/
theorem decimal_intText (n : Int) :
    Decimal (decide (n < 0)) (Nat.toDigits 10 n.natAbs) (intText n) :=
  ⟨digits_toDigits n.natAbs, by simp [intText]⟩

section

variable {negative : Bool} {ds cs : List Char}

/-- The first character of such a text. -/
theorem Decimal.head (h : Decimal negative ds cs) :
    ∃ c rest, cs = c :: rest ∧ (c.isDigit = true ∨ c = '-') := by
  obtain ⟨d, es, hds⟩ := List.exists_cons_of_ne_nil h.digits.ne
  cases negative with
  | true => exact ⟨'-', ds, h.eq, .inr rfl⟩
  | false =>
      refine ⟨d, es, by rw [h.eq, hds]; rfl, .inl ?_⟩
      exact h.digits.digit d (by simp [hds])

/-- All its characters. -/
theorem Decimal.mem (h : Decimal negative ds cs) {c : Char} (hc : c ∈ cs) :
    c.isDigit = true ∨ c = '-' := by
  rw [h.eq] at hc
  rcases List.mem_append.mp hc with hc | hc
  · cases negative with
    | true => exact .inr (by simpa using hc)
    | false => exact absurd hc List.not_mem_nil
  · exact .inl (h.digits.digit c hc)

theorem Decimal.unsigned (h : Decimal negative ds cs) :
    Implicit.unsigned cs = ds ∧ Binary64.takeSign cs = (negative, ds) := by
  rw [h.eq]
  cases negative with
  | true => exact ⟨rfl, rfl⟩
  | false =>
      obtain ⟨d, es, rfl⟩ := List.exists_cons_of_ne_nil h.digits.ne
      have hd := h.digits.digit d List.mem_cons_self
      have hminus : d ≠ '-' := ne_of_isDigit hd (by decide)
      have hplus : d ≠ '+' := ne_of_isDigit hd (by decide)
      simp [Implicit.unsigned, Binary64.takeSign, hminus, hplus]

/-- It is none of the words that begin otherwise. -/
theorem Decimal.not_contains (h : Decimal negative ds cs) {words : List String}
    (hw : (words.all fun w => w.toList.head?.all fun c => !c.isDigit && c != '-') = true) :
    words.contains (String.ofList cs) = false := by
  obtain ⟨c, rest, hcs, hc⟩ := h.head
  rw [List.contains_eq_mem, decide_eq_false_iff_not]
  intro hm
  have hopens : (!c.isDigit && c != '-') = true := by simpa [hcs] using List.all_eq_true.mp hw _ hm
  obtain ⟨hdigit, hminus⟩ : c.isDigit = false ∧ c ≠ '-' := by simpa using hopens
  rcases hc with hc | hc
  · rw [hc] at hdigit
    exact Bool.noConfusion hdigit
  · exact hminus hc

/-- It looks like a whole number. -/
theorem Decimal.isInt (h : Decimal negative ds cs) : Implicit.isInt .older cs = true := by
  obtain ⟨d, es, rfl⟩ := List.exists_cons_of_ne_nil h.digits.ne
  simp only [Implicit.isInt, h.unsigned.1, Bool.or_eq_true, beq_iff_eq]
  rcases h.digits.first with hz | hz
  · exact .inl (.inl (.inr hz))
  · refine .inl (.inr ?_)
    have hall : es.all Implicit.isDigitOrBar = true := by
      rw [List.all_eq_true]
      intro c hc
      simp [Implicit.isDigitOrBar, h.digits.digit c (List.mem_cons_of_mem d hc)]
    have hd : d ≠ '0' := by simpa using hz
    simp [Implicit.isNonZeroRun, h.digits.digit d List.mem_cons_self, hd, hall]

/-- It looks like no double. -/
theorem Decimal.isFloat (h : Decimal negative ds cs) : Implicit.isFloat .older cs = false := by
  have hrest : ds.dropWhile Implicit.isDigitOrBar = [] := by
    apply dropWhile_of_all
    intro c hc
    simp [Implicit.isDigitOrBar, h.digits.digit c hc]
  have hbody : Decimal false ds ds := ⟨h.digits, rfl⟩
  have hinfinity : Implicit.isInfinity ds = false := hbody.not_contains (by decide)
  have hnan : [".nan", ".NaN", ".NAN"].contains (String.ofList cs) = false :=
    h.not_contains (by decide)
  have hfields : Reading.fields ':' ds = [ds] := fields_of_notMem (h.digits.notMem (by decide))
  have hbody : Implicit.unsigned cs = ds := h.unsigned.1
  obtain ⟨c, rest, rfl, hc⟩ := h.head
  have hpoint : c ≠ '.' := by
    intro heq
    subst heq
    exact absurd hc (by decide)
  simp only [Implicit.isFloat, hbody, hinfinity, hnan, hrest, hfields, Bool.false_or, Bool.or_false]
  split
  · next heq => exact absurd (List.cons.inj heq).1 hpoint
  · rfl

theorem Decimal.tag (h : Decimal negative ds cs) : Implicit.tag .older cs = .int := by
  have hbool : Implicit.isBool .older cs = false := h.not_contains (by decide)
  simp [Implicit.tag, hbool, h.isFloat, h.isInt]

/-- A digit or a minus sign is written plain. -/
private theorem isPlainChar_of_digit {c : Char} (hc : c.isDigit = true ∨ c = '-') :
    isPlainChar c = true ∧ isLineBreak c = false := by
  rcases hc with hc | rfl
  · have hnot : ∀ {d : Char}, d.isDigit = false → c ≠ d := fun hd => ne_of_isDigit hc hd
    simp only [Char.isDigit, Bool.and_eq_true, decide_eq_true_eq] at hc
    have hlow : 0x30 ≤ c.toNat := hc.1
    have hhigh : c.toNat ≤ 0x39 := hc.2
    refine ⟨?_, ?_⟩
    · simp only [isPlainChar, Bool.or_eq_true, Bool.and_eq_true, decide_eq_true_eq]
      omega
    · simp [isLineBreak, hnot (d := '\n') (by decide), hnot (d := '\x85') (by decide),
        hnot (d := '\u2028') (by decide), hnot (d := '\u2029') (by decide)]
  · decide

/-- Without a colon and a number sign no indicator stands inside a text. -/
theorem innerIndicator_of_notMem {cs : List Char} (hcolon : ':' ∉ cs) (hcomment : '#' ∉ cs)
    (previous : Char) :
    innerIndicator previous cs = false := by
  induction cs generalizing previous with
  | nil => rfl
  | cons c cs ih =>
      rw [List.mem_cons, not_or] at hcolon hcomment
      simp [innerIndicator, Ne.symm hcolon.1, Ne.symm hcomment.1, ih hcolon.2 hcomment.2]

/-- A digit is no indicator at the front of a text. -/
private theorem leadingIndicator_of_isDigit {d : Char} (hd : d.isDigit = true) (es : List Char) :
    leadingIndicator d es = false := by
  have hnot : ∀ {c : Char}, c.isDigit = false → d ≠ c := fun hc => ne_of_isDigit hd hc
  have hwords : ("#,[]\x7b\x7d&*!|>'\"%@\x60".toList.all fun c => !c.isDigit) = true := by decide
  have hlist : ("#,[]\x7b\x7d&*!|>'\"%@\x60".toList.contains d) = false := by
    rw [List.contains_eq_mem, decide_eq_false_iff_not]
    intro hm
    exact hnot (by simpa using List.all_eq_true.mp hwords d hm) rfl
  rw [leadingIndicator, hlist]
  simp [hnot (c := '?') (by decide), hnot (c := ':') (by decide), hnot (c := '-') (by decide)]

/-- No boundary is in front of a digit. -/
theorem boundary_of_isDigit {d : Char} (hd : d.isDigit = true) (es : List Char) :
    boundary (d :: es) = false := by
  have hnot : ∀ {c : Char}, c.isDigit = false → d ≠ c := fun hc => ne_of_isDigit hd hc
  simp [boundary, Chars.isBlank, Chars.isBreak, hnot (c := '\x00') (by decide),
    hnot (c := ' ') (by decide), hnot (c := '\t') (by decide), hnot (c := '\r') (by decide),
    hnot (c := '\n') (by decide), hnot (c := '\x85') (by decide), hnot (c := '\u2028') (by decide),
    hnot (c := '\u2029') (by decide)]

/-- Neither is a minus sign in front of a digit. -/
private theorem leadingIndicator_minus {d : Char} (hd : d.isDigit = true) (es : List Char) :
    leadingIndicator '-' (d :: es) = false := by
  rw [leadingIndicator, boundary_of_isDigit hd]
  decide

/-- No indicator stands in a text that begins with a digit, or with a minus sign and a digit, unless
one stands further inside. -/
private theorem hasIndicator_of_isDigit {d : Char} {es : List Char} (negative : Bool)
    (hd : d.isDigit = true)
    (hinner : innerIndicator d es = false) :
      hasIndicator ((if negative then ['-'] else []) ++ d :: es) = false := by
  have hcolon : d ≠ ':' := ne_of_isDigit hd (by decide)
  have hcomment : d ≠ '#' := ne_of_isDigit hd (by decide)
  have hminus : d ≠ '-' := ne_of_isDigit hd (by decide)
  have hpoint : d ≠ '.' := ne_of_isDigit hd (by decide)
  cases negative with
  | true =>
      change hasIndicator ('-' :: d :: es) = false
      have hmark : isDocumentMark ('-' :: d :: es) = false := by simp [isDocumentMark, hminus]
      rw [hasIndicator, hmark, leadingIndicator_minus hd]
      simp [innerIndicator, hcolon, hcomment, hinner]
  | false =>
      change hasIndicator (d :: es) = false
      have hmark : isDocumentMark (d :: es) = false := by simp [isDocumentMark, hminus, hpoint]
      rw [hasIndicator, hmark, leadingIndicator_of_isDigit hd, hinner]
      rfl

/-- **A text that begins like a number** may stand plain if it is one line of printable characters,
its last one no space, and no indicator stands further inside. -/
theorem allowsPlain_of_isDigit {d : Char} {es : List Char} (negative : Bool) (hd : d.isDigit = true)
    (hes : ∀ c ∈ es, isPlainChar c = true ∧ isLineBreak c = false) (hlast : es.getLast? ≠ some ' ')
    (hinner : innerIndicator d es = false) :
      allowsPlain ((if negative then ['-'] else []) ++ d :: es) = true := by
  have hindicator := hasIndicator_of_isDigit negative hd hinner
  have hall : ∀ c ∈ (if negative then ['-'] else []) ++ d :: es, isPlainChar c = true ∧
      isLineBreak c = false := by
    rw [List.forall_mem_append, List.forall_mem_cons]
    refine ⟨fun c hc => isPlainChar_of_digit (.inr ?_), isPlainChar_of_digit (.inl hd), hes⟩
    cases negative with
    | true => exact List.mem_singleton.mp hc
    | false => exact absurd hc List.not_mem_nil
  have hspace : d ≠ ' ' := ne_of_isDigit hd (by decide)
  have hend : (d :: es).getLast? ≠ some ' ' := by
    rw [List.getLast?_cons]
    cases hes : es.getLast? with
    | none => simpa using hspace
    | some c => simpa [hes] using hlast
  have hhead : ((if negative then ['-'] else []) ++ d :: es).head? ≠ some ' ' := by
    cases negative <;> simp [hspace]
  have htail : ((if negative then ['-'] else []) ++ d :: es).getLast? ≠ some ' ' := by
    cases negative <;> simpa using hend
  have hplain : (((if negative then ['-'] else []) ++ d :: es).all isPlainChar) = true :=
    List.all_eq_true.mpr fun c hc => (hall c hc).1
  have hbreak : (((if negative then ['-'] else []) ++ d :: es).any isLineBreak) = false :=
    List.any_eq_false.mpr fun c hc => by simp [(hall c hc).2]
  rw [allowsPlain, hplain, hbreak, hindicator, bne_iff_ne.mpr hhead, bne_iff_ne.mpr htail]
  rfl

/-- It may stand plain: behind the sign there is a digit. -/
theorem Decimal.allowsPlain (h : Decimal negative ds cs) :
    Scalar.allowsPlain cs = true ∧ cs ≠ [] := by
  obtain ⟨d, es, rfl⟩ := List.exists_cons_of_ne_nil h.digits.ne
  have hdigit : ∀ c ∈ d :: es, c.isDigit = true := h.digits.digit
  have hes : ∀ c ∈ es, c.isDigit = true := fun c hc => hdigit c (List.mem_cons_of_mem d hc)
  have hnotMem : ∀ {c : Char}, c.isDigit = false → c ∉ es :=
    fun hc hm => ne_of_isDigit (hes _ hm) hc rfl
  rw [h.eq]
  have hprinted : ∀ c ∈ es, isPlainChar c = true ∧ isLineBreak c = false := fun c hc =>
    isPlainChar_of_digit (.inl (hes c hc))
  refine ⟨allowsPlain_of_isDigit negative (hdigit d List.mem_cons_self) hprinted
    (fun heq => hnotMem (c := ' ') (by decide) (List.mem_of_getLast? heq))
    (innerIndicator_of_notMem (hnotMem (by decide)) (hnotMem (by decide)) d), by simp⟩

/-- The number that digits denote. -/
private theorem ofDigits?_ten (h : Digits ds) :
    Numeral.ofDigits? 10 ds = some (Nat.ofDigitChars 10 ds 0) := by
  have hfold : ∀ (es : List Char) (n : Nat), (∀ c ∈ es, c.isDigit = true) →
      es.foldlM (fun n c => do
        let v ← Numeral.digit? c
        if v < 10 then some (n * 10 + v) else none) n = some (Nat.ofDigitChars 10 es n) := by
    intro es
    induction es with
    | nil => intro n _; rfl
    | cons c es ih =>
        intro n hes
        have hc : c.isDigit = true := hes c List.mem_cons_self
        have hdigit : Numeral.digit? c = some (c.toNat - 0x30) := by
          rw [Numeral.digit?, Unicode.digitValue?_of_isDigit hc]
        have hlt : c.toNat - 0x30 < 10 := by
          simp only [Char.isDigit, Bool.and_eq_true, decide_eq_true_eq] at hc
          have : c.toNat ≤ 0x39 := hc.2
          omega
        have hstep : (do
            let v ← Numeral.digit? c
            if v < 10 then some (n * 10 + v) else none) = some (n * 10 + (c.toNat - 0x30)) := by
          rw [hdigit]
          exact if_pos hlt
        rw [List.foldlM_cons, hstep, Nat.ofDigitChars_cons, Nat.mul_comm 10 n]
        exact ih _ fun d hd => hes d (List.mem_cons_of_mem c hd)
  have hne : ds.isEmpty = false := by simpa using h.ne
  rw [Numeral.ofDigits?, hne]
  exact hfold ds 0 h.digit

/-- A text without blanks has none at its ends. -/
theorem trim_of_all {blank : Char → Bool} {cs : List Char} (h : ∀ c ∈ cs, blank c = false) :
    Unicode.trim blank cs = cs := by
  have hdrop : ∀ es : List Char, (∀ c ∈ es, c ∈ cs) → es.dropWhile blank = es := by
    intro es hes
    cases es with
    | nil => rfl
    | cons c es => simp [h c (hes c List.mem_cons_self)]
  rw [Unicode.trim, hdrop cs fun _ hc => hc, Unicode.trimEnd,
    hdrop cs.reverse fun c hc => List.mem_reverse.mp hc, List.reverse_reverse]

/-- Digits alone are read as the number they denote. -/
private theorem ofText?_ten (h : Digits ds) (hl : ds.length ≤ maxDigits) :
    Numeral.ofText? 10 ds = some (Nat.ofDigitChars 10 ds 0 : Int) := by
  have hblank : ∀ c ∈ ds, Unicode.isBlank c = false := by
    intro c hc
    have hdigit := h.digit c hc
    simp only [Char.isDigit, Bool.and_eq_true, decide_eq_true_eq] at hdigit
    have hlow : 0x30 ≤ c.toNat := hdigit.1
    have hhigh : c.toNat ≤ 0x39 := hdigit.2
    simp only [Unicode.isBlank, Bool.or_eq_false_iff, Bool.and_eq_false_iff,
      decide_eq_false_iff_not, beq_eq_false_iff_ne]
    omega
  have htrim : Unicode.trim Unicode.isBlank ds = ds := trim_of_all hblank
  have hdecimal : Decimal false ds ds := ⟨h, rfl⟩
  have hsign : Binary64.takeSign ds = (false, ds) := hdecimal.unsigned.2
  have hmark : Numeral.withoutMark 10 ds = ds := by
    unfold Numeral.withoutMark
    split <;> simp [Numeral.marks]
  have hlong : ¬ maxDigits < ds.length := by omega
  simp only [Numeral.ofText?, htrim, hsign, hmark, ofDigits?_ten h, hlong]
  simp

/-- It is read as the number. -/
theorem Decimal.whole (h : Decimal negative ds cs) (hl : ds.length ≤ maxDigits) :
    ScalarText.whole .older cs =
      .ok (if negative then -(Nat.ofDigitChars 10 ds 0 : Int) else Nat.ofDigitChars 10 ds 0) := by
  have hbars : cs.filter (· != '_') = cs := by
    rw [List.filter_eq_self]
    intro c hc
    rcases h.mem hc with hd | rfl
    · simpa using ne_of_isDigit hd (by decide)
    · rfl
  have hbased : ScalarText.based negative 10 ds =
      .ok (if negative then -(Nat.ofDigitChars 10 ds 0 : Int) else Nat.ofDigitChars 10 ds 0) := by
    rw [ScalarText.based, ofText?_ten h.digits hl]
  have hsign := h.unsigned.2
  obtain ⟨c, rest, hcs, -⟩ := h.head
  obtain ⟨d, es, hds⟩ := List.exists_cons_of_ne_nil h.digits.ne
  have hcolon : ds.contains ':' = false := by
    rw [List.contains_eq_mem, decide_eq_false_iff_not]
    exact h.digits.notMem (by decide)
  rw [ScalarText.whole, hbars]
  subst hcs
  subst hds
  simp only [hsign]
  by_cases hz : d :: es = ['0']
  · rw [hz]
    cases negative <;> rfl
  · have hd : d ≠ '0' := by
      rcases h.digits.first with hf | hf
      · exact absurd hf hz
      · simpa using hf
    have hzero : ∀ rest : List Char, d :: es ≠ '0' :: rest := fun _ he => hd (List.cons.inj he).1
    split
    · next heq => exact absurd heq (by simp)
    · next heq => exact absurd heq hz
    · next heq => exact absurd heq (hzero _)
    · next heq => exact absurd heq (hzero _)
    · next first ds' _ _ _ heq =>
      obtain ⟨rfl, rfl⟩ := List.cons.inj heq
      simp only [hd, if_false, hcolon, hbased]
      rfl

end

/-- The text of a whole number may stand plain, looks like a whole number,
and is read as the number. -/
theorem intText_reads (n : Int) (hn : (Nat.toDigits 10 n.natAbs).length ≤ maxDigits) :
    Scalar.allowsPlain (intText n) = true ∧ intText n ≠ [] ∧
      Implicit.tag .older (intText n) = .int ∧
      ScalarText.value .older .int (intText n) = .ok (.int n : Value) := by
  have h := decimal_intText n
  have hvalue : (if decide (n < 0) then -(n.natAbs : Int) else n.natAbs) = n := by
    by_cases hneg : n < 0
    · simp only [hneg, decide_true, if_true]
      omega
    · simp only [hneg, decide_false, Bool.false_eq_true, if_false]
      omega
  refine ⟨h.allowsPlain.1, h.allowsPlain.2, h.tag, ?_⟩
  rw [ScalarText.value, h.whole hn, Nat.ofDigitChars_ten_toDigits, hvalue]
  rfl

end RegistryBundle.Yaml
