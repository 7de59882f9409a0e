import RegistryBundle.Proofs.Yaml.Timestamps
import RegistryBundle.Proofs.Yaml.WholeNumbers

/-!
# Texts that look like values of other types

Which texts of letters, digits and hyphens the reader takes for something else when they stand
without quotes: whole numbers to four bases, the words for truth values and for null, and dates.

* `Hyphenated` are texts of letters, digits and hyphens;
* `WholeNumber` are the spellings of whole numbers, `Typed` all texts that look like something else;
* `Implicit.tag_ne_str_iff`: a text looks like something else exactly if it is one of these;
* `ScalarText.value_ne_str`: none of them is read as a text.
-/

namespace RegistryBundle

namespace Yaml

/-- A text of letters, digits and hyphens. -/
def Hyphenated (cs : List Char) : Prop :=
  ∀ c ∈ cs, (c.isAlphanum || c == '-') = true

theorem Hyphenated.notMem {cs : List Char} (h : Hyphenated cs) {c : Char}
    (hc : (c.isAlphanum || c == '-') = false) :
    c ∉ cs := fun hm => Bool.false_ne_true (hc.symm.trans (h c hm))

/-- The sign of a number: a hyphen in front of a negative one. -/
def sign (negative : Bool) : List Char :=
  if negative then ['-'] else []

/-- The spellings of a whole number without its sign, to four bases. -/
inductive WholeNumber : List Char → Prop where
  | decimal {ds : List Char} (h : Digits ds) : WholeNumber ds
  | octal {ds : List Char} (hne : ds ≠ []) (h : ∀ d ∈ ds, '0' ≤ d ∧ d ≤ '7') :
      WholeNumber ('0' :: ds)
  | binary {ds : List Char} (hne : ds ≠ []) (h : ∀ d ∈ ds, d = '0' ∨ d = '1') :
      WholeNumber ('0' :: 'b' :: ds)
  | hexadecimal {ds : List Char} (hne : ds ≠ []) (h : ∀ d ∈ ds, Chars.isHex d = true) :
      WholeNumber ('0' :: 'x' :: ds)

/-- The texts of letters, digits and hyphens that look like something other than a text. -/
inductive Typed : List Char → Prop where
  | number (negative : Bool) {body : List Char} (h : WholeNumber body) :
      Typed (sign negative ++ body)
  | truth {word : String} (h : word ∈ Implicit.boolWords .older) : Typed word.toList
  | null {word : String} (h : word ∈ ["null", "Null", "NULL"]) : Typed word.toList
  | date {year month day : List Char} (hdigit : ∀ c ∈ year ++ month ++ day, c.isDigit = true)
      (hyear : year.length = 4) (hmonth : month.length = 2) (hday : day.length = 2) :
      Typed (year ++ '-' :: (month ++ '-' :: day))

namespace Implicit

variable {cs : List Char}

/-! ## Numbers -/

/-- Such a text is a sign, if it has one, and what stands behind it. -/
theorem exists_sign (h : Hyphenated cs) : ∃ negative, cs = sign negative ++ unsigned cs := by
  have hplus : '+' ∉ cs := h.notMem (by decide)
  cases cs with
  | nil => exact ⟨false, rfl⟩
  | cons c rest =>
      by_cases hminus : c = '-'
      · subst hminus
        exact ⟨true, rfl⟩
      · have hne : c ≠ '+' := fun heq => hplus (by simp [heq])
        exact ⟨false, by simp [unsigned, sign, hminus, hne]⟩

private theorem mem_of_mem_unsigned {c : Char} (hc : c ∈ unsigned cs) : c ∈ cs := by
  unfold unsigned at hc
  split at hc
  · exact List.mem_cons_of_mem _ hc
  · exact List.mem_cons_of_mem _ hc
  · exact hc

/-- What is a number without a sign begins with a digit. -/
theorem unsigned_sign {body : List Char} (h : WholeNumber body) (negative : Bool) :
    unsigned (sign negative ++ body) = body := by
  have hhead : ∃ d ds, body = d :: ds ∧ d.isDigit = true := by
    cases h with
    | decimal h =>
        obtain ⟨d, ds, rfl⟩ := List.exists_cons_of_ne_nil h.ne
        exact ⟨d, ds, rfl, h.digit d List.mem_cons_self⟩
    | octal => exact ⟨_, _, rfl, rfl⟩
    | binary => exact ⟨_, _, rfl, rfl⟩
    | hexadecimal => exact ⟨_, _, rfl, rfl⟩
  obtain ⟨d, ds, rfl, hd⟩ := hhead
  cases negative with
  | true => rfl
  | false =>
      have hminus : d ≠ '-' := ne_of_isDigit hd (by decide)
      have hplus : d ≠ '+' := ne_of_isDigit hd (by decide)
      simp [unsigned, sign, hminus, hplus]

/-- Without underscores a number to a marked base consists of the digits of its base. -/
theorem wholeNumber_of_isBased {body : List Char} (hbar : '_' ∉ body)
    (h : isBased .older body = true) :
    WholeNumber body := by
  have hdigits : ∀ {ds : List Char} {test : Char → Bool}, (∀ d ∈ ds, d ∈ body) →
      (ds.all fun c => test c || c == '_') = true → ∀ d ∈ ds, test d = true := by
    intro ds test hsub hall d hd
    have hne : d ≠ '_' := fun heq => hbar (heq ▸ hsub d hd)
    simpa [hne] using List.all_eq_true.mp hall d hd
  unfold isBased at h
  split at h
  · simp only [Bool.and_eq_true, Bool.not_eq_true', List.isEmpty_eq_false_iff] at h
    have hall := hdigits (fun d hd => by simp [hd]) h.2
    exact .binary h.1 (by simpa using hall)
  · simp only [Bool.and_eq_true, Bool.not_eq_true', List.isEmpty_eq_false_iff] at h
    exact .hexadecimal h.1 (hdigits (fun d hd => by simp [hd]) h.2)
  · simp at h
  · simp only [Bool.and_eq_true, Bool.not_eq_true', List.isEmpty_eq_false_iff] at h
    have hall := hdigits (fun d hd => by simp [hd]) h.2
    exact .octal h.1 (by simpa using hall)
  · contradiction

/-- Octal digits behind a zero are no mark of a base. -/
theorem isBased_octal {ds : List Char} (hne : ds ≠ []) (h : ∀ d ∈ ds, '0' ≤ d ∧ d ≤ '7') :
    isBased .older ('0' :: ds) = true := by
  obtain ⟨d, ds, rfl⟩ := List.exists_cons_of_ne_nil hne
  have hall : ((d :: ds).all fun c => ('0' ≤ c && c ≤ '7') || c == '_') = true :=
    List.all_eq_true.mpr fun c hc => by simp [h c hc]
  have hmark : ∀ {c : Char}, ¬ c ≤ '7' → d ≠ c :=
    fun hc heq => hc (heq ▸ (h d List.mem_cons_self).2)
  unfold isBased
  split
  · next heq => exact absurd (List.cons.inj (List.cons.inj heq).2).1 (hmark (by decide))
  · next heq => exact absurd (List.cons.inj (List.cons.inj heq).2).1 (hmark (by decide))
  · next heq => exact absurd (List.cons.inj (List.cons.inj heq).2).1 (hmark (by decide))
  · next heq =>
      obtain rfl := (List.cons.inj heq).2
      simp only [hall, List.isEmpty_cons, Bool.not_false, Bool.true_and]
  · next hother => exact absurd rfl (hother (d :: ds))

/-- **A whole number** is what looks like one. -/
theorem isInt_iff (h : Hyphenated cs) :
    isInt .older cs = true ↔ ∃ negative body, cs = sign negative ++ body ∧ WholeNumber body := by
  constructor
  · intro hint
    obtain ⟨negative, hcs⟩ := exists_sign h
    refine ⟨negative, unsigned cs, hcs, ?_⟩
    have hbar : '_' ∉ unsigned cs := fun hm => h.notMem (by decide) (mem_of_mem_unsigned hm)
    have hcolon : ':' ∉ unsigned cs := fun hm => h.notMem (by decide) (mem_of_mem_unsigned hm)
    simp only [isInt, fields_of_notMem hcolon, Bool.or_false, Bool.or_eq_true, beq_iff_eq] at hint
    generalize unsigned cs = body at hint hbar
    rcases hint with (hbased | rfl) | hrun
    · exact wholeNumber_of_isBased hbar hbased
    · exact .decimal ⟨by decide, List.forall_mem_singleton.mpr rfl, .inl rfl⟩
    · cases body with
      | nil => contradiction
      | cons d ds =>
          simp only [isNonZeroRun, Bool.and_eq_true, bne_iff_ne, List.all_eq_true] at hrun
          obtain ⟨⟨hd, hzero⟩, hds⟩ := hrun
          refine .decimal ⟨List.cons_ne_nil _ _, ?_, .inr (by simpa using hzero)⟩
          rw [List.forall_mem_cons]
          refine ⟨hd, fun c hc => ?_⟩
          have hne : c ≠ '_' := fun heq => hbar (heq ▸ List.mem_cons_of_mem d hc)
          simpa [isDigitOrBar, hne] using hds c hc
  · rintro ⟨negative, body, rfl, hbody⟩
    have hbody' := hbody
    cases hbody with
    | decimal hds => exact Decimal.isInt ⟨hds, rfl⟩
    | octal hne hds => simp only [isInt, unsigned_sign hbody', isBased_octal hne hds, Bool.true_or]
    | @binary ds hne hds =>
        have hall : (ds.all fun c => c == '0' || c == '1' || c == '_') = true :=
          List.all_eq_true.mpr fun d hd => by rcases hds d hd with rfl | rfl <;> rfl
        simp only [isInt, unsigned_sign hbody', isBased, List.isEmpty_eq_false_iff.mpr hne, hall,
          Bool.not_false, Bool.true_and, Bool.true_or]
    | @hexadecimal ds hne hds =>
        have hall : (ds.all fun c => c.isDigit || ('a' ≤ c && c ≤ 'f') || ('A' ≤ c && c ≤ 'F') ||
            c == '_') = true :=
          List.all_eq_true.mpr fun d hd => by
            rw [Bool.or_eq_true]
            exact .inl (hds d hd)
        simp only [isInt, unsigned_sign hbody', isBased, List.isEmpty_eq_false_iff.mpr hne, hall,
          Bool.not_false, Bool.true_and, Bool.true_or]

/-- Without a point and a colon nothing looks like a double. -/
theorem isFloat_of_notMem (hpoint : '.' ∉ cs) (hcolon : ':' ∉ cs) : isFloat .older cs = false := by
  have hunsigned : '.' ∉ unsigned cs := fun hm => hpoint (mem_of_mem_unsigned hm)
  have hfields : Reading.fields ':' (unsigned cs) = [unsigned cs] :=
    fields_of_notMem fun hm => hcolon (mem_of_mem_unsigned hm)
  have hword : ∀ {words : List String}, (words.all fun w => w.toList.contains '.') = true →
    ∀ {ds : List Char},
      '.' ∉ ds → words.contains (String.ofList ds) = false := by
    intro words hwords ds hds
    rw [List.contains_eq_mem, decide_eq_false_iff_not]
    intro hm
    have := List.all_eq_true.mp hwords _ hm
    rw [String.toList_ofList, List.contains_iff_mem] at this
    exact hds this
  have hinfinity : isInfinity (unsigned cs) = false := hword (by decide) hunsigned
  have hnan : [".nan", ".NaN", ".NAN"].contains (String.ofList cs) = false :=
    hword (by decide) hpoint
  have hrest : ∀ r, (unsigned cs).dropWhile isDigitOrBar ≠ '.' :: r := fun r heq =>
    hunsigned ((List.dropWhile_suffix _).subset (heq ▸ List.mem_cons_self))
  have hfront : ∀ d r, cs ≠ '.' :: d :: r := fun d r heq => hpoint (heq ▸ List.mem_cons_self)
  simp only [isFloat, hinfinity, hnan, hfields, Bool.or_false]

/-! ## Words -/

theorem isBool_iff : isBool .older cs = true ↔ ∃ word ∈ boolWords .older, cs = word.toList := by
  rw [isBool, List.contains_iff_mem]
  constructor
  · exact fun hm => ⟨_, hm, String.toList_ofList.symm⟩
  · rintro ⟨word, hm, rfl⟩
    rwa [String.ofList_toList]

/-- The tilde is no such text, and neither is the empty one. -/
theorem isNull_iff (h : Hyphenated cs) (hne : cs ≠ []) :
    isNull cs = true ↔ ∃ word ∈ ["null", "Null", "NULL"], cs = word.toList := by
  rw [isNull, List.contains_iff_mem]
  constructor
  · intro hm
    refine ⟨String.ofList cs, ?_, String.toList_ofList.symm⟩
    have hlist : ∀ {word : String}, String.ofList cs = word → cs = word.toList := fun heq =>
      String.toList_ofList.symm.trans (congrArg String.toList heq)
    have htilde : String.ofList cs ≠ "~" := fun heq =>
      h.notMem (c := '~') (by decide) (by simp [hlist heq])
    have hempty : String.ofList cs ≠ "" := fun heq => hne (hlist heq)
    simpa [htilde, hempty] using hm
  · rintro ⟨word, hm, rfl⟩
    rw [String.ofList_toList]
    exact List.mem_cons_of_mem "~" (List.mem_append_left [""] hm)

/-! ## Dates -/

/-- **A date** is the only timestamp without a colon. -/
theorem isTimestamp_iff (h : Hyphenated cs) :
    isTimestamp cs = true ↔ ∃ year month day : List Char,
      cs = year ++ '-' :: (month ++ '-' :: day) ∧ (∀ c ∈ year ++ month ++ day, c.isDigit = true) ∧
      year.length = 4 ∧ month.length = 2 ∧ day.length = 2 := by
  constructor
  · intro ht
    unfold isTimestamp at ht
    split at ht
    · next p hp =>
        obtain ⟨year, month, day, r, y, m, d, rfl, hdigit, hyear, hrest⟩ := exists_parts hp
        have hcolon : ':' ∉ r := fun hm => h.notMem (c := ':') (by decide) (by simp [hm])
        obtain rfl := eq_nil_of_withDate hrest hcolon
        obtain rfl := Option.some.inj hrest
        have hfull : month.length = 2 ∧ day.length = 2 := by simpa using ht
        exact ⟨year, month, day, by rw [List.append_nil], hdigit, hyear, hfull⟩
    · contradiction
  · rintro ⟨year, month, day, rfl, hdigit, hyear, hmonth, hday⟩
    have hread := timestamp?_append hdigit hyear hmonth hday []
    rw [List.append_nil] at hread
    rw [isTimestamp, hread]
    rfl

/-! ## Types -/

/-- **What looks like something else** is one of these spellings. -/
theorem tag_ne_str_iff (h : Hyphenated cs) (hne : cs ≠ []) : tag .older cs ≠ .str ↔ Typed cs := by
  have hpoint : '.' ∉ cs := h.notMem (by decide)
  have hcolon : ':' ∉ cs := h.notMem (by decide)
  have hmark : ∀ {c : Char} {ds : List Char}, (c.isAlphanum || c == '-') = false →
      cs ≠ c :: ds := by
    intro c ds hc heq
    exact h.notMem hc (heq ▸ List.mem_cons_self)
  have hmerge : cs ≠ ['<', '<'] := hmark (by decide)
  have hvalue : cs ≠ ['='] := hmark (by decide)
  have hbang : cs ≠ ['!'] := hmark (by decide)
  have hand : cs ≠ ['&'] := hmark (by decide)
  have hstar : cs ≠ ['*'] := hmark (by decide)
  rw [Ne, tag_eq_str_iff]
  simp only [isFloat_of_notMem hpoint hcolon, hmerge, hvalue, hbang, hand, hstar, ne_eq,
    not_false_iff, and_true, true_and, not_and_or, Bool.not_eq_false, isBool_iff, isInt_iff h,
    isNull_iff h hne, isTimestamp_iff h]
  constructor
  · rintro (⟨word, hm, rfl⟩ | ⟨negative, body, rfl, hbody⟩ | ⟨word, hm, rfl⟩ |
      ⟨y, m, d, rfl, hdigit, hy, hm, hd⟩)
    · exact .truth hm
    · exact .number negative hbody
    · exact .null hm
    · exact .date hdigit hy hm hd
  · rintro (⟨negative, hbody⟩ | hm | hm | ⟨hdigit, hy, hm, hd⟩)
    · exact .inr (.inl ⟨negative, _, rfl, hbody⟩)
    · exact .inl ⟨_, hm, rfl⟩
    · exact .inr (.inr (.inl ⟨_, hm, rfl⟩))
    · exact .inr (.inr (.inr ⟨_, _, _, rfl, hdigit, hy, hm, hd⟩))

end Implicit

/-- **What is no text** is not read as one. -/
theorem ScalarText.value_ne_str {v : Version} {t : Tag} (ht : t ≠ .str) (cs : List Char)
    (s : String) :
    value v t cs ≠ .ok (.str s : Value) := by
  have hmap : ∀ {α : Type} {x : Except Fault α} {f : α → Value}, (∀ a, f a ≠ .str s) →
      x.map f ≠ .ok (.str s) := by
    intro α x f hf hx
    cases x with
    | ok a => exact hf a (Except.ok.inj hx)
    | error e => contradiction
  cases t with
  | bool => exact hmap (by simp)
  | int => exact hmap (by simp)
  | float => exact hmap (by simp)
  | timestamp =>
      rw [value, timestamp]
      split
      · simp
      · dsimp only
        split <;> split <;> simp
  | str => exact absurd rfl ht
  | binary =>
      rw [value, octets]
      split
      · split <;> simp
      · simp
  | _ => simp [value]

end Yaml

end RegistryBundle
