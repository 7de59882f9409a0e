import RegistryBundle.Proofs.Yaml.Doubles

/-!
# Dates on a page

The texts of dates and of moments may stand plain, look like timestamps and nothing else, and are
read as what they are.

* `number?_padded` reads a number that is written to a width, `timestamp?_toText` what begins with a
  date, and `clock?_clockText` a time of day;
* `tag_of_isTimestamp` says that what begins with digits and a hyphen looks like
  nothing but a timestamp;
* `dateText_reads` and `momentText_reads` put together what is known of the two kinds of texts.
-/

namespace RegistryBundle

variable {width n : Nat} {d : Date} {t : Moment}

/-! ## Numbers to a width -/

private theorem isDigit_padded (width n : Nat) : ∀ c ∈ padded width n, c.isDigit = true :=
  Yaml.isDigit_zeros _ (Yaml.digits_toDigits n).digit

private theorem length_padded (hwidth : (Nat.toDigits 10 n).length ≤ width) :
    (padded width n).length = width := by
  rw [padded, List.length_append, List.length_replicate, Nat.sub_add_cancel hwidth]

/-- Below a hundred there are no more than two digits. -/
theorem length_toDigits_le_two (h : n < 100) : (Nat.toDigits 10 n).length ≤ 2 :=
  (Nat.length_toDigits_le_iff (by decide) (by decide)).mpr h

private theorem padded_ne_nil (width n : Nat) : padded width n ≠ [] := by
  simp [padded, Nat.toDigits_ne_nil]

/-- Zeros in front change nothing. -/
theorem ofDigitChars_padded : Nat.ofDigitChars 10 (padded width n) 0 = n := by
  rw [padded, Nat.ofDigitChars_append, Nat.ofDigitChars_replicate_zero, Nat.mul_zero,
    Nat.ofDigitChars_ten_toDigits]

/-- A number that is written to a width is read again. -/
theorem number?_padded (low : Nat) (hlow : low ≤ width)
    (hwidth : (Nat.toDigits 10 n).length ≤ width) (r : List Char) :
    Reading.number? low width (padded width n ++ r) = some (n, width, r) := by
  have hread := Reading.number?_append low (isDigit_padded width n)
    (by rwa [length_padded hwidth]) r
  rwa [length_padded hwidth, ofDigitChars_padded] at hread

private theorem dropWhile_padded {test : Char → Bool} (h : ∀ c, c.isDigit = true → test c = false)
    (r : List Char) :
    (padded width n ++ r).dropWhile test = padded width n ++ r := by
  obtain ⟨c, cs, hcs⟩ := List.exists_cons_of_ne_nil (padded_ne_nil width n)
  have hc := isDigit_padded width n c (hcs ▸ List.mem_cons_self)
  rw [hcs, List.cons_append, List.dropWhile_cons_of_neg (by simp [h c hc])]

namespace Yaml

open Implicit

/-! ## Timestamps -/

/-- What stands behind the date and the space of a moment. -/
def clockText (t : Moment) : List Char :=
  padded 2 t.hour ++ ':' :: (padded 2 t.minute ++ ':' :: (padded 2 t.second ++
    ((if t.microsecond = 0 then [] else '.' :: padded 6 t.microsecond) ++
      (t.offset.map offsetText).getD [])))

private theorem toText_moment (t : Moment) :
    t.toText ' ' = t.date.toText ++ ' ' :: clockText t := by
  simp [Moment.toText, clockText]

/-- The parts of a date fit their widths. -/
theorem length_toDigits_of_valid (hd : d.Valid) : (Nat.toDigits 10 d.year).length ≤ 4 ∧
    (Nat.toDigits 10 d.month).length ≤ 2 ∧ (Nat.toDigits 10 d.day).length ≤ 2 := by
  obtain ⟨-, hyear, -, hmonth, -, hday⟩ := hd
  have hlast : lastYear = 9999 := rfl
  have hlength : daysInMonth d.year d.month ≤ 32 := by
    have hlengths : ∀ m ≤ 12, monthLengths.getD (m - 1) 0 ≤ 31 := by decide
    have := hlengths d.month hmonth
    unfold daysInMonth
    split <;> omega
  refine ⟨?_, length_toDigits_le_two (by omega), length_toDigits_le_two (by omega)⟩
  exact (Nat.length_toDigits_le_iff (by decide) (by decide)).mpr (by omega)

/-- What begins with a date is read as the date and what stands behind it. -/
theorem timestamp?_toText (hd : d.Valid) (r : List Char) :
    timestamp? (d.toText ++ r) = withDate d.year d.month d.day true r := by
  obtain ⟨hyear, hmonth, hday⟩ := length_toDigits_of_valid hd
  have hdigit : ∀ c ∈ padded 4 d.year ++ padded 2 d.month ++ padded 2 d.day, c.isDigit = true := by
    simp only [List.forall_mem_append]
    exact ⟨⟨isDigit_padded 4 d.year, isDigit_padded 2 d.month⟩, isDigit_padded 2 d.day⟩
  have hread := timestamp?_append hdigit (length_padded hyear) (length_padded hmonth)
    (length_padded hday) r
  rw [ofDigitChars_padded, ofDigitChars_padded, ofDigitChars_padded] at hread
  rw [← hread, Date.toText, List.append_assoc, List.cons_append, List.append_assoc,
    List.cons_append]

private theorem timestamp?_date (hd : d.Valid) :
    timestamp? d.toText = some ⟨d.year, d.month, d.day, true, none, [], none⟩ := by
  have hread := timestamp?_toText hd []
  rwa [List.append_nil] at hread

/-- The zone of a moment. -/
theorem zone?_offset {o : Option Int} (h : (o.getD 0).natAbs < 1440) :
    zone? ((o.map offsetText).getD []) = some o := by
  cases o with
  | none => rfl
  | some o =>
      replace h : o.natAbs < 1440 := h
      have hhour := number?_padded 1 (by decide)
        (length_toDigits_le_two (by omega : o.natAbs / 60 < 100))
        (':' :: padded 2 (o.natAbs % 60))
      have hminute := number?_padded 2 (by decide)
        (length_toDigits_le_two (by omega : o.natAbs % 60 < 100)) []
      rw [List.append_nil] at hminute
      have hnegative :
        o < 0 → -(((o.natAbs / 60 : Nat) : Int) * 60 + ((o.natAbs % 60 : Nat) : Int)) = o := by
        omega
      have hpositive : ¬ o < 0 → ((o.natAbs / 60 : Nat) : Int) * 60 +
        ((o.natAbs % 60 : Nat) : Int) = o := by omega
      rw [Option.map_some, Option.getD_some, offsetText]
      generalize o.natAbs / 60 = hours at *
      generalize o.natAbs % 60 = minutes at *
      by_cases hneg : o < 0
      · simp [hneg, zone?, hhour, hminute, Reading.after?]
        omega
      · simp [hneg, zone?, hhour, hminute, Reading.after?]
        omega

/-- The digits of a second are read up to a zone. -/
theorem fraction_append (n : Nat) (o : Option Int) :
    fraction ((if n = 0 then [] else '.' :: padded 6 n) ++ (o.map offsetText).getD []) =
      (if n = 0 then [] else padded 6 n, (o.map offsetText).getD []) := by
  -- The sign of a zone is no part of a number.
  have hzone : (o.map offsetText).getD [] = [] ∨
      ∃ c r, (o.map offsetText).getD [] = c :: r ∧ c ≠ '.' ∧ c.isDigit = false := by
    cases o with
    | none => exact .inl rfl
    | some o =>
        refine .inr ⟨_, _, rfl, ?_⟩
        split <;> decide
  generalize (o.map offsetText).getD [] = zone at hzone
  by_cases hn : n = 0
  · rw [if_pos hn, if_pos hn, List.nil_append]
    rcases hzone with rfl | ⟨c, r, rfl, hpoint, -⟩
    · rfl
    · simp [fraction, hpoint]
  · rw [if_neg hn, if_neg hn, List.cons_append, fraction,
      List.takeWhile_append_of_pos (isDigit_padded 6 n),
      List.dropWhile_append_of_pos (isDigit_padded 6 n)]
    rcases hzone with rfl | ⟨c, r, rfl, -, hc⟩
    · rw [List.takeWhile_nil, List.dropWhile_nil, List.append_nil]
    · rw [List.takeWhile_cons_of_neg (by simp [hc]), List.dropWhile_cons_of_neg (by simp [hc]),
        List.append_nil]

/-- The time of day of a moment. -/
theorem clock?_clockText (hhour : t.hour < 24) (hminute : t.minute < 60) (hsecond : t.second < 60)
    (hoffset : (t.offset.getD 0).natAbs < 1440) : clock? (clockText t) =
      some ((t.hour, t.minute, t.second), if t.microsecond = 0 then [] else padded 6 t.microsecond,
        t.offset) := by
  have hafter : ∀ r, Reading.after? ':' (':' :: r) = some r :=
    fun r => Reading.after?_eq_some.mpr rfl
  have hhours := number?_padded 1 (by decide) (length_toDigits_le_two (by omega : t.hour < 100))
  have hminutes := number?_padded 2 (by decide) (length_toDigits_le_two (by omega : t.minute < 100))
  have hseconds := number?_padded 2 (by decide) (length_toDigits_le_two (by omega : t.second < 100))
  simp only [clock?, clockText, hhours, hminutes, hseconds, hafter, fraction_append,
    zone?_offset hoffset, Option.bind_eq_bind, Option.bind_some, Option.pure_def]

private theorem timestamp?_moment (ht : t.Valid) (hoffset : (t.offset.getD 0).natAbs < 1440) :
    timestamp? (t.toText ' ') = some ⟨t.date.year, t.date.month, t.date.day, true,
      some (t.hour, t.minute, t.second), if t.microsecond = 0 then [] else padded 6 t.microsecond,
      t.offset⟩ := by
  obtain ⟨hdate, hhour, hminute, hsecond⟩ := ht
  have hblank : ∀ c : Char, c.isDigit = true → (c == ' ' || c == '\t') = false := by
    intro c hc
    simp [ne_of_isDigit hc (d := ' ') (by decide), ne_of_isDigit hc (d := '\t') (by decide)]
  have hmark : afterMark? ' ' (clockText t) = some (clockText t) := by
    rw [afterMark?, if_neg (by decide), if_pos (by decide), clockText, dropWhile_padded hblank]
  rw [toText_moment, timestamp?_toText hdate, withDate, hmark, Option.bind_some,
    clock?_clockText hhour hminute hsecond hoffset, Option.map_some]

/-! ## Looks -/

/-- The first part of a text begins with what holds no separator. -/
private theorem exists_fields_append {separator : Char} {cs : List Char} (h : separator ∉ cs)
    (ds : List Char) :
    ∃ f fs, Reading.fields separator (cs ++ ds) = (cs ++ f) :: fs := by
  induction cs with
  | nil =>
      cases hfields : Reading.fields separator ds with
      | nil => exact absurd hfields (Reading.fields_ne_nil separator ds)
      | cons f fs => exact ⟨f, fs, hfields⟩
  | cons c cs ih =>
      rw [List.mem_cons, not_or] at h
      obtain ⟨f, fs, hfields⟩ := ih h.2
      refine ⟨f, fs, ?_⟩
      rw [List.cons_append, Reading.fields, hfields]
      simp [Ne.symm h.1]

/-- A hyphen is no digit to any base. -/
private theorem isBased_of_hyphen {cs : List Char} (h : '-' ∈ cs) : isBased .older cs = false := by
  have hall : ∀ {ds : List Char} {test : Char → Bool}, '-' ∈ ds → test '-' = false →
      ds.all test = false := by
    intro ds test hm htest
    rw [List.all_eq_false]
    exact ⟨'-', hm, by simp [htest]⟩
  unfold isBased
  split
  · rw [hall (by simpa using h) (by decide), Bool.and_false]
  · rw [hall (by simpa using h) (by decide), Bool.and_false]
  · rfl
  · rw [hall (by simpa using h) (by decide), Bool.and_false]
  · rfl

/-- **Digits and a hyphen** are in front of nothing but a timestamp. -/
theorem tag_of_isTimestamp {ds cs : List Char} (hne : ds ≠ []) (hdigit : ∀ c ∈ ds, c.isDigit = true)
    (h : isTimestamp (ds ++ '-' :: cs) = true) :
      Implicit.tag .older (ds ++ '-' :: cs) = .timestamp := by
  obtain ⟨d, es, rfl⟩ := List.exists_cons_of_ne_nil hne
  obtain ⟨hd, hes⟩ := List.forall_mem_cons.mp hdigit
  have hminus : d ≠ '-' := ne_of_isDigit hd (by decide)
  have hplus : d ≠ '+' := ne_of_isDigit hd (by decide)
  have hpoint : d ≠ '.' := ne_of_isDigit hd (by decide)
  have hmerge : d ≠ '<' := ne_of_isDigit hd (by decide)
  have hunsigned : unsigned (d :: es ++ '-' :: cs) = d :: es ++ '-' :: cs := by
    simp [unsigned, hminus, hplus]
  -- It is none of the words, which do not begin with digits.
  have hword : ∀ {words : List String},
    (words.all fun word => word.toList.head?.all fun c => !c.isDigit) = true →
      words.contains (String.ofList (d :: es ++ '-' :: cs)) = false := by
    intro words hwords
    rw [List.contains_eq_mem, decide_eq_false_iff_not]
    intro hm
    have := List.all_eq_true.mp hwords _ hm
    simp [hd] at this
  have hbool : isBool .older (d :: es ++ '-' :: cs) = false := hword (by decide)
  have hnull : isNull (d :: es ++ '-' :: cs) = false := hword (by decide)
  have hinfinity : isInfinity (d :: es ++ '-' :: cs) = false := hword (by decide)
  have hnan : [".nan", ".NaN", ".NAN"].contains (String.ofList (d :: es ++ '-' :: cs)) = false :=
    hword (by decide)
  -- It is no number, with a point or without: the hyphen stands in front of all points and colons.
  have hbar : ∀ c ∈ d :: es, isDigitOrBar c = true :=
    fun c hc => by simp [isDigitOrBar, hdigit c hc]
  have hrest : (d :: es ++ '-' :: cs).dropWhile isDigitOrBar = '-' :: cs := by
    rw [List.dropWhile_append_of_pos hbar, List.dropWhile_cons_of_neg (by decide)]
  have hcolon : ':' ∉ d :: es ++ ['-'] := by
    intro hm
    rcases List.mem_append.mp hm with hm | hm
    · exact absurd (hdigit ':' hm) (by decide)
    · exact absurd hm (by decide)
  obtain ⟨f, fs, hfields⟩ := exists_fields_append hcolon cs
  have hall : ∀ f, (es ++ '-' :: f).all isDigitOrBar = false :=
    fun f => List.all_eq_false.mpr ⟨'-', by simp, by decide⟩
  have hrun : ∀ f, isDigitRun (d :: (es ++ '-' :: f)) = false :=
    fun f => by rw [isDigitRun, hall, Bool.and_false]
  have hnonzero : ∀ f, isNonZeroRun (d :: (es ++ '-' :: f)) = false := fun f => by
    rw [isNonZeroRun, hall, Bool.and_false]
  simp only [List.append_assoc, List.cons_append, List.nil_append] at *
  have hfloat : isFloat .older (d :: (es ++ '-' :: cs)) = false := by
    simp only [isFloat, hunsigned, hinfinity, hnan, hrest, hfields]
    cases fs with
    | nil => simp [hpoint]
    | cons g gs => simp [hpoint, hrun]
  have hint : isInt .older (d :: (es ++ '-' :: cs)) = false := by
    simp only [isInt, hunsigned, hfields,
      isBased_of_hyphen (show '-' ∈ d :: (es ++ '-' :: cs) by simp)]
    cases fs with
    | nil => simp [hnonzero]
    | cons g gs => simp [hnonzero]
  simp only [Implicit.tag, hbool, hnull, hfloat, hint, h]
  simp [hmerge]

/-! ## Characters -/

/-- The characters of dates, of times of day and of zones. -/
def clockChars : List Char :=
  "0123456789".toList ++ "-:.+".toList

private theorem padded_subset (width n : Nat) : ∀ c ∈ padded width n, c ∈ clockChars := fun c hc =>
  List.mem_append_left _ (mem_of_isDigit (isDigit_padded width n c hc))

private theorem dateText_subset (d : Date) : ∀ c ∈ d.toText, c ∈ clockChars := by
  simp only [Date.toText, List.forall_mem_append, List.forall_mem_cons]
  exact ⟨padded_subset _ _, by decide, padded_subset _ _, by decide, padded_subset _ _⟩

private theorem offsetText_subset (o : Option Int) :
    ∀ c ∈ (o.map offsetText).getD [], c ∈ clockChars := by
  cases o with
  | none => exact nofun
  | some o =>
      simp only [Option.map_some, Option.getD_some, offsetText, List.forall_mem_append,
        List.forall_mem_cons]
      refine ⟨?_, padded_subset _ _, by decide, padded_subset _ _⟩
      split <;> decide

private theorem clockText_subset (t : Moment) : ∀ c ∈ clockText t, c ∈ clockChars := by
  simp only [clockText, List.forall_mem_append, List.forall_mem_cons]
  refine ⟨padded_subset _ _, by decide, padded_subset _ _, by decide, padded_subset _ _, ?_,
    offsetText_subset t.offset⟩
  split
  · exact nofun
  · exact List.forall_mem_cons.mpr ⟨by decide, padded_subset _ _⟩

/-! ## Indicators -/

/-- No indicator stands in a text, whatever is in front of it. -/
def Unmarked (cs : List Char) : Prop :=
  ∀ previous, Scalar.innerIndicator previous cs = false

namespace Unmarked

variable {c : Char} {cs ds : List Char}

theorem cons (h : Unmarked cs) (hcolon : c ≠ ':') (hcomment : c ≠ '#') :
    Unmarked (c :: cs) := fun previous => by
  simp [Scalar.innerIndicator, hcolon, hcomment, h c]

theorem digits (h : Unmarked cs) (hds : ∀ d ∈ ds, d.isDigit = true) : Unmarked (ds ++ cs) := by
  induction ds with
  | nil => exact h
  | cons d ds ih =>
      obtain ⟨hd, hds⟩ := List.forall_mem_cons.mp hds
      exact (ih hds).cons (ne_of_isDigit hd (by decide)) (ne_of_isDigit hd (by decide))

/-- A colon in front of digits is no indicator. -/
theorem colon (h : Unmarked cs) (hne : ds ≠ []) (hds : ∀ d ∈ ds, d.isDigit = true) :
    Unmarked (':' :: (ds ++ cs)) := by
  have hdigits := h.digits hds
  obtain ⟨d, ds, rfl⟩ := List.exists_cons_of_ne_nil hne
  intro previous
  have hboundary : Scalar.boundary (d :: ds ++ cs) = false :=
    boundary_of_isDigit (hds d List.mem_cons_self) _
  rw [Scalar.innerIndicator, hboundary, hdigits ':']
  rfl

theorem offset (o : Option Int) : Unmarked ((o.map offsetText).getD []) := by
  have hnil : Unmarked [] := fun _ => rfl
  cases o with
  | none => exact hnil
  | some o =>
      have hminutes := hnil.colon (padded_ne_nil 2 _) (isDigit_padded 2 (o.natAbs % 60))
      rw [List.append_nil] at hminutes
      refine (hminutes.digits (isDigit_padded 2 (o.natAbs / 60))).cons ?_ ?_
      · split <;> decide
      · split <;> decide

theorem clock (t : Moment) : Unmarked (clockText t) := by
  have hoffset := offset t.offset
  have hfraction : Unmarked ((if t.microsecond = 0 then [] else '.' :: padded 6 t.microsecond) ++
      (t.offset.map offsetText).getD []) := by
    split
    · exact hoffset
    · exact (hoffset.digits (isDigit_padded 6 _)).cons (by decide) (by decide)
  have hsecond := hfraction.colon (padded_ne_nil 2 _) (isDigit_padded 2 t.second)
  exact (hsecond.colon (padded_ne_nil 2 _) (isDigit_padded 2 t.minute)).digits
    (isDigit_padded 2 t.hour)

theorem date (h : Unmarked cs) (d : Date) : Unmarked (d.toText ++ cs) := by
  have hday := (h.digits (isDigit_padded 2 d.day)).cons (c := '-') (by decide) (by decide)
  have hmonth := (hday.digits (isDigit_padded 2 d.month)).cons (c := '-') (by decide) (by decide)
  simpa [Date.toText] using hmonth.digits (isDigit_padded 4 d.year)

end Unmarked

/-- A text that begins with a date may stand plain, if no indicator stands behind the date. -/
private theorem allowsPlain_date {cs : List Char} (d : Date)
    (hchars : ∀ c ∈ cs, c = ' ' ∨ c ∈ clockChars)
    (hlast : cs.getLast? ≠ some ' ') (h : Unmarked cs) :
      Scalar.allowsPlain (d.toText ++ cs) = true := by
  have hprinted : ((' ' :: clockChars).all fun c => Scalar.isPlainChar c && !Scalar.isLineBreak c) =
    true := by decide
  have hunmarked := h.date d
  have hmem : ∀ c ∈ d.toText ++ cs, c ∈ ' ' :: clockChars := by
    rw [List.forall_mem_append]
    exact ⟨fun c hc => List.mem_cons_of_mem _ (dateText_subset d c hc),
      fun c hc => List.mem_cons.mpr (hchars c hc)⟩
  have hspace : ' ' ∉ d.toText := fun hm => absurd (dateText_subset d ' ' hm) (by decide)
  obtain ⟨e, es, hes⟩ := List.exists_cons_of_ne_nil (padded_ne_nil 4 d.year)
  have he : e.isDigit = true := isDigit_padded 4 d.year e (hes ▸ List.mem_cons_self)
  obtain ⟨rest, hrest⟩ : ∃ rest, d.toText = e :: rest := ⟨_, by rw [Date.toText, hes]; rfl⟩
  rw [hrest, List.cons_append] at hunmarked hmem ⊢
  rw [hrest] at hspace
  refine allowsPlain_of_isDigit false he (fun c hc => ?_) ?_ ?_
  · simpa using List.all_eq_true.mp hprinted c (hmem c (List.mem_cons_of_mem e hc))
  · rw [List.getLast?_append]
    cases hcs : cs.getLast? with
    | none => exact fun heq => hspace (List.mem_cons_of_mem e (List.mem_of_getLast? heq))
    | some c => rwa [hcs] at hlast
  · have hinner := hunmarked e
    rw [Scalar.innerIndicator, Bool.or_eq_false_iff] at hinner
    exact hinner.2

/-- **The text of a date** may stand plain, looks like a date, and is read as it. -/
theorem dateText_reads (hd : d.Valid) : Scalar.allowsPlain d.toText = true ∧ d.toText ≠ [] ∧
    Implicit.tag .older d.toText = .timestamp ∧
      ScalarText.value .older .timestamp d.toText = .ok (.date d : Value) := by
  have hplain : Scalar.allowsPlain (d.toText ++ []) = true :=
    allowsPlain_date d nofun nofun fun _ => rfl
  rw [List.append_nil] at hplain
  have hlook : isTimestamp d.toText = true := by rw [isTimestamp, timestamp?_date hd]; rfl
  have hline : (d.toText.getLast? == some '\n') = false := by
    rw [beq_eq_false_iff_ne]
    exact fun heq => absurd (dateText_subset d '\n' (List.mem_of_getLast? heq)) (by decide)
  refine ⟨hplain, by simp [Date.toText],
    tag_of_isTimestamp (padded_ne_nil 4 d.year) (isDigit_padded 4 d.year) hlook, ?_⟩
  simp [ScalarText.value, ScalarText.timestamp, hline, timestamp?_date hd, hd]

/-- **The text of a moment** may stand plain, looks like a timestamp, and is read as the moment. -/
theorem momentText_reads (ht : t.Valid) (hmicrosecond : t.microsecond < 1000000)
    (hoffset : (t.offset.getD 0).natAbs < 1440) :
    Scalar.allowsPlain (t.toText ' ') = true ∧ t.toText ' ' ≠ [] ∧
      Implicit.tag .older (t.toText ' ') = .timestamp ∧
      ScalarText.value .older .timestamp (t.toText ' ') = .ok (.moment t : Value) := by
  have hlook : isTimestamp (t.toText ' ') = true := by
    rw [isTimestamp, timestamp?_moment ht hoffset]; rfl
  have hvalue : ScalarText.microseconds (if t.microsecond = 0 then [] else padded 6 t.microsecond) =
      t.microsecond := by
    split
    · next h => rw [h]; rfl
    · have hlength : (padded 6 t.microsecond).length = 6 :=
        length_padded ((Nat.length_toDigits_le_iff (by decide) (by decide)).mpr hmicrosecond)
      rw [ScalarText.microseconds, List.take_of_length_le (by omega), hlength]
      simp [ofDigitChars_padded]
  have hclock : clockText t ≠ [] := by simp [clockText]
  have hspace : ' ' ∉ clockText t := fun hm => absurd (clockText_subset t ' ' hm) (by decide)
  have hplain : Scalar.allowsPlain (t.date.toText ++ ' ' :: clockText t) = true := by
    refine allowsPlain_date t.date
      (List.forall_mem_cons.mpr ⟨.inl rfl, fun c hc => .inr (clockText_subset t c hc)⟩) ?_
      ((Unmarked.clock t).cons (by decide) (by decide))
    rw [List.getLast?_cons_of_ne_nil hclock]
    exact fun heq => hspace (List.mem_of_getLast? heq)
  have hline : ((t.toText ' ').getLast? == some '\n') = false := by
    rw [beq_eq_false_iff_ne, toText_moment]
    intro heq
    rcases List.mem_append.mp (List.mem_of_getLast? heq) with hm | hm
    · exact absurd (dateText_subset t.date '\n' hm) (by decide)
    · exact absurd (clockText_subset t '\n' ((List.mem_cons.mp hm).resolve_left (by decide)))
        (by decide)
  refine ⟨by rwa [toText_moment], by simp [toText_moment], ?_, ?_⟩
  · rw [toText_moment, Date.toText, List.append_assoc, List.cons_append] at hlook ⊢
    exact tag_of_isTimestamp (padded_ne_nil 4 t.date.year) (isDigit_padded 4 t.date.year) hlook
  · have hmoment : Moment.Valid
        ⟨⟨t.date.year, t.date.month, t.date.day⟩, t.hour, t.minute, t.second, t.microsecond,
          t.offset⟩ := ht
    simp [ScalarText.value, ScalarText.timestamp, hline, timestamp?_moment ht hoffset, hvalue,
      hmoment, hoffset]

end Yaml

end RegistryBundle
