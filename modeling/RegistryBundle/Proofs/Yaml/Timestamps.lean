import Mathlib.Data.List.TakeWhile
import RegistryBundle.Yaml.Implicit

/-!
# Timestamps taken apart

A timestamp is a date of four digits, one or two, and one or two, and perhaps
a time of day behind it.

* `Reading.number?_eq_some` and `Reading.number?_append`: what is read as a number are
  the digits at the front;
* `Implicit.clock?` and `Implicit.withDate` read what stands behind a date, `Implicit.timestamp?_eq`
  is the reading of a timestamp in terms of them;
* `Implicit.exists_parts` takes a timestamp apart, `Implicit.timestamp?_append` puts one together;
* `Implicit.eq_nil_of_withDate`: what has no colon is a date and nothing more.
-/

namespace RegistryBundle

namespace Reading

variable {low high n width : Nat} {cs r : List Char}

/-- What is read as a number are digits at the front of the text. -/
theorem number?_eq_some (h : number? low high cs = some (n, width, r)) :
    ∃ ds, cs = ds ++ r ∧ ds.length = width ∧ low ≤ width ∧ width ≤ high ∧
      ∀ d ∈ ds, d.isDigit = true := by
  simp only [number?] at h
  split at h
  · next hlow =>
      obtain ⟨-, rfl, rfl⟩ : _ ∧ _ ∧ _ := by simpa using h
      have hfront := (List.takeWhile_prefix Char.isDigit).trans (List.take_prefix high cs)
      refine ⟨_, (List.prefix_iff_eq_append.mp hfront).symm, rfl, hlow, ?_, fun d hd => ?_⟩
      · exact (List.takeWhile_prefix Char.isDigit).length_le.trans (List.length_take_le high cs)
      · exact List.mem_takeWhile_imp hd
  · contradiction

/-- Digits at the front of a text are read as a number, if they are as many as there may be. -/
theorem number?_append (low : Nat) {ds : List Char} (hdigit : ∀ d ∈ ds, d.isDigit = true)
    (hlow : low ≤ ds.length)
    (r : List Char) : number? low ds.length (ds ++ r) =
      some (Nat.ofDigitChars 10 ds 0, ds.length, r) := by
  have hrun : ds.takeWhile Char.isDigit = ds := List.takeWhile_eq_self_iff.mpr hdigit
  simp only [number?, List.take_left, hrun, hlow, if_true, List.drop_left]

theorem after?_eq_some {c : Char} : after? c cs = some r ↔ cs = c :: r := by
  cases cs with
  | nil => exact ⟨nofun, nofun⟩
  | cons d rest =>
      rw [after?]
      split
      · next heq => rw [heq, Option.some.injEq, List.cons.injEq, and_iff_right rfl]
      · next hne => exact ⟨nofun, fun heq => absurd (List.cons.inj heq).1.symm hne⟩

end Reading

namespace Yaml.Implicit

open Reading

variable {cs r : List Char} {p : TimestampParts}

/-- The digits of a fraction, if there is one, and what stands behind them. -/
def fraction : List Char → List Char × List Char
  | '.' :: r => (r.takeWhile Char.isDigit, r.dropWhile Char.isDigit)
  | r => ([], r)

/-- A time of day with the digits of its fraction and its zone. -/
def clock? (cs : List Char) : Option ((Nat × Nat × Nat) × List Char × Option Int) := do
  let (h, _, r) ← number? 1 2 cs
  let r ← after? ':' r
  let (m, _, r) ← number? 2 2 r
  let r ← after? ':' r
  let (s, _, r) ← number? 2 2 r
  let zone ← zone? (fraction r).2
  return ((h, m, s), (fraction r).1, zone)

/-- What stands behind the character between a date and a time of day, and behind blanks. -/
def afterMark? (c : Char) (cs : List Char) : Option (List Char) :=
  if c = 'T' || c = 't' then some cs
  else if c = ' ' || c = '\t' then some (cs.dropWhile fun c => c == ' ' || c == '\t')
  else none

/-- The parts of a timestamp whose date was read before. -/
def withDate (year month day : Nat) (full : Bool) : List Char → Option TimestampParts
  | [] => some ⟨year, month, day, full, none, [], none⟩
  | c :: after => (afterMark? c after).bind fun r => (clock? r).map fun t =>
      ⟨year, month, day, full, some t.1, t.2.1, t.2.2⟩

/-- A timestamp is a date and what is read behind it. -/
theorem timestamp?_eq (cs : List Char) : timestamp? cs = (do
    let (year, _, r) ← number? 4 4 cs
    let r ← after? '-' r
    let (month, monthWidth, r) ← number? 1 2 r
    let r ← after? '-' r
    let (day, dayWidth, r) ← number? 1 2 r
    withDate year month day (monthWidth == 2 && dayWidth == 2) r) := by
  unfold timestamp?
  refine congrArg (Option.bind _) (funext ?_)
  rintro ⟨year, -, r⟩
  refine congrArg (Option.bind _) (funext fun r => congrArg (Option.bind _) (funext ?_))
  rintro ⟨month, monthWidth, r⟩
  refine congrArg (Option.bind _) (funext fun r => congrArg (Option.bind _) (funext ?_))
  rintro ⟨day, dayWidth, r⟩
  cases r with
  | nil => rfl
  | cons c after =>
      -- Behind a letter and behind blanks the same time of day is read.
      have hclock : ∀ r (full : Bool),
        ((clock? r).map fun t => (⟨year, month, day, full, some t.1, t.2.1, t.2.2⟩ :
          TimestampParts)) = (do
            let (h, _, r) ← number? 1 2 r
            let r ← after? ':' r
            let (m, _, r) ← number? 2 2 r
            let r ← after? ':' r
            let (s, _, r) ← number? 2 2 r
            let zone ← zone? (fraction r).2
            return ⟨year, month, day, full, some (h, m, s), (fraction r).1, zone⟩) := by
        intro r full
        simp only [clock?, Option.bind_eq_bind, Option.map_bind, Function.comp_def, Option.pure_def,
          Option.map_some]
      dsimp only [withDate, afterMark?]
      rw [funext fun r => hclock r _]
      split
      · rfl
      · split
        · rfl
        · rfl

/-- **A timestamp put together** of the digits of a date and what is read behind it. -/
theorem timestamp?_append {year month day : List Char}
    (hdigit : ∀ c ∈ year ++ month ++ day, c.isDigit = true)
    (hyear : year.length = 4) (hmonth : month.length = 2) (hday : day.length = 2) (r : List Char) :
    timestamp? (year ++ '-' :: (month ++ '-' :: (day ++ r))) =
      withDate (Nat.ofDigitChars 10 year 0) (Nat.ofDigitChars 10 month 0)
        (Nat.ofDigitChars 10 day 0) true r := by
  have hy := number?_append 4 (fun c hc => hdigit c (by simp [hc])) hyear.ge
    ('-' :: (month ++ '-' :: (day ++ r)))
  have hm := number?_append 1 (fun c hc => hdigit c (by simp [hc])) (by omega : 1 ≤ month.length)
    ('-' :: (day ++ r))
  have hd := number?_append 1 (fun c hc => hdigit c (by simp [hc])) (by omega : 1 ≤ day.length) r
  have hafter : ∀ r, after? '-' ('-' :: r) = some r := fun r => after?_eq_some.mpr rfl
  rw [hyear] at hy
  rw [hmonth] at hm
  rw [hday] at hd
  simp only [timestamp?_eq, hy, hm, hd, hafter, Option.bind_eq_bind, Option.bind_some]
  rfl

/-- **A timestamp taken apart** into the digits of a date and what is read behind it. -/
theorem exists_parts (h : timestamp? cs = some p) :
    ∃ (year month day r : List Char) (y m d : Nat),
      cs = year ++ '-' :: (month ++ '-' :: (day ++ r)) ∧
      (∀ c ∈ year ++ month ++ day, c.isDigit = true) ∧
      year.length = 4 ∧ withDate y m d (month.length == 2 && day.length == 2) r = some p := by
  rw [timestamp?_eq] at h
  obtain ⟨⟨y, _, _⟩, hyear, h⟩ := Option.bind_eq_some_iff.mp h
  obtain ⟨_, hfirst, h⟩ := Option.bind_eq_some_iff.mp h
  obtain ⟨⟨m, _, _⟩, hmonth, h⟩ := Option.bind_eq_some_iff.mp h
  obtain ⟨_, hsecond, h⟩ := Option.bind_eq_some_iff.mp h
  obtain ⟨⟨d, _, r⟩, hday, h⟩ := Option.bind_eq_some_iff.mp h
  obtain ⟨year, rfl, rfl, hlow, hhigh, hyears⟩ := number?_eq_some hyear
  obtain rfl := after?_eq_some.mp hfirst
  obtain ⟨month, rfl, rfl, -, -, hmonths⟩ := number?_eq_some hmonth
  obtain rfl := after?_eq_some.mp hsecond
  obtain ⟨day, rfl, rfl, -, -, hdays⟩ := number?_eq_some hday
  refine ⟨year, month, day, r, y, m, d, rfl, ?_, Nat.le_antisymm hhigh hlow, h⟩
  simp only [List.forall_mem_append]
  exact ⟨⟨hyears, hmonths⟩, hdays⟩

/-- The hours of a time of day stand in front of a colon. -/
private theorem colon_mem_of_clock? {t : (Nat × Nat × Nat) × List Char × Option Int}
    (h : clock? cs = some t) : ':' ∈ cs := by
  obtain ⟨⟨_, _, _⟩, hhour, h⟩ := Option.bind_eq_some_iff.mp h
  obtain ⟨_, hcolon, -⟩ := Option.bind_eq_some_iff.mp h
  obtain ⟨hour, rfl, -⟩ := number?_eq_some hhour
  obtain rfl := after?_eq_some.mp hcolon
  exact List.mem_append_right hour List.mem_cons_self

private theorem suffix_of_afterMark? {c : Char} (h : afterMark? c cs = some r) : r <:+ cs := by
  unfold afterMark? at h
  split at h
  · obtain rfl := Option.some.inj h
    exact List.suffix_rfl
  · split at h
    · obtain rfl := Option.some.inj h
      exact List.dropWhile_suffix _
    · contradiction

/-- Without a colon nothing stands behind a date. -/
theorem eq_nil_of_withDate {y m d : Nat} {full : Bool} (h : withDate y m d full r = some p)
    (hcolon : ':' ∉ r) :
    r = [] := by
  cases r with
  | nil => rfl
  | cons c after =>
      obtain ⟨r, hmark, h⟩ := Option.bind_eq_some_iff.mp h
      obtain ⟨t, hclock, -⟩ := Option.map_eq_some_iff.mp h
      have hmem := (suffix_of_afterMark? hmark).subset (colon_mem_of_clock? hclock)
      exact absurd (List.mem_cons_of_mem c hmem) hcolon

end Yaml.Implicit

end RegistryBundle
