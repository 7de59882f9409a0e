import Mathlib.Data.List.TakeWhile
import RegistryBundle.Proofs.Certificate.Dates

/-!
# The holder of a certificate

A certificate names its host twice: as its alternative name, which is the whole host, and as
its subject, which has at most 64 characters. A host that is longer is the subject's first
label only; if such a host begins with a point, that label is empty, and nobody has a
certificate with an empty subject.

* `Certificate.FirstLabel` is the first label of a host, `Certificate.Names` what a certificate
  should say of its host;
* `Certificate.Datable` are the moments whose dates a certificate may hold
  (`Certificate.boundBy_ok_iff`);
* `Certificate.issueWithin_eq_ok_iff` takes the issue of a certificate apart;
* `Certificate.names_of_issue` is the main statement, `Certificate.pointed_host_refused` a host
  without a certificate.
-/

namespace RegistryBundle

/-- Later years have later days. -/
theorem Date.year_le_iff {d : Date} (h : d.Valid) {y : Nat} (hy : 1 ≤ y) :
    y ≤ d.year ↔ daysBeforeYear y < d.dayNumber := by
  obtain ⟨hlow, hhigh⟩ := dayNumber_mem_year h
  constructor
  · intro hle
    exact Nat.lt_of_le_of_lt (daysBeforeYear_mono hy hle) hlow
  · intro hlt
    by_contra hgt
    have := daysBeforeYear_mono (y := d.year + 1) (z := y) (by omega) (by omega)
    omega

namespace Certificate

open Moment Outcome

variable {serial : Nat} {host : String} {now : Moment} {clock : Clock} {c : Certificate}

/-! ## Names -/

/-- What a host holds in front of its first point, or all of it if there is no point. -/
def FirstLabel (host label : List Char) : Prop :=
  '.' ∉ label ∧ (host = label ∨ ∃ rest, host = label ++ '.' :: rest)

/-- A host has one first label. -/
theorem firstLabel_iff {host label : List Char} :
    FirstLabel host label ↔ firstLabel host = label := by
  have hne : ∀ cs : List Char, '.' ∉ cs → ∀ c ∈ cs, (c != '.') = true :=
    fun cs h c hc => bne_iff_ne.mpr fun heq => h (heq ▸ hc)
  constructor
  · rintro ⟨hpoint, rfl | ⟨rest, rfl⟩⟩
    · rw [firstLabel, List.takeWhile_eq_self_iff]
      exact hne host hpoint
    · rw [firstLabel, List.takeWhile_append_of_pos (hne label hpoint),
        List.takeWhile_cons_of_neg (by decide), List.append_nil]
  · rintro rfl
    have hpoint : '.' ∉ firstLabel host := by
      intro hm
      have hall : (firstLabel host).all (· != '.') = true := List.all_takeWhile
      exact bne_iff_ne.mp (List.all_eq_true.mp hall '.' hm) rfl
    refine ⟨hpoint, ?_⟩
    have hsplit : firstLabel host ++ host.dropWhile (· != '.') = host :=
      List.takeWhile_append_dropWhile
    cases hrest : host.dropWhile (· != '.') with
    | nil =>
        rw [hrest, List.append_nil] at hsplit
        exact .inl hsplit.symm
    | cons d rest =>
        have hd : ¬ (d != '.') = true := by
          simpa [hrest] using List.head?_dropWhile_not (· != '.') host
        obtain rfl : d = '.' := by simpa using hd
        exact .inr ⟨rest, by rw [← hrest, hsplit]⟩

/-- A certificate that names its host: the whole host as its only alternative name, and as its
subject the host if it has at most 64 characters, else so much of the first label. -/
structure Names (c : Certificate) (host : String) : Prop where
  alternative : c.alternativeNames = [.dns host]
  nonempty : c.commonName ≠ ""
  short : c.commonName.length ≤ 64
  begins : c.commonName.toList <+: host.toList
  whole : host.length ≤ 64 → c.commonName = host
  cut : 64 < host.length → ∀ label, FirstLabel host.toList label →
    c.commonName = String.ofList (label.take 64)

/-- The subject of a host is empty only where the host, or the first label of a long one, is. -/
theorem subjectFor_eq_nil_iff {host : List Char} (hne : host ≠ []) :
    subjectFor host = [] ↔ 64 < host.length ∧ host.head? = some '.' := by
  obtain ⟨d, rest, rfl⟩ := List.exists_cons_of_ne_nil hne
  unfold subjectFor firstLabel maxCommonName
  split
  · next hle =>
    simp only [List.cons_ne_nil, false_iff]
    omega
  · next hlt =>
    have hlong : 64 < (d :: rest).length := Nat.lt_of_not_le hlt
    by_cases hd : d = '.'
    · simpa [hd] using hlong
    · simp [hd]

/-- A text of such characters has an octet for each. -/
theorem utf8ByteSize_of_ascii {cs : List Char} (h : ∀ c ∈ cs, c.toNat < 128) :
    (String.ofList cs).utf8ByteSize = cs.length := by
  induction cs with
  | nil => rfl
  | cons d cs ih =>
      have hd : d.utf8Size = 1 := by
        rw [Char.utf8Size_eq_one_iff, UInt32.le_iff_toNat_le]
        exact Nat.le_of_lt_succ (h d List.mem_cons_self)
      have hcons : String.ofList (d :: cs) = String.singleton d ++ String.ofList cs := by
        rw [String.singleton_eq_ofList, ← String.ofList_append]
        rfl
      rw [hcons, String.utf8ByteSize_append, String.utf8ByteSize_singleton, hd,
        ih fun c hc => h c (List.mem_cons_of_mem d hc), List.length_cons, Nat.add_comm]

/-! ## Dates -/

/-- The first second of the first year whose dates a certificate may hold. -/
def firstSecond : Int :=
  (⟨⟨firstYear, 1, 1⟩, 0, 0, 0, 0, none⟩ : Moment).seconds

/-- The moment some seconds from now may be a date of a certificate: a clock can show it, and in
universal time it lies in the calendar and not before the first year. -/
structure Datable (clock : Clock) (now : Moment) (s : Int) : Prop where
  shown : 86400 ≤ now.seconds + s ∧ now.seconds + s < (lastDay + 1) * 86400
  universal : ∀ t, now.shift? s = some t →
    firstSecond ≤ t.instant clock / 1000000 ∧ t.instant clock / 1000000 < (lastDay + 1) * 86400

/-- A moment of the calendar lies in the first year or later exactly if it is not
before the first second. -/
theorem firstYear_le_iff {t : Moment} (h : t.Valid) :
    firstYear ≤ t.date.year ↔ firstSecond ≤ t.seconds := by
  rw [Date.year_le_iff h.1 (by decide)]
  have hfirst : firstSecond = (daysBeforeYear firstYear + 1 : Nat) * 86400 := by decide
  obtain ⟨-, hhour, hminute, hsecond⟩ := h
  rw [hfirst, seconds]
  omega

/-- A moment of the calendar has a universal time, if that lies in the calendar too. -/
theorem exists_universalOn? (clock : Clock) (t : Moment) (hlow : 86400 ≤ t.instant clock / 1000000)
    (hhigh : t.instant clock / 1000000 < (lastDay + 1) * 86400) :
      ∃ u, t.universalOn? clock = some u := by
  cases clock with
  | none => exact ⟨_, rfl⟩
  | some ahead =>
      obtain ⟨v, hv⟩ := exists_ofSeconds? t hlow hhigh
      exact ⟨_, Option.map_eq_some_iff.mpr ⟨v, hv, rfl⟩⟩

/-- **A date of a certificate** is found exactly if a certificate may hold it. -/
theorem boundBy_ok_iff (hmicrosecond : now.microsecond < 1000000) {s : Int} :
    (∃ t, boundBy (universalOn? clock) now s = .ok t) ↔ Datable clock now s := by
  constructor
  · rintro ⟨t, ht⟩
    obtain ⟨shown, hshown, hcut⟩ := boundBy_ok hmicrosecond ht
    unfold boundBy at ht
    split at ht
    · contradiction
    · split at ht
      · contradiction
      · next hyear =>
        obtain ⟨hvalid, hseconds, -, -⟩ := shift?_eq_some_iff.mp hshown
        obtain rfl := Except.ok.inj ht
        refine ⟨hseconds ▸ seconds_mem_calendar hvalid, fun t ht => ?_⟩
        obtain rfl := Option.some.inj (hshown.symm.trans ht)
        rw [← hcut.seconds]
        exact ⟨(firstYear_le_iff hcut.valid).mp (Nat.le_of_not_lt hyear),
          (seconds_mem_calendar hcut.valid).2⟩
  · rintro ⟨⟨hlow, hhigh⟩, huniversal⟩
    obtain ⟨v, hv⟩ := exists_ofSeconds? now hlow hhigh
    obtain ⟨hvalid, -, hvm, -⟩ := valid_of_ofSeconds? hv
    obtain ⟨hfirst, hlast⟩ := huniversal v hv
    have hcalendar : 86400 ≤ firstSecond := by decide
    obtain ⟨u, hu⟩ := exists_universalOn? clock v (by omega) (by omega)
    obtain ⟨huvalid, huseconds⟩ := universalOn?_ok hvalid (hvm ▸ hmicrosecond) hu
    have hyear : ¬ u.date.year < firstYear := by
      rw [Nat.not_lt, firstYear_le_iff huvalid, huseconds]
      exact hfirst
    have hfound : (now.shift? s).bind (universalOn? clock) = some u := by
      rw [shift?, hv, Option.bind_some, hu]
    exact ⟨_, by rw [boundBy, hfound]; exact if_neg hyear⟩

/-! ## The issue of a certificate -/

/-- **A certificate is issued** for a host with a subject that is neither empty nor too long, if
both dates are found. -/
theorem issueWithin_eq_ok_iff {bound : Int → Except Failure Moment}
    (hascii : ∀ d ∈ host.toList, d.toNat < 128) :
    issueWithin bound serial host = .ok c ↔
      host ≠ "" ∧ subjectFor host.toList ≠ [] ∧
        ∃ notBefore notAfter, bound (-leadSeconds) = .ok notBefore ∧
        bound validSeconds = .ok notAfter ∧
        c = ⟨serial, String.ofList (subjectFor host.toList), [.dns host], notBefore, notAfter⟩ := by
  have hsize : (String.ofList (subjectFor host.toList)).utf8ByteSize =
      (subjectFor host.toList).length :=
    utf8ByteSize_of_ascii fun d hd => hascii d ((subjectFor_isPrefixOf host.toList).subset hd)
  have hall : (host.toList.all fun d => d.toNat < 128) = true :=
    List.all_eq_true.mpr fun d hd => decide_eq_true (hascii d hd)
  have hle := length_subjectFor_le host.toList
  unfold issueWithin
  simp only [hsize, hall, if_true]
  split
  · next hempty => simp [hempty]
  · next hne =>
    by_cases hsubject : subjectFor host.toList = []
    · simp [hsubject]
    · have hpos : 0 < (subjectFor host.toList).length := List.length_pos_iff.mpr hsubject
      have hfits : ((subjectFor host.toList).length < 1 || maxCommonName <
          (subjectFor host.toList).length) = false := by
        simp only [Bool.or_eq_false_iff, decide_eq_false_iff_not]
        omega
      simp only [hfits, Bool.false_eq_true, if_false, bind_eq_ok, pure_eq_ok, Except.ok.injEq,
        ne_eq, hne, not_false_eq_true, hsubject, true_and, exists_and_left, @eq_comm _ c]

/-- What is issued names its host. -/
theorem names_of_issueWithin {bound : Int → Except Failure Moment}
    (hascii : ∀ d ∈ host.toList, d.toNat < 128)
    (h : issueWithin bound serial host = .ok c) : c.Names host := by
  obtain ⟨hne, hsubject, _, _, -, -, rfl⟩ := (issueWithin_eq_ok_iff hascii).mp h
  have hlist : host.toList.length = host.length := String.length_toList
  refine ⟨rfl, ?_, ?_, ?_, ?_, ?_⟩
  · intro hempty
    exact hsubject (String.ofList_eq_empty_iff.mp hempty)
  · rw [String.length_ofList]
    exact length_subjectFor_le host.toList
  · rw [String.toList_ofList]
    exact subjectFor_isPrefixOf host.toList
  · intro hle
    rw [subjectFor, if_pos (hlist ▸ hle), String.ofList_toList]
  · intro hlt label hlabel
    rw [subjectFor, if_neg (by rw [hlist]; exact Nat.not_le_of_lt hlt), firstLabel_iff.mp hlabel]
    rfl

/-- **The holder of a certificate**, for every host of such characters: one is issued exactly if
both of its dates may stand in a certificate, and the host has at most 64 characters or does not
begin with a point; and it names its host. -/
theorem names_of_issue (hmicrosecond : now.microsecond < 1000000) (hne : host ≠ "")
    (hascii : ∀ d ∈ host.toList, d.toNat < 128) :
    issue serial host now = issueOn now.clock serial host now ∧
      ∀ clock, ((∃ c, issueOn clock serial host now = .ok c ∧ c.Names host) ↔
        Datable clock now (-leadSeconds) ∧ Datable clock now validSeconds ∧
          (host.length ≤ 64 ∨ host.toList.head? ≠ some '.')) := by
  refine ⟨issue_eq_issueOn serial host hmicrosecond, fun clock => ?_⟩
  have hlist : host.toList.length = host.length := String.length_toList
  have hsubject : subjectFor host.toList ≠ [] ↔ host.length ≤ 64 ∨
      host.toList.head? ≠ some '.' := by
    rw [Ne, subjectFor_eq_nil_iff (by simpa using hne), hlist, not_and_or, Nat.not_lt]
  rw [← hsubject, ← boundBy_ok_iff hmicrosecond, ← boundBy_ok_iff hmicrosecond]
  constructor
  · rintro ⟨c, h, -⟩
    obtain ⟨-, hnonempty, _, _, hbefore, hafter, -⟩ := (issueWithin_eq_ok_iff hascii).mp h
    exact ⟨⟨_, hbefore⟩, ⟨_, hafter⟩, hnonempty⟩
  · rintro ⟨⟨_, hbefore⟩, ⟨_, hafter⟩, hnonempty⟩
    have h : issueOn clock serial host now =
        .ok ⟨serial, String.ofList (subjectFor host.toList), [.dns host], _, _⟩ :=
      (issueWithin_eq_ok_iff hascii).mpr ⟨hne, hnonempty, _, _, hbefore, hafter, rfl⟩
    exact ⟨_, h, names_of_issueWithin hascii h⟩

/-- A host whose first label is too long for a subject. -/
def longHost : String :=
  "the-registry-of-an-organization-that-has-a-name-of-a-great-many-words.apps.example.com"

theorem names_of_issue_longHost : ∃ c, issueOn slowClock 1 longHost leapNight = .ok c ∧
    c.Names longHost ∧ c.commonName =
    "the-registry-of-an-organization-that-has-a-name-of-a-great-many-" := by
  have hbefore : Datable slowClock leapNight (-leadSeconds) :=
    (boundBy_ok_iff (by decide)).mp
      ⟨leapCertificate.notBefore, toOption_eq_some.mp (by decide +kernel)⟩
  have hafter : Datable slowClock leapNight validSeconds :=
    (boundBy_ok_iff (by decide)).mp
      ⟨leapCertificate.notAfter, toOption_eq_some.mp (by decide +kernel)⟩
  have hlabel : FirstLabel longHost.toList
      "the-registry-of-an-organization-that-has-a-name-of-a-great-many-words".toList :=
    ⟨by decide, .inr ⟨"apps.example.com".toList, by decide⟩⟩
  have hascii : (longHost.toList.all fun d => decide (d.toNat < 128)) = true := by decide
  obtain ⟨c, hissue, hnames⟩ := ((@names_of_issue 1 longHost leapNight (by decide) (by decide)
    (by simpa using hascii)).2 slowClock).mpr ⟨hbefore, hafter, .inr (by decide)⟩
  exact ⟨c, hissue, hnames, (hnames.cut (by decide) _ hlabel).trans (by decide)⟩

/-- A host of 65 characters that begins with a point. -/
def pointedHost : String :=
  String.ofList ('.' :: List.replicate 64 'a')

/-- **A host without a certificate**: the subject that is cut from it is empty, while a host with
one character less has a certificate at the same moment. -/
theorem pointed_host_refused : pointedHost ≠ "" ∧ (∀ d ∈ pointedHost.toList, d.toNat < 128) ∧
    Datable leapMorning.clock leapMorning (-leadSeconds) ∧
      Datable leapMorning.clock leapMorning validSeconds ∧
    issue 1 pointedHost leapMorning = .error (.breach .range) ∧
    (issue 1 (String.ofList ('.' :: List.replicate 63 'a')) leapMorning).isOk = true := by
  have hascii : (pointedHost.toList.all fun d => decide (d.toNat < 128)) = true := by decide
  have hbefore : Datable leapMorning.clock leapMorning (-leadSeconds) :=
    (boundBy_ok_iff (by decide)).mp
      ⟨leapCertificate.notBefore, toOption_eq_some.mp (by decide +kernel)⟩
  have hafter : Datable leapMorning.clock leapMorning validSeconds :=
    (boundBy_ok_iff (by decide)).mp
      ⟨leapCertificate.notAfter, toOption_eq_some.mp (by decide +kernel)⟩
  exact ⟨by decide, by simpa using hascii, hbefore, hafter, rfl, by decide +kernel⟩

end Certificate

end RegistryBundle
