import RegistryBundle.Proofs.Settings.Sections

/-!
# Spellings of names

The names of sections and of the log level count in lower case and in upper case, and in no other
spelling; the keys inside a section count in every spelling.

* `Settings.Respelled` relates two mappings of which one has the keys of the other with
  letters in another case;
* `Settings.anyCase?` looks a name up in any spelling, `Settings.firstTruthy_of_mem` says when the
  settings are looked up like that;
* `Settings.ofEntries_respelled` is the main statement, `Settings.spelling_lost` two spellings of
  which one is lost.
-/

namespace RegistryBundle.Settings

open Value Outcome Credentials

variable {raw raw' es es' : Entries} {name t : String} {e : Value × Value}

/-! ## Spellings -/

/-- A text with its ASCII letters in upper case. -/
def upper (s : String) : String :=
  String.ofList (s.toList.map Char.toUpper)

/-- A text key with its ASCII letters in lower case. -/
def caseKey? (k : Value) : Option String :=
  match k.bare with
  | .str t => some (lower t)
  | _ => none

/-- No two text keys differ in the case of letters only. -/
def KeysApart (raw : Entries) : Prop :=
  (raw.map fun e => caseKey? e.1).Nodup

instance (raw : Entries) : Decidable (KeysApart raw) :=
  inferInstanceAs (Decidable (raw.map fun e => caseKey? e.1).Nodup)

/-- The same key, or a text with letters in another case. -/
def Recased (k k' : Value) : Prop :=
  k = k' ∨ ∃ t t', k.bare = .str t ∧ k'.bare = .str t' ∧ lower t = lower t'

/-- The same value, or a mapping with the letters of its keys in another case. -/
def RecasedSection (v v' : Value) : Prop :=
  v = v' ∨ ∃ es es', v.bare = .map es ∧ v'.bare = .map es' ∧
    List.Forall₂ (fun e e' => Recased e.1 e'.1 ∧ e.2 = e'.2) es es'

/-- The names of the two sections. -/
def sectionNames : List String := ["postgres", "clair_postgres"]

/-- The names that settings are read from. -/
def knownNames : List String := "clair_log_level" :: sectionNames

/-- An entry under a text, and the same under the text with letters in another case; in a section
the keys may be respelled as well. -/
def RespelledEntry (e e' : Value × Value) : Prop :=
  ∃ t t', e.1.bare = .str t ∧ e'.1.bare = .str t' ∧ lower t = lower t' ∧
    (e.2 = e'.2 ∨ lower t ∈ sectionNames ∧ RecasedSection e.2 e'.2)

/-- Settings, and the same with keys in another spelling; keys that differ in
case only are in neither. -/
structure Respelled (raw raw' : Entries) : Prop where
  apart : KeysApart raw
  entries : List.Forall₂ RespelledEntry raw raw'

/-- Each name that settings are read from is spelled in lower case or in upper case throughout. -/
def Spelled (raw : Entries) : Prop :=
  ∀ e ∈ raw, ∀ t, e.1.bare = .str t → lower t ∈ knownNames → t = lower t ∨ t = upper (lower t)

/-- The login that is read from a value under a spelling of the name of its section. -/
structure LoginUnder (name database spelling : String) (v : Value) (c : Credentials) : Prop where
  found : spelling = name ∨ spelling = upper name → LoginOf database (entriesOf (some v)) c
  lost : spelling ≠ name → spelling ≠ upper name → c = { database := database }

/-! ## Lookups -/

private theorem caseKey?_of_bare {k : Value} (h : k.bare = .str t) :
    caseKey? k = some (lower t) := by
  rw [caseKey?, h]

private theorem exists_of_caseKey? {k : Value} (h : caseKey? k = some name) :
    ∃ t, k.bare = .str t ∧ lower t = name := by
  unfold caseKey? at h
  split at h
  · next t ht => exact ⟨t, ht, Option.some.inj h⟩
  · contradiction

/-- What stands under a name in any spelling. -/
def anyCase? (raw : Entries) (name : String) : Option Value :=
  (raw.find? fun e => caseKey? e.1 == some name).map Prod.snd

private theorem get?_eq_none_of_absent (h : ∀ e ∈ raw, caseKey? e.1 ≠ some (lower name)) :
    Value.get? raw name = none := by
  rw [Value.get?, Value.find?, Option.map_eq_none_iff, List.find?_eq_none]
  intro e he hsame
  exact h e he (caseKey?_of_bare ((sameKey_str_iff e.1 name).mp hsame))

/-- **Of the spellings of a key** one is found. -/
theorem get?_of_apart (hapart : KeysApart raw) (he : e ∈ raw) (ht : e.1.bare = .str t)
    (hname : lower name = lower t) :
    Value.get? raw name = if name = t then some e.2 else none := by
  have hone : ∀ f ∈ raw, f.1.sameKey (.str name) = true → f = e ∧ name = t := by
    intro f hf hsame
    have hbare := (sameKey_str_iff f.1 name).mp hsame
    have hkeys : caseKey? f.1 = caseKey? e.1 := by
      rw [caseKey?_of_bare hbare, caseKey?_of_bare ht, hname]
    obtain rfl : f = e := List.inj_on_of_nodup_map hapart hf he hkeys
    exact ⟨rfl, Value.str.inj (hbare.symm.trans ht)⟩
  rw [Value.get?, Value.find?]
  cases hfind : raw.find? fun f => f.1.sameKey (.str name) with
  | some f =>
      have hsame : f.1.sameKey (.str name) = true := by simpa using List.find?_some hfind
      obtain ⟨rfl, hname⟩ := hone f (List.mem_of_find?_eq_some hfind) hsame
      rw [if_pos hname, Option.map_some]
  | none =>
      rw [if_neg, Option.map_none]
      rintro rfl
      exact List.find?_eq_none.mp hfind e he ((sameKey_str_iff e.1 name).mpr ht)

/-- A name in lower case that has letters. -/
structure IsName (name : String) : Prop where
  lower_eq : lower name = name
  lower_upper : lower (upper name) = name
  upper_ne : upper name ≠ name

private theorem isName_of_mem_knownNames (h : name ∈ knownNames) : IsName name := by
  have hknown : ∀ n ∈ knownNames, lower n = n ∧ lower (upper n) = n ∧ upper n ≠ n := by decide
  obtain ⟨hlower, hupper, hne⟩ := hknown name h
  exact ⟨hlower, hupper, hne⟩

/-- **What counts under a name**: what stands there in lower or in upper case, if it counts as true,
and nothing that is spelled in another way. -/
theorem firstTruthy_of_mem (hname : IsName name) (hapart : KeysApart raw) (he : e ∈ raw)
    (ht : e.1.bare = .str t)
    (hcase : lower t = name) :
    firstTruthy raw name = if t = name ∨
      t = upper name then (some e.2).filter Value.truthy else none := by
  have hlower := get?_of_apart hapart he ht (hname.lower_eq.trans hcase.symm)
  have hupper := get?_of_apart hapart he ht (hname.lower_upper.trans hcase.symm)
  have hfirst : firstTruthy raw name =
      ((Value.get? raw name).filter Value.truthy).or
        ((Value.get? raw (upper name)).filter Value.truthy) := rfl
  rw [hfirst, hlower, hupper]
  by_cases hn : name = t
  · have hu : upper name ≠ t := fun h => hname.upper_ne (h.trans hn.symm)
    rw [if_pos hn, if_neg hu, if_pos (.inl hn.symm), Option.filter_none, Option.or_none]
  · by_cases hu : upper name = t
    · rw [if_neg hn, if_pos hu, if_pos (.inr hu.symm), Option.filter_none, Option.none_or]
    · have hother : ¬(t = name ∨ t = upper name) := by
        rintro (h | h)
        · exact hn h.symm
        · exact hu h.symm
      rw [if_neg hn, if_neg hu, if_neg hother]
      rfl

private theorem firstTruthy_of_absent (hname : IsName name)
    (h : ∀ e ∈ raw, caseKey? e.1 ≠ some name) :
    firstTruthy raw name = none := by
  have hlower : Value.get? raw name = none := get?_eq_none_of_absent (by rwa [hname.lower_eq])
  have hupper : Value.get? raw (upper name) = none :=
    get?_eq_none_of_absent (by rwa [hname.lower_upper])
  rw [firstTruthy, hlower]
  exact congrArg (Option.filter Value.truthy) hupper

/-- **Where names are in lower or upper case throughout**, what counts is what
is found in any spelling. -/
theorem firstTruthy_of_spelled (hknown : name ∈ knownNames) (hapart : KeysApart raw)
    (hspelled : Spelled raw) :
    firstTruthy raw name = (anyCase? raw name).filter Value.truthy := by
  have hname := isName_of_mem_knownNames hknown
  rw [anyCase?]
  cases hfind : raw.find? fun e => caseKey? e.1 == some name with
  | some e =>
      have he := List.mem_of_find?_eq_some hfind
      have hkey : caseKey? e.1 = some name := by simpa using List.find?_some hfind
      obtain ⟨t, ht, rfl⟩ := exists_of_caseKey? hkey
      rw [firstTruthy_of_mem hname hapart he ht rfl, if_pos (hspelled e he t ht hknown),
        Option.map_some]
  | none =>
      refine (firstTruthy_of_absent hname fun e he hkey => ?_).trans rfl
      exact List.find?_eq_none.mp hfind e he (beq_iff_eq.mpr hkey)

/-! ## What is read -/

/-- A value that does not count as true is a section without entries. -/
theorem entriesOf_filter_truthy (v : Option Value) :
    entriesOf (v.filter Value.truthy) = entriesOf v := by
  cases v with
  | none => rfl
  | some v =>
      rw [Option.filter_some]
      split
      · rfl
      · next hfalse =>
        rw [← truthy_bare] at hfalse
        rw [entriesOf, entriesOf, Option.map_none, Option.map_some]
        cases hv : v.bare with
        | map es =>
            rw [hv, Value.truthy] at hfalse
            obtain rfl : es = [] := by simpa using hfalse
            rfl
        | _ => rfl

/-- **The section that is read under one spelling of its name.** -/
theorem loginUnder_of_mem {database : String} {c : Credentials} (hknown : name ∈ knownNames)
    (hdatabase : database ≠ "")
    (hapart : KeysApart raw) (he : e ∈ raw) (ht : e.1.bare = .str t) (hcase : lower t = name)
    (h : LoginOf database (sectionOf raw name) c) : LoginUnder name database t e.2 c := by
  rw [sectionOf, firstTruthy_of_mem (isName_of_mem_knownNames hknown) hapart he ht hcase] at h
  refine ⟨fun hspelled => ?_, fun hlower hupper => ?_⟩
  · rw [if_pos hspelled, entriesOf_filter_truthy] at h
    exact h
  · have hother : ¬(t = name ∨ t = upper name) := not_or.mpr ⟨hlower, hupper⟩
    rw [if_neg hother] at h
    have hpostgres : "postgres" ≠ "" := by decide
    have hdefault : LoginOf database [] { database := database } :=
      ⟨rfl, rfl, rfl, rfl, hpostgres, hpostgres, hdatabase⟩
    exact h.unique hdefault

/-- What is found in any spelling is found in any other. -/
theorem anyCase?_rel (h : List.Forall₂ RespelledEntry raw raw') (name : String) :
    Option.Rel (fun v v' => v = v' ∨ name ∈ sectionNames ∧ RecasedSection v v') (anyCase? raw name)
      (anyCase? raw' name) := by
  induction h with
  | nil => exact .none
  | @cons e e' _ _ hfirst _ ih =>
      obtain ⟨t, t', ht, ht', hcase, hvalue⟩ := hfirst
      rw [anyCase?, anyCase?, List.find?_cons, List.find?_cons, caseKey?_of_bare ht,
        caseKey?_of_bare ht', ← hcase]
      by_cases heq : lower t = name
      · rw [heq, beq_self_eq_true]
        exact .some (heq ▸ hvalue)
      · rw [beq_eq_false_iff_ne.mpr (heq ∘ Option.some.inj)]
        exact ih

/-- Keys that are respelled have the same lower forms. -/
theorem caseKeys_eq (h : List.Forall₂ RespelledEntry raw raw') :
    raw.map (fun e => caseKey? e.1) = raw'.map fun e => caseKey? e.1 := by
  induction h with
  | nil => rfl
  | @cons e e' _ _ hfirst _ ih =>
      obtain ⟨t, t', ht, ht', hcase, -⟩ := hfirst
      rw [List.map_cons, List.map_cons, ih, caseKey?_of_bare ht, caseKey?_of_bare ht', hcase]

theorem Respelled.apart' (h : Respelled raw raw') : KeysApart raw' := by
  rw [KeysApart, ← caseKeys_eq h.entries]
  exact h.apart

/-- A key that is respelled is put in lower case alike. -/
theorem lowerKey_of_recased {e' : Value × Value} (hkey : Recased e.1 e'.1) (hvalue : e.2 = e'.2) :
    lowerKey e = lowerKey e' := by
  obtain ⟨k, v⟩ := e
  obtain ⟨k', v'⟩ := e'
  obtain rfl : v = v' := hvalue
  rcases hkey with heq | ⟨t, t', ht, ht', hcase⟩
  · obtain rfl : k = k' := heq
    rfl
  · rw [lowerKey, lowerKey, Value.text?_of_bare ht, Value.text?_of_bare ht']
    exact congrArg (fun n => Except.ok (Value.str n, v)) hcase

/-- **A section with other letters in its keys** is read alike. -/
theorem mapM_lowerKey_of_recased {v v' : Value} (h : RecasedSection v v') :
    (entriesOf (some v)).mapM lowerKey = (entriesOf (some v')).mapM lowerKey := by
  rcases h with rfl | ⟨es, es', hv, hv', hkeys⟩
  · rfl
  · have hes : entriesOf (some v) = es := by rw [entriesOf, Option.map_some, hv]
    have hes' : entriesOf (some v') = es' := by rw [entriesOf, Option.map_some, hv']
    rw [hes, hes']
    clear hv hv' hes hes'
    induction hkeys with
    | nil => rfl
    | cons hfirst _ ih => rw [List.mapM_cons, List.mapM_cons, lowerKey_of_recased hfirst.1 hfirst.2,
        ih]

/-- **A section under a name in lower or upper case** is read alike from respelled settings. -/
theorem group_of_respelled (h : Respelled raw raw') (hspelled : Spelled raw)
    (hspelled' : Spelled raw')
    (hname : name ∈ sectionNames) : group raw' name = group raw name := by
  have hknown : name ∈ knownNames := List.mem_cons_of_mem _ hname
  have hfound := anyCase?_rel h.entries name
  rw [group_eq, group_eq, sectionOf, sectionOf, firstTruthy_of_spelled hknown h.apart hspelled,
    firstTruthy_of_spelled hknown h.apart' hspelled', entriesOf_filter_truthy,
      entriesOf_filter_truthy]
  generalize anyCase? raw name = v, anyCase? raw' name = v' at hfound
  cases hfound with
  | none => rfl
  | some hvalue =>
      have hsection : RecasedSection _ _ := hvalue.elim .inl And.right
      rw [mapM_lowerKey_of_recased hsection]

/-- The log level is read alike as well. -/
theorem logLevel_of_respelled (h : Respelled raw raw') (hspelled : Spelled raw)
    (hspelled' : Spelled raw') :
    logLevel raw' = logLevel raw := by
  have hknown : "clair_log_level" ∈ knownNames := List.mem_cons_self
  have hfound := anyCase?_rel h.entries "clair_log_level"
  rw [logLevel, logLevel, firstTruthy_of_spelled hknown h.apart hspelled,
    firstTruthy_of_spelled hknown h.apart' hspelled']
  generalize anyCase? raw "clair_log_level" = v, anyCase? raw' "clair_log_level" = v' at hfound
  cases hfound with
  | none => rfl
  | some hvalue =>
      have hno : "clair_log_level" ∉ sectionNames := by decide
      rw [hvalue.resolve_right fun hsection => hno hsection.1]

/-- **Settings in another spelling** are read alike, or refused alike, if the names that
settings are read from are in lower or upper case throughout. A login under such a name is
the one that its section describes; under any other spelling it is lost, and the default
login stands in its place. -/
theorem ofEntries_respelled (h : Respelled raw raw') :
    (Spelled raw → Spelled raw' → ofEntries raw' = ofEntries raw) ∧
      ∀ e ∈ raw, ∀ t, e.1.bare = .str t → ∀ s, ofEntries raw = .ok s →
        (lower t = "postgres" → LoginUnder "postgres" "quay" t e.2 s.registry) ∧
        (lower t = "clair_postgres" → LoginUnder "clair_postgres" "clair" t e.2 s.scanner) := by
  refine ⟨fun hspelled hspelled' => ?_, fun e he t ht s hs => ?_⟩
  · have hsections : ∀ name ∈ sectionNames, group raw' name = group raw name :=
      fun name hname => group_of_respelled h hspelled hspelled' hname
    rw [ofEntries_eq, ofEntries_eq, hsections "clair_postgres" (by decide),
      hsections "postgres" (by decide), logLevel_of_respelled h hspelled hspelled']
  · obtain ⟨-, -, hregistry, hscanner, -⟩ := ofEntries_eq_ok_iff.mp hs
    refine ⟨fun hcase => ?_, fun hcase => ?_⟩
    · exact loginUnder_of_mem (by decide) (by decide) h.apart he ht hcase hregistry
    · exact loginUnder_of_mem (by decide) (by decide) h.apart he ht hcase hscanner

/-- A login of the registry's database under some spelling of its section,
with a key in some spelling. -/
def loginEntries (name key : String) : Entries :=
  [(.str name, .map [(.str key, .str "admin")]), (.str "clair_log_level", .str "info")]

private theorem respelled_loginEntries {name name' key key' : String}
    (hname : lower name = "postgres")
    (hname' : lower name' = "postgres") (hkey : lower key = lower key') :
    Respelled (loginEntries name key) (loginEntries name' key') := by
  have hsection : RecasedSection (.map [(.str key, .str "admin")])
      (.map [(.str key', .str "admin")]) :=
    .inr ⟨_, _, rfl, rfl, .cons ⟨.inr ⟨key, key', rfl, rfl, hkey⟩, rfl⟩ .nil⟩
  have hlogin : lower name ∈ sectionNames := by
    rw [hname]
    decide
  refine ⟨?_, .cons ⟨name, name', rfl, rfl, hname.trans hname'.symm, .inr ⟨hlogin, hsection⟩⟩
    (.cons ⟨_, _, rfl, rfl, rfl, .inl rfl⟩ .nil)⟩
  have hkeys : (loginEntries name key).map (fun e => caseKey? e.1) =
    [some (lower name), some "clair_log_level"] := rfl
  rw [KeysApart, hkeys, hname]
  decide

/-- Settings that name the user of the registry's database and the log level. -/
def adminSettings : Settings :=
  { registry := { user := "admin" }, scannerLogLevel := "info" }

theorem ofEntries_respelled_upper :
    ofEntries (loginEntries "POSTGRES" "User") = .ok adminSettings ∧
      ofEntries (loginEntries "postgres" "uSER") = .ok adminSettings ∧
      LoginOf "quay" [(.str "User", .str "admin")] adminSettings.registry := by
  have hrespelled : Respelled (loginEntries "POSTGRES" "User") (loginEntries "postgres" "uSER") :=
    respelled_loginEntries (by decide) (by decide) (by decide)
  have hread : ofEntries (loginEntries "POSTGRES" "User") = .ok adminSettings :=
    toOption_eq_some.mp (by decide +kernel)
  have hspelled : ∀ name key, name = "postgres" ∨ name = "POSTGRES" →
      Spelled (loginEntries name key) := by
    intro name key hname e he t ht _
    rcases List.mem_cons.mp he with rfl | he
    · obtain rfl := Value.str.inj ht
      rcases hname with rfl | rfl
      · exact .inl (by decide)
      · exact .inr (by decide)
    · obtain rfl := List.mem_singleton.mp he
      obtain rfl := Value.str.inj ht
      exact .inl (by decide)
  obtain ⟨hsame, hlogin⟩ := ofEntries_respelled hrespelled
  refine ⟨hread, ?_, ?_⟩
  · rw [hsame (hspelled _ _ (.inr rfl)) (hspelled _ _ (.inl rfl)), hread]
  · exact ((hlogin _ List.mem_cons_self "POSTGRES" rfl _ hread).1 (by decide)).found (.inr rfl)

/-- **A spelling that is lost**: a login under `Postgres` is replaced by the default login, under
`postgres` it is not. -/
theorem spelling_lost :
    Respelled (loginEntries "postgres" "user") (loginEntries "Postgres" "user") ∧
      ofEntries (loginEntries "postgres" "user") = .ok adminSettings ∧
      ofEntries (loginEntries "Postgres" "user") = .ok { adminSettings with registry := {} } ∧
      adminSettings.registry ≠ {} :=
  ⟨respelled_loginEntries (by decide) (by decide) rfl, toOption_eq_some.mp (by decide +kernel),
    toOption_eq_some.mp (by decide +kernel), by decide⟩

end RegistryBundle.Settings
