import RegistryBundle.Proofs.Keys.Stored
import RegistryBundle.Proofs.Text.LetterCase
import RegistryBundle.Proofs.Value.Shown
import RegistryBundle.Settings.Basic

/-!
# Sections of the settings

A login is read from the section of its database: a mapping under a name in lower case or, if
nothing there counts as true, in upper case. In the section keys count in lower case, and of equal
ones the last counts.

* `Settings.sectionOf` is that mapping, `Settings.lastUnder` what stands in it under a key;
* `Credentials.Says` is the text that a value stands for, `Settings.LoginOf` the login that a
  section describes;
* `Settings.get?_group` says that what is looked up is what stands there, `Settings.exists_group`
  that there is something to look up unless a key has no text;
* `Settings.ofEntries_group_iff` is the main step, one login, and `Settings.ofEntries_eq_ok_iff`
  takes the settings apart;
* `Settings.ofEntries_cases` is the main statement.
-/

namespace RegistryBundle

open Value Outcome

/-! ## Texts of a login -/

namespace Credentials

variable {v : Value} {s : String}

/-- The text that a value of a login stands for: its own or that of its octets,
or the text of a number. -/
def Says (v : Value) (s : String) : Prop :=
  match v.bare with
  | .str t => s = t
  | .bytes b => String.fromUTF8? b = some s
  | .int _ | .float _ => v.text? = some s
  | _ => False

/-- The values that are never part of a login. -/
inductive Unfit : Value → Prop where
  | null : Unfit .null
  | truth (b : Bool) : Unfit (.bool b)
  | list (items : List Value) : Unfit (.list items)
  | mapping (entries : Entries) : Unfit (.map entries)
  | empty : Unfit (.str "")

private theorem nonEmpty_eq_fits_iff {t : String} : nonEmpty t = .fits s ↔ t = s ∧ s ≠ "" := by
  unfold nonEmpty
  split
  · next h =>
    refine iff_of_false nofun ?_
    rintro ⟨rfl, hne⟩
    exact hne h
  · next h =>
    rw [Checked.fits.injEq]
    exact ⟨fun heq => ⟨heq, heq ▸ h⟩, And.left⟩

/-- What is taken as a text is what is said. -/
theorem asText_eq_fits_iff : asText v = .fits s ↔ Says v s := by
  unfold asText Says
  rw [← text?_bare v]
  have hbare := bare_bare v
  generalize v.bare = w at hbare
  cases w with
  | int n =>
      have htext : (.int n : Value).text? = (intText? n).map String.ofList := rfl
      simp only [htext]
      cases intText? n with
      | some cs => simp
      | none => simp [Checked.issue]
  | float x =>
      have htext : (.float x : Value).text? =
          some (String.ofList (x.toText Binary64.plainFormat)) := rfl
      simp only [htext, Checked.fits.injEq, Option.some.injEq]
  | str t => simpa using eq_comm
  | broken hletters => exact absurd hletters Alphabet.characters_ne_letters
  | bytes b => simp [Schema.text_eq_fits_iff, Value.ownText?, hbare, Schema.decoded]
  | _ => simp only [Schema.text_eq_fits_iff, Value.ownText?, hbare, reduceCtorEq]

/-- **A text of a login** is what its value says, unless that is empty. -/
theorem loginText_eq_fits_iff : loginText v = .fits s ↔ Says v s ∧ s ≠ "" := by
  rw [loginText, ← asText_eq_fits_iff]
  cases asText v with
  | fits t => rw [Checked.andThen, nonEmpty_eq_fits_iff, Checked.fits.injEq]
  | issues all => simp [Checked.andThen]

theorem Unfit.not_says (h : Unfit v.bare) (hs : s ≠ "") : ¬Says v s := by
  unfold Says
  generalize v.bare = w at h
  cases h with
  | empty => exact hs
  | null | truth b | list items | mapping entries => exact id

end Credentials

namespace Settings

open Credentials

variable {raw es : Entries} {name : String} {c : Credentials} {s : Settings}

/-! ## The entries of a section -/

/-- A key as a text in lower case. -/
def loweredKey? (k : Value) : Option String :=
  k.text?.map fun t => String.ofList (LetterCase.lowerText t.toList)

/-- What stands under a key that counts in lower case; of several entries the last. -/
def lastUnder (key : String) (es : Entries) : Option Value :=
  (es.reverse.find? fun e => loweredKey? e.1 == some key).map Prod.snd

/-- The entries of the section that a value is. -/
def entriesOf (v : Option Value) : Entries :=
  match v.map Value.bare with
  | some (.map es) => es
  | _ => []

/-- The entries of the section that counts under a name. -/
def sectionOf (raw : Entries) (name : String) : Entries :=
  entriesOf (firstTruthy raw name)

/-- The names of the parts of a login. -/
def partNames : List String := ["user", "password", "database", "port"]

private theorem isApart_of_mem_partNames :
    ∀ part ∈ partNames, ∀ c ∈ part.toList, LetterCase.IsApart c := by
  have hletters : ∀ part ∈ partNames, part.toList.all (fun c => decide (LetterCase.IsApart c)) =
    true := by decide
  intro part hpart c hc
  exact of_decide_eq_true (List.all_eq_true.mp (hletters part hpart) c hc)

/-- A text is the name of a part in lower case of ASCII exactly if it is in
lower case of all scripts. -/
theorem loweredKey?_eq_some_iff {k : Value} {part : String} (hpart : part ∈ partNames) :
    loweredKey? k = some part ↔ k.text?.map lower = some part := by
  rw [loweredKey?]
  cases k.text? with
  | none => exact iff_of_false nofun nofun
  | some t =>
      have hiff : LetterCase.lowerText t.toList = part.toList ↔
          t.toList.map Char.toLower = part.toList :=
        LetterCase.lowerText_eq_iff (isApart_of_mem_partNames part hpart)
      simp only [Option.map_some, Option.some.injEq, lower, ← String.toList_inj,
        String.toList_ofList]
      exact hiff

/-- Keys are put in lower case one by one. -/
theorem exists_mapM_lowerKey {l : Entries} (h : es.mapM lowerKey = .ok l) :
    ∃ t : Table Value, l = t.entries ∧
      List.Forall₂ (fun e f => e.1.text?.map lower = some f.1 ∧ e.2 = f.2) es t := by
  induction es generalizing l with
  | nil =>
      obtain rfl := Except.ok.inj h
      exact ⟨[], rfl, .nil⟩
  | cons e rest ih =>
      rw [List.mapM_cons] at h
      obtain ⟨f, hf, h⟩ := bind_eq_ok.mp h
      obtain ⟨m, hm, h⟩ := bind_eq_ok.mp h
      obtain rfl := Except.ok.inj h
      obtain ⟨t, rfl, hrest⟩ := ih hm
      unfold lowerKey at hf
      split at hf
      · next k hk =>
        obtain rfl := Except.ok.inj hf
        exact ⟨(lower k, e.2) :: t, rfl, .cons ⟨by rw [hk, Option.map_some], rfl⟩ hrest⟩
      · contradiction

/-- What is read as a section are its entries. -/
theorem group_eq (raw : Entries) (name : String) :
    group raw name = ((sectionOf raw name).mapM lowerKey).map Value.ofList := by
  rw [group, sectionOf, entriesOf]
  cases (firstTruthy raw name).map Value.bare with
  | none => rfl
  | some v => cases v <;> rfl

/-- **What is looked up in a section** is the last entry under a key in lower case. -/
theorem get?_group (h : group raw name = .ok es) {part : String} (hpart : part ∈ partNames) :
    Value.get? es part = lastUnder part (sectionOf raw name) := by
  rw [group_eq] at h
  obtain ⟨l, hl, rfl⟩ := map_eq_ok.mp h
  obtain ⟨t, rfl, hread⟩ := exists_mapM_lowerKey hl
  -- Keys are put in lower case in ASCII alone; for the names of parts that is as good as in all
  -- scripts.
  have hrel := Table.rel_lookup_ofList (fun k => k.text?.map lower) hread part
  have hsame : (fun e : Value × Value => e.1.text?.map lower == some part) = fun e =>
      loweredKey? e.1 == some part := by
    funext e
    rw [Bool.eq_iff_iff, beq_iff_eq, beq_iff_eq, loweredKey?_eq_some_iff hpart]
  rw [hsame, ← lastUnder] at hrel
  rw [← Table.entries_ofList, Table.get?_entries]
  generalize lastUnder part (sectionOf raw name) = entry, (Table.ofList t).lookup part =
    found at hrel
  cases hrel with
  | none => rfl
  | some heq => rw [heq]

/-- A section holds no part that is not in the settings. -/
private theorem holds_sectionOf {p : Value → Bool} (h : holdsEntries p raw = false)
    (name : String) :
    holdsEntries p (sectionOf raw name) = false := by
  rw [sectionOf, entriesOf]
  split
  · next es hes =>
    obtain ⟨v, hv, hbare⟩ := Option.map_eq_some_iff.mp hes
    have hget : ∃ n, Value.get? raw n = some v := by
      rw [firstTruthy, Option.or_eq_some_iff] at hv
      rcases hv with hv | ⟨-, hv⟩
      · exact ⟨_, (Option.filter_eq_some_iff.mp hv).1⟩
      · exact ⟨_, (Option.filter_eq_some_iff.mp hv).1⟩
    obtain ⟨n, hn⟩ := hget
    have hholds := holds_bare (holds_of_get? h hn)
    rw [hbare] at hholds
    exact (Bool.or_eq_false_iff.mp hholds).2
  · rfl

/-- **A section is read** if its keys have a text. -/
theorem exists_group (h : holdsEntries isLong raw = false) (name : String) :
    ∃ es, group raw name = .ok es := by
  have hkeys : ∃ l, (sectionOf raw name).mapM lowerKey = .ok l := by
    refine exists_mapM_eq_ok fun e he => ?_
    obtain ⟨t, ht⟩ := exists_text? (holds_of_mem (holds_sectionOf h name) he).1
    exact ⟨_, by rw [lowerKey, ht]⟩
  obtain ⟨l, hl⟩ := hkeys
  exact ⟨_, by rw [group_eq, hl, map_ok]⟩

/-! ## Logins -/

/-- The value of a part of a login: what is read from an entry, or the
default where there is none. -/
def ReadFrom {α : Type} (R : Value → α → Prop) (default : α) : Option Value → α → Prop
  | some v, a => R v a
  | none, a => a = default

/-- The login that a section describes. -/
structure LoginOf (database : String) (es : Entries) (c : Credentials) : Prop where
  user : ReadFrom Says "postgres" (lastUnder "user" es) c.user
  password : ReadFrom Says "postgres" (lastUnder "password" es) c.password
  database : ReadFrom Says database (lastUnder "database" es) c.database
  port : ReadFrom (fun v n => Schema.whole v = .fits n) 5432 (lastUnder "port" es) c.port
  filled : c.user ≠ "" ∧ c.password ≠ "" ∧ c.database ≠ ""

/-- A field fits as its entry does. -/
private theorem field_eq_fits_iff {α : Type} {check : Value → Checked α} {default a : α}
    {part : String} :
    Schema.field check default [part] es = .fits a ↔
      ReadFrom (fun v b => check v = .fits b) default (Value.get? es part) a := by
  rw [Schema.field, Schema.findFirst]
  cases Value.get? es part with
  | some v => exact Checked.under_eq_fits_iff
  | none => exact ⟨fun h => (Checked.fits.inj h).symm, fun h => congrArg _ h.symm⟩

/-- A text of a login is not empty, and it is what its entry says. -/
private theorem readFrom_loginText_iff {default s : String} (hdefault : default ≠ "")
    {entry : Option Value} :
    ReadFrom (fun v t => loginText v = .fits t) default entry s ↔ ReadFrom Says default entry s ∧
      s ≠ "" := by
  cases entry with
  | some v => exact loginText_eq_fits_iff
  | none => exact ⟨fun h => ⟨h, fun hs => hdefault (h.symm.trans hs)⟩, And.left⟩

/-- A login fits exactly if its parts do. -/
private theorem credentials_eq_fits_iff {database : String} :
    Credentials.ofEntries database es = .fits c ↔
      Schema.field loginText "postgres" ["user"] es = .fits c.user ∧
        Schema.field loginText "postgres" ["password"] es = .fits c.password ∧
        Schema.field loginText database ["database"] es = .fits c.database ∧
        Schema.field Schema.whole 5432 ["port"] es = .fits c.port := by
  rw [Credentials.ofEntries]
  constructor
  · intro h
    obtain ⟨_, port, hthree, hport, rfl⟩ := Checked.seq_eq_fits_iff.mp h
    obtain ⟨_, base, htwo, hbase, rfl⟩ := Checked.seq_eq_fits_iff.mp hthree
    obtain ⟨_, password, hone, hpassword, rfl⟩ := Checked.seq_eq_fits_iff.mp htwo
    obtain ⟨user, huser, rfl⟩ := Checked.map_eq_fits_iff.mp hone
    exact ⟨huser, hpassword, hbase, hport⟩
  · rintro ⟨huser, hpassword, hbase, hport⟩
    rw [huser, hpassword, hbase, hport]
    rfl

/-- **A login is read from a section** exactly if the section describes it. -/
theorem ofEntries_group_iff {database : String} (hdatabase : database ≠ "")
    (h : group raw name = .ok es) :
    Credentials.ofEntries database es = .fits c ↔ LoginOf database (sectionOf raw name) c := by
  have hdefault : "postgres" ≠ "" := by decide
  rw [credentials_eq_fits_iff, field_eq_fits_iff, field_eq_fits_iff, field_eq_fits_iff,
    field_eq_fits_iff, get?_group h (by decide), get?_group h (by decide), get?_group h (by decide),
    get?_group h (by decide), readFrom_loginText_iff hdefault, readFrom_loginText_iff hdefault,
    readFrom_loginText_iff hdatabase]
  constructor
  · rintro ⟨⟨huser, huser'⟩, ⟨hpassword, hpassword'⟩, ⟨hbase, hbase'⟩, hport⟩
    exact ⟨huser, hpassword, hbase, hport, huser', hpassword', hbase'⟩
  · intro hlogin
    exact ⟨⟨hlogin.user, hlogin.filled.1⟩, ⟨hlogin.password, hlogin.filled.2.1⟩,
      ⟨hlogin.database, hlogin.filled.2.2⟩, hlogin.port⟩

/-! ## Settings -/

/-- The settings whose parts are checked, with the issues of all of them. -/
def checkedSettings (registry scanner : Entries) (level : Checked String) : Checked Settings :=
  Settings.mk <$> (Credentials.ofEntries "quay" registry).under (.name "postgres")
    <*> (Credentials.ofEntries "clair" scanner).under (.name "clair_postgres")
    <*> level

private theorem checkedSettings_eq_fits_iff {registry scanner : Entries} {level : Checked String} :
    checkedSettings registry scanner level = .fits s ↔
      Credentials.ofEntries "quay" registry = .fits s.registry ∧
        Credentials.ofEntries "clair" scanner = .fits s.scanner ∧
          level = .fits s.scannerLogLevel := by
  rw [checkedSettings]
  constructor
  · intro h
    obtain ⟨_, level, htwo, hlevel, rfl⟩ := Checked.seq_eq_fits_iff.mp h
    obtain ⟨_, scanner, hone, hscanner, rfl⟩ := Checked.seq_eq_fits_iff.mp htwo
    obtain ⟨registry, hregistry, rfl⟩ := Checked.map_eq_fits_iff.mp hone
    exact ⟨Checked.under_eq_fits_iff.mp hregistry, Checked.under_eq_fits_iff.mp hscanner, hlevel⟩
  · rintro ⟨hregistry, hscanner, hlevel⟩
    rw [hregistry, hscanner, hlevel]
    rfl

/-- Settings are read from their two sections, the log level beside them. -/
theorem ofEntries_eq (raw : Entries) :
    ofEntries raw = group raw "clair_postgres" >>= fun scanner =>
      group raw "postgres" >>= fun registry =>
      (checkedSettings registry scanner (logLevel raw)).orFail fun issues =>
      .config (.settingsRejected issues) :=
  rfl

/-- **Settings that are read** have the logins of their sections. -/
theorem ofEntries_eq_ok_iff :
    ofEntries raw = .ok s ↔
      (∃ es, group raw "postgres" = .ok es) ∧ (∃ es, group raw "clair_postgres" = .ok es) ∧
        LoginOf "quay" (sectionOf raw "postgres") s.registry ∧
        LoginOf "clair" (sectionOf raw "clair_postgres") s.scanner ∧
          logLevel raw = .fits s.scannerLogLevel := by
  rw [ofEntries_eq]
  constructor
  · intro h
    obtain ⟨scanner, hscanner, h⟩ := bind_eq_ok.mp h
    obtain ⟨registry, hregistry, h⟩ := bind_eq_ok.mp h
    have hchecked : checkedSettings registry scanner (logLevel raw) = .fits s := by
      generalize checkedSettings registry scanner (logLevel raw) = x at h
      cases x with
      | fits t => exact congrArg _ (Except.ok.inj h)
      | issues all => exact nomatch h
    rw [checkedSettings_eq_fits_iff, ofEntries_group_iff (by decide) hregistry,
      ofEntries_group_iff (by decide) hscanner] at hchecked
    exact ⟨⟨registry, hregistry⟩, ⟨scanner, hscanner⟩, hchecked⟩
  · rintro ⟨⟨registry, hregistry⟩, ⟨scanner, hscanner⟩, hlogins⟩
    rw [← ofEntries_group_iff (by decide) hregistry, ← ofEntries_group_iff (by decide) hscanner,
      ← checkedSettings_eq_fits_iff] at hlogins
    rw [hscanner, ok_bind, hregistry, ok_bind, hlogins]
    rfl

/-- **Settings that are not read** are refused for what stands in them. -/
private theorem ofEntries_ends (h : holdsEntries isLong raw = false) :
    (∃ s, ofEntries raw = .ok s) ∨
      ∃ issues, ofEntries raw = .error (.config (.settingsRejected issues)) := by
  obtain ⟨registry, hregistry⟩ := exists_group h "postgres"
  obtain ⟨scanner, hscanner⟩ := exists_group h "clair_postgres"
  rw [ofEntries_eq, hscanner, ok_bind, hregistry, ok_bind]
  cases checkedSettings registry scanner (logLevel raw) with
  | fits s => exact .inl ⟨s, rfl⟩
  | issues all => exact .inr ⟨all, rfl⟩

/-- A section describes one login. -/
theorem LoginOf.unique {database : String} {c' : Credentials} (h : LoginOf database es c)
    (h' : LoginOf database es c') :
    c = c' := by
  have hsays : ∀ {default t t' : String} {entry : Option Value}, ReadFrom Says default entry t →
      ReadFrom Says default entry t' → t = t' := by
    intro default t t' entry ht ht'
    cases entry with
    | some v => exact Checked.fits.inj ((asText_eq_fits_iff.mpr ht).symm.trans
        (asText_eq_fits_iff.mpr ht'))
    | none => exact ht.trans ht'.symm
  have hport : c.port = c'.port := by
    have hp := h.port
    have hp' := h'.port
    generalize lastUnder "port" es = entry at hp hp'
    cases entry with
    | some v => exact Checked.fits.inj (hp.symm.trans hp')
    | none => exact hp.trans hp'.symm
  obtain ⟨user, password, base, port⟩ := c
  obtain ⟨user', password', base', port'⟩ := c'
  obtain rfl : user = user' := hsays h.user h'.user
  obtain rfl : password = password' := hsays h.password h'.password
  obtain rfl : base = base' := hsays h.database h'.database
  obtain rfl : port = port' := hport
  rfl

/-- No text of a login is read from a value that is never part of one. -/
theorem LoginOf.not_unfit {database part : String} {v : Value} (h : LoginOf database es c)
    (hpart : part ∈ ["user", "password", "database"]) (hv : lastUnder part es = some v) :
      ¬Unfit v.bare := by
  have hread : ∀ {default t : String}, ReadFrom Says default (lastUnder part es) t → t ≠ "" →
      ¬Unfit v.bare := by
    intro default t ht hne hunfit
    rw [hv] at ht
    exact hunfit.not_says hne ht
  simp only [List.mem_cons, List.not_mem_nil, or_false] at hpart
  rcases hpart with rfl | rfl | rfl
  · exact hread h.user h.filled.1
  · exact hread h.password h.filled.2.1
  · exact hread h.database h.filled.2.2

/-- A section depends on what stands under its name. -/
private theorem sectionOf_congr {raw' : Entries} (h : Value.get? raw' name = Value.get? raw name)
    (h' : Value.get? raw' (String.ofList (name.toList.map Char.toUpper)) =
      Value.get? raw (String.ofList (name.toList.map Char.toUpper))) : sectionOf raw' name =
        sectionOf raw name := by
  rw [sectionOf, sectionOf, firstTruthy, firstTruthy, h, h']

/-- **Settings without long numbers** are read or refused. They are read exactly if both
sections describe logins and the log level is a text, and each login is the one that its
section describes, whatever stands in the other section; a section with a value that is never
part of a login is refused. -/
theorem ofEntries_cases (hlong : holdsEntries isLong raw = false) :
    ((∃ s, ofEntries raw = .ok s) ∨
      ∃ issues, ofEntries raw = .error (.config (.settingsRejected issues))) ∧
      (∀ s, ofEntries raw = .ok s ↔ LoginOf "quay" (sectionOf raw "postgres") s.registry ∧
        LoginOf "clair" (sectionOf raw "clair_postgres") s.scanner ∧
          logLevel raw = .fits s.scannerLogLevel) ∧
      (∀ name ∈ ["postgres", "clair_postgres"], ∀ part ∈ ["user", "password", "database"],
        ∀ v : Value, lastUnder part (sectionOf raw name) = some v → Unfit v.bare →
          ∃ issues, ofEntries raw = .error (.config (.settingsRejected issues))) ∧
      ∀ raw' s s', ofEntries raw = .ok s → ofEntries raw' = .ok s' →
        (Value.get? raw' "postgres" = Value.get? raw "postgres" →
          Value.get? raw' "POSTGRES" = Value.get? raw "POSTGRES" → s'.registry = s.registry) ∧
        (Value.get? raw' "clair_postgres" = Value.get? raw "clair_postgres" →
          Value.get? raw' "CLAIR_POSTGRES" = Value.get? raw "CLAIR_POSTGRES" →
            s'.scanner = s.scanner) := by
  have hends := ofEntries_ends hlong
  have hread : ∀ s, ofEntries raw = .ok s ↔ LoginOf "quay" (sectionOf raw "postgres") s.registry ∧
      LoginOf "clair" (sectionOf raw "clair_postgres") s.scanner ∧
        logLevel raw = .fits s.scannerLogLevel := by
    intro s
    rw [ofEntries_eq_ok_iff, and_iff_right (exists_group hlong _),
      and_iff_right (exists_group hlong _)]
  refine ⟨hends, hread, ?_, ?_⟩
  · intro name hname part hpart v hv hunfit
    refine hends.resolve_left ?_
    rintro ⟨s, h⟩
    obtain ⟨hregistry, hscanner, -⟩ := (hread s).mp h
    rcases List.mem_cons.mp hname with rfl | hname
    · exact hregistry.not_unfit hpart hv hunfit
    · obtain rfl := List.mem_singleton.mp hname
      exact hscanner.not_unfit hpart hv hunfit
  · intro raw' s s' h h'
    obtain ⟨-, -, hregistry, hscanner, -⟩ := ofEntries_eq_ok_iff.mp h
    obtain ⟨-, -, hregistry', hscanner', -⟩ := ofEntries_eq_ok_iff.mp h'
    refine ⟨fun hlower hupper => ?_, fun hlower hupper => ?_⟩
    · rw [sectionOf_congr hlower hupper] at hregistry'
      exact hregistry'.unique hregistry
    · rw [sectionOf_congr hlower hupper] at hscanner'
      exact hscanner'.unique hscanner

/-- Sections in upper case, as the one in lower case is empty, and in lower case; a key twice, and
values of several kinds. -/
def mixedEntries : Entries :=
  [(.str "postgres", .map []), (.int 7, .list [.null]),
    (.str "POSTGRES", .map [(.str "User", .null), (.str "USER", .bytes ⟨#[0xC3, 0xA9]⟩),
      (.str "password", .int (-12)), (.bool true, .null)]),
    (.str "clair_postgres", .map [(.str "DataBase", .float (.ofRatio false 1 2))])]

/-- What is read from them. -/
def mixedSettings : Settings :=
  { registry := { user := "é", password := "-12" }, scanner := { database := "0.5" } }

/-- A truth value as the password of the scanner. -/
def unfitEntries : Entries :=
  [(.str "CLAIR_POSTGRES", .map [(.str "Password", .bool true)])]

theorem ofEntries_cases_mixed :
    ofEntries mixedEntries = .ok mixedSettings ∧
      LoginOf "quay" (sectionOf mixedEntries "postgres") mixedSettings.registry ∧
      LoginOf "clair" (sectionOf mixedEntries "clair_postgres") mixedSettings.scanner ∧
      (∃ issues, ofEntries unfitEntries = .error (.config (.settingsRejected issues))) ∧
      ∀ v s, ofEntries (Value.put mixedEntries (.str "clair_postgres") v) = .ok s →
        s.registry = mixedSettings.registry := by
  have hmixed : ofEntries mixedEntries = .ok mixedSettings :=
    toOption_eq_some.mp (by decide +kernel)
  have hpassword : lastUnder "password" (sectionOf unfitEntries "clair_postgres") =
    some (.bool true) := rfl
  obtain ⟨-, hread, -, hapart⟩ := @ofEntries_cases mixedEntries (by decide +kernel)
  obtain ⟨hregistry, hscanner, -⟩ := (hread _).mp hmixed
  obtain ⟨-, -, hrefused, -⟩ := @ofEntries_cases unfitEntries (by decide +kernel)
  refine ⟨hmixed, hregistry, hscanner, ?_, fun v s h => ?_⟩
  · exact hrefused "clair_postgres" (by decide) "password" (by decide) _ hpassword (.truth true)
  · exact (hapart _ _ _ hmixed h).1 (Value.get?_put_other (by decide) v)
      (Value.get?_put_other (by decide) v)

end Settings

end RegistryBundle
