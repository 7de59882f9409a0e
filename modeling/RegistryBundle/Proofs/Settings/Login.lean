import RegistryBundle.FieldGroup.Synthesis
import RegistryBundle.Proofs.Pass.Refusals
import RegistryBundle.Proofs.Yaml.WholeNumbers
import RegistryBundle.ScannerConfig

/-!
# Logins in addresses and connections

A login stands in the address of the registry's database and in the connection of the scanner's
database as it is given: no part of it is escaped or put in quotes, so a part that holds a separator
may be taken for two.

* `Reading.before` and `Reading.behind` cut a text at the first occurrence of a character,
  `Reading.beforeLast` and `Reading.behindLast` at the last one;
* `Credentials.ofUri` reads the login of an address, `Credentials.ofUri_uri_iff` says which logins
  it reads as they were;
* `Credentials.splitOn_connection_iff` says which logins make a connection of six words.
-/

namespace RegistryBundle

open Yaml

/-! ## Cuts -/

namespace Reading

variable {separator : Char} {a b : List Char}

/-- The text in front of the first occurrence of a character. -/
def before (separator : Char) (cs : List Char) : List Char :=
  cs.takeWhile (· != separator)

/-- The text behind it. -/
def behind (separator : Char) (cs : List Char) : List Char :=
  (cs.dropWhile (· != separator)).drop 1

/-- The text in front of the last occurrence of a character. -/
def beforeLast (separator : Char) (cs : List Char) : List Char :=
  (behind separator cs.reverse).reverse

/-- The text behind it. -/
def behindLast (separator : Char) (cs : List Char) : List Char :=
  (before separator cs.reverse).reverse

private theorem before_append (h : separator ∉ a) (b : List Char) :
    before separator (a ++ separator :: b) = a := by
  have hall : ∀ c ∈ a, (c != separator) = true := fun c hc => bne_iff_ne.mpr fun heq => h (heq ▸ hc)
  rw [before, List.takeWhile_append_of_pos hall, List.takeWhile_cons, bne_self_eq_false,
    if_neg Bool.false_ne_true, List.append_nil]

private theorem behind_append (h : separator ∉ a) (b : List Char) :
    behind separator (a ++ separator :: b) = b := by
  have hall : ∀ c ∈ a, (c != separator) = true := fun c hc => bne_iff_ne.mpr fun heq => h (heq ▸ hc)
  rw [behind, List.dropWhile_append_of_pos hall, List.dropWhile_cons, bne_self_eq_false,
    if_neg Bool.false_ne_true]
  rfl

private theorem reverse_append_cons (a b : List Char) :
    (a ++ separator :: b).reverse = b.reverse ++ separator :: a.reverse := by
  rw [List.reverse_append, List.reverse_cons, List.append_assoc, List.singleton_append]

private theorem beforeLast_append (h : separator ∉ b) (a : List Char) :
    beforeLast separator (a ++ separator :: b) = a := by
  rw [beforeLast, reverse_append_cons, behind_append (fun hm => h (List.mem_reverse.mp hm)),
    List.reverse_reverse]

private theorem behindLast_append (h : separator ∉ b) (a : List Char) :
    behindLast separator (a ++ separator :: b) = b := by
  rw [behindLast, reverse_append_cons, before_append (fun hm => h (List.mem_reverse.mp hm)),
    List.reverse_reverse]

private theorem notMem_before (separator : Char) (cs : List Char) :
    separator ∉ before separator cs := by
  intro hm
  have hall : (before separator cs).all (· != separator) = true := List.all_takeWhile
  exact bne_iff_ne.mp (List.all_eq_true.mp hall separator hm) rfl

private theorem notMem_behindLast (separator : Char) (cs : List Char) :
    separator ∉ behindLast separator cs :=
  fun hm => notMem_before separator cs.reverse (List.mem_reverse.mp hm)

/-- The parts between the occurrences of a character do not hold it. -/
theorem notMem_of_mem_splitOn {cs : List Char} (h : a ∈ cs.splitOn separator) : separator ∉ a := by
  induction cs generalizing a with
  | nil =>
      rw [List.splitOn_nil, List.mem_singleton] at h
      rw [h]
      exact List.not_mem_nil
  | cons c rest ih =>
      rw [List.splitOn_cons_eq_if_modifyHead] at h
      split at h
      · rcases List.mem_cons.mp h with rfl | h
        · exact List.not_mem_nil
        · exact ih h
      · next hne =>
          obtain ⟨first, more, hparts⟩ :=
            List.exists_cons_of_ne_nil (List.splitOn_ne_nil separator rest)
          rw [hparts] at h ih
          rcases List.mem_cons.mp h with rfl | h
          · rw [List.mem_cons, not_or]
            exact ⟨fun heq => hne (beq_iff_eq.mpr heq.symm), ih List.mem_cons_self⟩
          · exact ih (List.mem_cons_of_mem first h)

/-- The whole number that a sign and digits write. -/
def decimal (cs : List Char) : Int :=
  let (negative, ds) := Binary64.takeSign cs
  let n := Nat.ofDigitChars 10 ds 0
  if negative then -(n : Int) else n

/-- A whole number is read from its text. -/
theorem decimal_intText (n : Int) : decimal (intText n) = n := by
  rw [decimal, (Yaml.decimal_intText n).unsigned.2]
  simp only [Nat.ofDigitChars_ten_toDigits, decide_eq_true_eq]
  split <;> omega

/-- The text of a whole number has digits and a sign only. -/
theorem notMem_intText {c : Char} (hdigit : c.isDigit = false) (hsign : c ≠ '-') (n : Int) :
    c ∉ intText n := by
  intro hm
  rcases (Yaml.decimal_intText n).mem hm with hc | rfl
  · rw [hdigit] at hc
    exact Bool.false_ne_true hc
  · exact hsign rfl

end Reading

namespace Credentials

open Reading

variable {c c' : Credentials} {d : Descriptor}

/-! ## The address of the registry's database -/

/-- The text between the password and the port in the address of a registry's database. -/
def host (d : Descriptor) : List Char :=
  '@' :: (d.name ++ "-quay-postgres").toList

/-- The login in the address of a registry's database: the user up to the first colon behind the
scheme, the database from the last slash on, the port from the last colon before it on, and the
password between them, without the host. -/
def ofUri (d : Descriptor) (uri : String) : Credentials :=
  let login := uri.toList.drop "postgresql://".length
  let rest := behind ':' login
  let authority := beforeLast '/' rest
  let secret := beforeLast ':' authority
  { user := String.ofList (before ':' login)
    password := String.ofList (secret.take (secret.length - (host d).length))
    database := String.ofList (behindLast '/' rest)
    port := decimal (behindLast ':' authority) }

/-- A login whose user holds no colon and whose database holds no slash. -/
structure Separable (c : Credentials) : Prop where
  user : ':' ∉ c.user.toList
  database : '/' ∉ c.database.toList

private theorem toList_uri (c : Credentials) (d : Descriptor) :
    (c.uri d).toList = "postgresql://".toList ++ (c.user.toList ++ ':' ::
      ((c.password.toList ++ host d ++ ':' :: intText c.port) ++ '/' :: c.database.toList)) := by
  have huri : c.uri d = "postgresql://" ++ c.user ++ ":" ++ c.password ++ "@" ++ d.name ++
      "-quay-postgres:" ++ String.ofList (intText c.port) ++ "/" ++ c.database := rfl
  have hhost : "-quay-postgres:".toList = "-quay-postgres".toList ++ [':'] := rfl
  rw [huri, host]
  simp only [String.toList_append, String.toList_ofList, hhost, List.append_assoc, List.cons_append]
  rfl

/-- **The login in an address** is the one that the address was made of,
exactly if that is separable. -/
theorem ofUri_uri_iff (c : Credentials) (d : Descriptor) : ofUri d (c.uri d) = c ↔ c.Separable := by
  constructor
  · intro h
    -- What is cut off at a character does not hold it.
    refine ⟨?_, ?_⟩
    · have huser : c.user = String.ofList _ := (congrArg Credentials.user h).symm
      rw [huser, String.toList_ofList]
      exact notMem_before ':' _
    · have hdatabase : c.database = String.ofList _ := (congrArg Credentials.database h).symm
      rw [hdatabase, String.toList_ofList]
      exact notMem_behindLast '/' _
  · intro h
    -- The password may hold anything: the host behind it is known, and so is where the port and the
    -- database begin.
    have hport : ':' ∉ intText c.port := notMem_intText (by decide) (by decide) c.port
    have hlogin : (c.uri d).toList.drop "postgresql://".length =
        c.user.toList ++ ':' ::
          ((c.password.toList ++ host d ++ ':' :: intText c.port) ++ '/' :: c.database.toList) := by
      rw [toList_uri]
      rfl
    have hsecret : (c.password.toList ++ host d).take
      ((c.password.toList ++ host d).length - (host d).length) =
        c.password.toList := by
      rw [List.length_append, Nat.add_sub_cancel, List.take_left]
    simp only [ofUri, hlogin, before_append h.user, behind_append h.user,
      beforeLast_append h.database, behindLast_append h.database, beforeLast_append hport,
      behindLast_append hport, hsecret, Reading.decimal_intText, String.ofList_toList]

/-- **The address determines the login.** Both logins have one, and from the address of a separable
login its parts are read, so two such logins that differ have different addresses. -/
theorem uri_determines_login (d : Descriptor) (settings settings' : Settings)
    (h : settings.registry.writable = true) (h' : settings'.registry.writable = true) :
    ∃ group group' : DatabaseGroup,
      FieldGroup.synthesize settings d .postgres = .ok (some (.database group)) ∧
      FieldGroup.synthesize settings' d .postgres = .ok (some (.database group')) ∧
      (group.uri.map (ofUri d) = some settings.registry ↔ settings.registry.Separable) ∧
      (settings.registry.Separable → settings'.registry.Separable →
        settings.registry ≠ settings'.registry → group.uri ≠ group'.uri) := by
  refine ⟨_, _, FieldGroup.synthesize_of_writable h d .postgres,
    FieldGroup.synthesize_of_writable h' d .postgres, ?_, ?_⟩
  · rw [← ofUri_uri_iff settings.registry d]
    exact Option.some_inj
  · intro hapart hapart' hne heq
    have huri : settings.registry.uri d = settings'.registry.uri d := Option.some.inj heq
    apply hne
    rw [← (ofUri_uri_iff settings.registry d).mpr hapart, huri]
    exact (ofUri_uri_iff settings'.registry d).mpr hapart'

/-- A login with separators wherever they do no harm. -/
def knottyLogin : Credentials :=
  { user := "a@b/c", password := "p:q@r-quay-postgres:1/d", database := "e:f@g", port := -1 }

/-- The address of that login determines it. -/
theorem uri_determines_login_knotty :
    ∃ group : DatabaseGroup,
      FieldGroup.synthesize { registry := knottyLogin } { name := "r" } .postgres =
        .ok (some (.database group)) ∧
      group.uri.map (ofUri { name := "r" }) = some knottyLogin ∧
      group.uri ≠ some (({} : Credentials).uri { name := "r" }) := by
  have hapart : knottyLogin.Separable := ⟨by decide, by decide⟩
  obtain ⟨group, group', hgroup, hgroup', hread, hdiffer⟩ :=
    uri_determines_login { name := "r" } { registry := knottyLogin } {} rfl rfl
  obtain rfl : DatabaseGroup.ofDescriptor {} { name := "r" } = group' :=
    FieldGroup.database.inj (Option.some.inj (Except.ok.inj hgroup'))
  exact ⟨group, hgroup, hread.mpr hapart, hdiffer hapart ⟨by decide, by decide⟩ (by decide)⟩

/-- A login on a port with one digit too many. -/
def farLogin (database : String) : Credentials :=
  { database := database, port := Value.longNumber }

theorem writable_farLogin (database : String) : (farLogin database).writable = false := by
  rw [writable, farLogin, Value.intText?_longNumber]
  rfl

/-- **Logins that share an address**, or have none: a colon may stand in the user or in front of the
password, a slash in the password or in the database, and a port may be too long to be written. -/
theorem address_shared : ∃ a b a' b' : Credentials, ∃ group group' : DatabaseGroup,
    ofEntries "quay" [(.str "user", .str "a:b"), (.str "password", .str "c")] = .fits a ∧
    ofEntries "quay" [(.str "user", .str "a"), (.str "password", .str "b:c")] = .fits b ∧ a ≠ b ∧
    FieldGroup.synthesize { registry := a } { name := "r" } .postgres =
      .ok (some (.database group)) ∧
    FieldGroup.synthesize { registry := b } { name := "r" } .postgres =
      .ok (some (.database group)) ∧
    ofEntries "quay" [(.str "password", .str "p@r-quay-postgres:1/q"), (.str "port", .int 2),
      (.str "database", .str "d")] = .fits a' ∧
    ofEntries "quay" [(.str "password", .str "p"), (.str "port", .int 1),
      (.str "database", .str "q@r-quay-postgres:2/d")] = .fits b' ∧ a' ≠ b' ∧
    FieldGroup.synthesize { registry := a' } { name := "r" } .postgres =
      .ok (some (.database group')) ∧
    FieldGroup.synthesize { registry := b' } { name := "r" } .postgres =
      .ok (some (.database group')) ∧
    ofEntries "quay" [(.str "port", .int Value.longNumber)] = .fits (farLogin "quay") ∧
    FieldGroup.synthesize { registry := farLogin "quay" } { name := "r" } .postgres =
      .error (.breach .range) := by
  have hgroup : ∀ c : Credentials, c.writable = true →
      FieldGroup.synthesize { registry := c } { name := "r" } .postgres =
        .ok (some (.database (.ofDescriptor c { name := "r" }))) :=
    fun _ hc => FieldGroup.synthesize_of_writable hc _ _
  refine ⟨⟨"a:b", "c", "quay", 5432⟩, ⟨"a", "b:c", "quay", 5432⟩,
    ⟨"postgres", "p@r-quay-postgres:1/q", "d", 2⟩, ⟨"postgres", "p", "q@r-quay-postgres:2/d", 1⟩, _,
    _, rfl, rfl, by decide, hgroup _ rfl, ?_, rfl, rfl, by decide, hgroup _ rfl, ?_, rfl, ?_⟩
  · exact hgroup _ rfl
  · exact hgroup _ rfl
  · rw [FieldGroup.synthesize, writable_farLogin]
    rfl

/-! ## The connection of the scanner's database -/

/-- The parameters of the connection to a scanner's database, in their order. -/
def parameters (c : Credentials) (d : Descriptor) : Table String :=
  [("host", d.name ++ "-clair-postgres"), ("port", String.ofList (intText c.port)),
    ("dbname", c.database), ("user", c.user), ("password", c.password), ("sslmode", "disable")]

/-- A parameter as a word. -/
def parameterWord (p : String × String) : List Char :=
  p.1.toList ++ '=' :: p.2.toList

/-- A login without spaces. -/
structure Unspaced (c : Credentials) : Prop where
  user : ' ' ∉ c.user.toList
  password : ' ' ∉ c.password.toList
  database : ' ' ∉ c.database.toList

private theorem toList_connection (c : Credentials) (d : Descriptor) :
    (c.connection d).toList = [' '].intercalate ((c.parameters d).map parameterWord) := by
  have hconnection : c.connection d = "host=" ++ d.name ++ "-clair-postgres port=" ++
    String.ofList (intText c.port) ++
      (" dbname=" ++ c.database ++ " user=" ++ c.user ++ " password=" ++ c.password ++
        " sslmode=disable") := rfl
  have hhost : "-clair-postgres port=".toList = "-clair-postgres".toList ++ ' ' :: "port=".toList :=
    rfl
  rw [hconnection, parameters]
  simp only [String.toList_append, String.toList_ofList, hhost, List.append_assoc, List.map_cons,
    List.map_nil, parameterWord, List.intercalate, List.intersperse, List.flatten_cons,
    List.flatten_nil, List.cons_append, List.nil_append, List.append_nil]
  rfl

private theorem space_notMem_parameterWord_iff (p : String × String) :
    ' ' ∉ parameterWord p ↔ ' ' ∉ p.1.toList ∧ ' ' ∉ p.2.toList := by
  rw [parameterWord, List.mem_append, List.mem_cons, not_or, not_or]
  exact and_congr_right fun _ => and_iff_right (by decide)

/-- The words of a login hold no space exactly if the login does not, nor
the name of the registry. -/
private theorem space_notMem_words_iff (hname : ' ' ∉ d.name.toList) :
    (∀ w ∈ (c.parameters d).map parameterWord, ' ' ∉ w) ↔ c.Unspaced := by
  have hport : ' ' ∉ (String.ofList (intText c.port)).toList := by
    rw [String.toList_ofList]
    exact notMem_intText (by decide) (by decide) c.port
  have hhost : ' ' ∉ (d.name ++ "-clair-postgres").toList := by
    rw [String.toList_append, List.mem_append, not_or]
    exact ⟨hname, by decide⟩
  rw [List.forall_mem_map]
  simp only [parameters, space_notMem_parameterWord_iff, List.forall_mem_cons]
  constructor
  · rintro ⟨-, -, hdatabase, huser, hpassword, -⟩
    exact ⟨huser.2, hpassword.2, hdatabase.2⟩
  · intro h
    exact ⟨⟨by decide, hhost⟩, ⟨by decide, hport⟩, ⟨by decide, h.database⟩, ⟨by decide, h.user⟩,
      ⟨by decide, h.password⟩, ⟨by decide, by decide⟩, fun _ hp => absurd hp List.not_mem_nil⟩

/-- **A connection has the words of its parameters**, exactly if the login holds no space. -/
theorem splitOn_connection_iff (hname : ' ' ∉ d.name.toList) :
    (c.connection d).toList.splitOn ' ' = (c.parameters d).map parameterWord ↔ c.Unspaced := by
  rw [toList_connection, ← space_notMem_words_iff hname]
  constructor
  · intro hwords w hw
    rw [← hwords] at hw
    exact notMem_of_mem_splitOn hw
  · exact fun h => List.splitOn_intercalate ' ' h (by simp [parameters])

/-- **The connection that the scanner is given.** With a port that can be written it stands in the
scanner's configuration, and at its spaces it falls into the host, the port, the database, the user,
the password and the mode of encryption, each a word, exactly if the login holds no space. -/
theorem connection_words (d : Descriptor) (settings : Settings) (hname : ' ' ∉ d.name.toList)
    (h : settings.scanner.writable = true) :
    ScannerConfig.page d settings =
        Document.encode (ScannerConfig.document d settings.scannerLogLevel
          (settings.scanner.connection d)) ∧
      ((settings.scanner.connection d).toList.splitOn ' ' =
          [("host", d.name ++ "-clair-postgres"),
            ("port", String.ofList (intText settings.scanner.port)),
            ("dbname", settings.scanner.database), ("user", settings.scanner.user),
            ("password", settings.scanner.password), ("sslmode", "disable")].map parameterWord ↔
        settings.scanner.Unspaced) :=
  ⟨if_pos h, splitOn_connection_iff hname⟩

/-- The words of a login with signs of equality and a line break. -/
theorem connection_words_equal :
    (connection { user := "a=b", password := "c\nd", database := "=" }
      { name := "r" }).toList.splitOn ' ' =
      ["host=r-clair-postgres".toList, "port=5432".toList, "dbname==".toList, "user=a=b".toList,
        "password=c\nd".toList, "sslmode=disable".toList] := by
  obtain ⟨-, hwords⟩ := connection_words { name := "r" }
    { scanner := { user := "a=b", password := "c\nd", database := "=" } } (by decide) rfl
  exact hwords.mpr ⟨by decide, by decide, by decide⟩

/-- **A password that is two words**: the connection has one parameter more. With a port that is too
long there is none. -/
theorem parameter_injected : ∃ c : Credentials,
    ofEntries "clair" [(.str "password", .str "p sslmode=require")] = .fits c ∧ c.writable = true ∧
    (c.connection { name := "r" }).toList.splitOn ' ' =
      ["host=r-clair-postgres".toList, "port=5432".toList, "dbname=clair".toList,
        "user=postgres".toList, "password=p".toList, "sslmode=require".toList,
        "sslmode=disable".toList] ∧
    ofEntries "clair" [(.str "port", .int Value.longNumber)] = .fits (farLogin "clair") ∧
    ScannerConfig.page { name := "r" } { scanner := farLogin "clair" } =
      .error (.breach .range) := by
  refine ⟨_, rfl, rfl, by decide, rfl, ?_⟩
  rw [ScannerConfig.page, writable_farLogin]
  rfl

end Credentials

end RegistryBundle
