import RegistryBundle.Schema.Record

/-!
# Database logins

The login of a managed database.  Its texts are never empty; a number may stand for its text.

* `Credentials.ofEntries` reads a login, absent parts having defaults;
* `Credentials.loginText` is the check of one text, `loginText_fits_ne_empty` its guarantee.
-/

namespace RegistryBundle

/-- The login of a database. -/
structure Credentials where
  user : String := "postgres"
  password : String := "postgres"
  database : String := "quay"
  port : Int := 5432
deriving DecidableEq, Repr

namespace Credentials

/-- The text that a value of a login stands for: a number for its digits, a text for itself. -/
def asText (v : Value) : Checked String :=
  match v.bare with
  | .int n =>
    match intText? n with
    | some s => .fits (String.ofList s)
    | none => .issue .refused
  | .float x => .fits (String.ofList (x.toText Binary64.plainFormat))
  | v => Schema.text v

/-- A text that is not empty. -/
def nonEmpty (s : String) : Checked String :=
  if s = "" then .issue .refused else .fits s

/-- A text of a login. -/
def loginText (v : Value) : Checked String :=
  (asText v).andThen nonEmpty

/-- Whether the port of a login has a text, which it lacks if it has too many digits. -/
def writable (c : Credentials) : Bool :=
  (intText? c.port).isSome

/-- The login that a mapping holds, on a database of the given name unless it says otherwise. -/
def ofEntries (database : String) (es : Entries) : Checked Credentials :=
  Credentials.mk <$> Schema.field loginText "postgres" ["user"] es
    <*> Schema.field loginText "postgres" ["password"] es
    <*> Schema.field loginText database ["database"] es
    <*> Schema.field Schema.whole 5432 ["port"] es

/-- A text that passes the check is not empty. -/
theorem loginText_fits_ne_empty {v : Value} {s : String} (h : loginText v = .fits s) : s ≠ "" := by
  unfold loginText Checked.andThen at h
  split at h
  · next a _ =>
    unfold nonEmpty at h
    split at h
    · simp [Checked.issue] at h
    · next hne =>
      injection h with h
      exact h ▸ hne
  · simp at h

end Credentials

end RegistryBundle
