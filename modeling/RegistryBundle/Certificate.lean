import RegistryBundle.Failure
import RegistryBundle.Time.Calendar

/-!
# Self-signed certificates

A certificate for one hostname: it names the host as its only alternative name, is valid from five
minutes before it is issued for a year, and is no authority.

* `Certificate.issue` makes one or says why there is none,
  `Certificate.issueOn` does so by any clock;
* `subjectFor` shortens a host to what the subject may hold (`length_subjectFor_le`).
-/

namespace RegistryBundle

/-- A name that a certificate gives its holder beside the subject. -/
inductive AlternativeName where
  | dns (host : String)
  /-- An internet address, by its octets. -/
  | address (octets : List UInt8)
deriving DecidableEq, Repr

/-- What a certificate says; its key and its signature are not recorded. -/
structure Certificate where
  serial : Nat
  commonName : String
  alternativeNames : List AlternativeName
  notBefore : Moment
  notAfter : Moment
deriving DecidableEq, Repr

namespace Certificate

/-- The most characters that the subject of a certificate may have. -/
def maxCommonName : Nat := 64

/-- The part of a host in front of its first point. -/
def firstLabel (host : List Char) : List Char :=
  host.takeWhile (· != '.')

/-- The subject for a host: the host itself, or the start of its first label if it is too long. -/
def subjectFor (host : List Char) : List Char :=
  if host.length ≤ maxCommonName then host else (firstLabel host).take maxCommonName

/-- The size of the keys of certificates. -/
def keySize : Nat := 2048

/-- The exponent of the keys of certificates. -/
def keyExponent : Nat := 65537

/-- How long before its issue a certificate is valid, in seconds. -/
def leadSeconds : Int := 300

/-- How long after its issue a certificate is valid, in seconds. -/
def validSeconds : Int := 365 * 86400

/-- The first year whose dates a certificate may hold. -/
def firstYear : Nat := 1950

/-- A moment some seconds away, in universal time and whole seconds; it must be in the calendar and
not before the first year. The universal time is that of the clock on which the moment is read. -/
def boundBy (universal? : Moment → Option Moment) (now : Moment) (seconds : Int) :
    Except Failure Moment :=
  match (now.shift? seconds).bind universal? with
  | none => .error (.breach .overflow)
  | some t =>
    if t.date.year < firstYear then .error (.breach .range)
    else .ok { t with microsecond := 0, offset := none }

/-- The same of a moment that has its offset. -/
def bound (now : Moment) (seconds : Int) : Except Failure Moment :=
  boundBy Moment.universal? now seconds

/-- A certificate for a host, with the moments some seconds away from its issue. -/
def issueWithin (bound : Int → Except Failure Moment) (serial : Nat) (host : String) :
    Except Failure Certificate :=
  let name := String.ofList (subjectFor host.toList)
  if host = "" then .error .hostMissing
  else if name.utf8ByteSize < 1 || maxCommonName < name.utf8ByteSize then .error (.breach .range)
  else do
    let notBefore ← bound (-leadSeconds)
    let notAfter ← bound validSeconds
    if host.toList.all fun c => c.toNat < 128 then
      return ⟨serial, name, [.dns host], notBefore, notAfter⟩
    else throw (.breach .range)

/-- A certificate for a host, issued at a moment. -/
def issue (serial : Nat) (host : String) (now : Moment) : Except Failure Certificate :=
  issueWithin (bound now) serial host

/-- A certificate for a host, issued when a clock shows `now`. Both dates are counted in the time
that the clock shows, and each is converted as far as the clock is ahead at that date. -/
def issueOn (clock : Clock) (serial : Nat) (host : String) (now : Moment) :
    Except Failure Certificate :=
  issueWithin (boundBy (Moment.universalOn? clock) now) serial host

/-- The hosts that a certificate names. -/
def hosts (c : Certificate) : List String :=
  c.alternativeNames.filterMap fun
    | .dns host => some host
    | .address _ => none

/-- The first host that a certificate names. -/
def alternativeName (c : Certificate) : String :=
  c.hosts.headD ""

/-- The seconds from the first to the last moment of validity. -/
def lifetime (c : Certificate) : Int :=
  c.notAfter.seconds - c.notBefore.seconds

/-- A subject is never longer than it may be. -/
theorem length_subjectFor_le (host : List Char) : (subjectFor host).length ≤ maxCommonName := by
  unfold subjectFor
  split
  · assumption
  · exact List.length_take_le ..

/-- A subject begins as its host begins. -/
theorem subjectFor_isPrefixOf (host : List Char) : subjectFor host <+: host := by
  unfold subjectFor
  split
  · exact List.prefix_rfl
  · exact ( List.take_prefix _ _).trans ( List.takeWhile_prefix _)

end Certificate

end RegistryBundle
