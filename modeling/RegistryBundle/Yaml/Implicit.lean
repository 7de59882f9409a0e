import RegistryBundle.Number.Decimal
import RegistryBundle.Text.Reading
import RegistryBundle.Time.Calendar
import RegistryBundle.Yaml.Tag

/-!
# Implicit types of plain scalars

A scalar without quotes and without a tag has the type that its text looks like: null, a
truth value, a number, a date, a merge key, or else a text. The patterns differ between the
two versions of the format.

* `Implicit.tag` gives the type of a text; the patterns are `isNull`, `isBool`, `isInt`,
  `isFloat`, `isTimestamp`;
* `Implicit.timestamp?` takes a date or a date with a time apart;
* `tag_eq_str_iff`: a text is plain text exactly when no pattern fits it.
-/

namespace RegistryBundle.Yaml

/-- The version of the format: the older with many words for truth values, octal numbers with a
leading zero and numbers to the base 60, or the newer without them. -/
inductive Version where
  | older
  | newer
deriving DecidableEq, Repr

namespace Implicit

/-- A text without its sign. -/
def unsigned : List Char → List Char
  | '-' :: r => r
  | '+' :: r => r
  | r => r

/-- A decimal digit or an underscore. -/
def isDigitOrBar (c : Char) : Bool :=
  c.isDigit || c == '_'

/-- Digits and underscores after a digit. -/
def isDigitRun : List Char → Bool
  | [] => false
  | c :: r => c.isDigit && r.all isDigitOrBar

/-- Digits and underscores after a digit other than zero. -/
def isNonZeroRun : List Char → Bool
  | [] => false
  | c :: r => c.isDigit && c != '0' && r.all isDigitOrBar

/-- A number below 60 of one or two digits. -/
def isSixtieth : List Char → Bool
  | [c] => c.isDigit
  | [c, d] => '0' ≤ c && c ≤ '5' && d.isDigit
  | _ => false

/-- A null, which may be empty. -/
def isNull (cs : List Char) : Bool :=
  ["~", "null", "Null", "NULL", ""].contains (String.ofList cs)

/-- The words for truth values, each in three cases. -/
def boolWords : Version → List String
  | .older => ["yes", "Yes", "YES", "no", "No", "NO", "true", "True", "TRUE", "false", "False",
      "FALSE", "on", "On", "ON", "off", "Off", "OFF"]
  | .newer => ["true", "True", "TRUE", "false", "False", "FALSE"]

/-- A truth value. -/
def isBool (v : Version) (cs : List Char) : Bool :=
  (boolWords v).contains (String.ofList cs)

/-- Digits to a base after the marks of the base, `x` standing for hexadecimal, `b` for binary and
`o` for octal digits. -/
def isBased (v : Version) : List Char → Bool
  | '0' :: 'b' :: r => !r.isEmpty && r.all fun c => c == '0' || c == '1' || c == '_'
  | '0' :: 'x' :: r =>
    !r.isEmpty && r.all fun c => c.isDigit || ('a' ≤ c && c ≤ 'f') || ('A' ≤ c && c ≤ 'F') ||
      c == '_'
  | '0' :: 'o' :: r => v == .newer && !r.isEmpty && r.all fun c => ('0' ≤ c && c ≤ '7') || c == '_'
  | '0' :: r => !r.isEmpty && r.all fun c => ('0' ≤ c && c ≤ '7') || c == '_'
  | _ => false

/-- A whole number. -/
def isInt (v : Version) (cs : List Char) : Bool :=
  let body := unsigned cs
  match v with
  | .older =>
    isBased v body || body == ['0'] || isNonZeroRun body ||
      (match Reading.fields ':' body with
      | first :: second :: rest => isNonZeroRun first && (second :: rest).all isSixtieth
      | _ => false)
  | .newer =>
    isBased v body || (!body.isEmpty && body.all isDigitOrBar)

/-- An exponent: none, or a sign and digits after an `e`; `bare` tells whether
the sign may be missing. -/
def isExponent (bare : Bool) : List Char → Bool
  | [] => true
  | c :: r =>
    (c == 'e' || c == 'E') &&
      (match r with
      | s :: ds =>
        if s == '-' || s == '+' then !ds.isEmpty && ds.all Char.isDigit
        else bare && r.all Char.isDigit
      | [] => false)

/-- Digits and underscores, then an exponent. -/
def isFraction (bare : Bool) (cs : List Char) : Bool :=
  isExponent bare (cs.dropWhile isDigitOrBar)

/-- Infinity, in three cases. -/
def isInfinity (cs : List Char) : Bool :=
  [".inf", ".Inf", ".INF"].contains (String.ofList cs)

/-- A number with a point. -/
def isFloat (v : Version) (cs : List Char) : Bool :=
  let body := unsigned cs
  let whole := body.takeWhile isDigitOrBar
  let rest := body.dropWhile isDigitOrBar
  isInfinity body || [".nan", ".NaN", ".NAN"].contains (String.ofList cs) ||
    (match v with
    | .older =>
      (match rest with
      | '.' :: r => isDigitRun whole && isFraction false r
      | _ => false) ||
      (match cs with
      | '.' :: d :: r => d.isDigit && isFraction false r
      | _ => false) ||
      (match Reading.fields ':' body with
      | first :: second :: more =>
        isDigitRun first &&
          (match ((second :: more).reverse) with
          | final :: between =>
            between.all isSixtieth && isSixtieth (final.takeWhile (· != '.')) &&
              (match final.dropWhile (· != '.') with
              | _ :: r => r.all isDigitOrBar
              | [] => false)
          | [] => false)
      | _ => false)
    | .newer =>
      (match rest with
      | '.' :: r => (isDigitRun whole && isFraction true r) ||
          (whole.isEmpty && (match r with
            | d :: r => isDigitOrBar d && isFraction false r
            | [] => false))
      | _ :: _ => isDigitRun whole && isExponent true rest
      | [] => false))

/-- The parts of a timestamp: the time of day only where one is given. -/
structure TimestampParts where
  year : Nat
  month : Nat
  day : Nat
  /-- Whether month and day have two digits each. -/
  full : Bool
  time : Option (Nat × Nat × Nat)
  /-- The digits after the point of the seconds. -/
  fraction : List Char
  /-- The offset in minutes, if a zone is given. -/
  zone : Option Int
deriving DecidableEq, Repr

/-- The zone that ends a timestamp. -/
def zone? (cs : List Char) : Option (Option Int) :=
  match cs with
  | [] => some none
  | _ =>
    match cs.dropWhile fun c => c == ' ' || c == '\t' with
    | ['Z'] => some (some 0)
    | sign :: r =>
      if sign = '+' || sign = '-' then do
        let (h, _, r) ← Reading.number? 1 2 r
        let m ← match r with
          | [] => some 0
          | _ => do
            let r ← Reading.after? ':' r
            let (m, _, r) ← Reading.number? 2 2 r
            if r.isEmpty then some m else none
        let total : Int := h * 60 + m
        return some (if sign = '-' then -total else total)
      else none
    | [] => none

/-- The parts of a text that is a date, or a date and a time. -/
def timestamp? (cs : List Char) : Option TimestampParts := do
  let (year, _, r) ← Reading.number? 4 4 cs
  let r ← Reading.after? '-' r
  let (month, mw, r) ← Reading.number? 1 2 r
  let r ← Reading.after? '-' r
  let (day, dw, r) ← Reading.number? 1 2 r
  let full := mw == 2 && dw == 2
  match r with
  | [] => return ⟨year, month, day, full, none, [], none⟩
  | c :: after =>
    let r ← if c = 'T' || c = 't' then some after
      else if c = ' ' || c = '\t' then some (after.dropWhile fun c => c == ' ' || c == '\t')
      else none
    let (h, _, r) ← Reading.number? 1 2 r
    let r ← Reading.after? ':' r
    let (m, _, r) ← Reading.number? 2 2 r
    let r ← Reading.after? ':' r
    let (s, _, r) ← Reading.number? 2 2 r
    let (fraction, r) := match r with
      | '.' :: r => (r.takeWhile Char.isDigit, r.dropWhile Char.isDigit)
      | r => ([], r)
    let zone ← zone? r
    return ⟨year, month, day, full, some (h, m, s), fraction, zone⟩

/-- A date, or a date and a time. -/
def isTimestamp (cs : List Char) : Bool :=
  match timestamp? cs with
  | some p => p.time.isSome || p.full
  | none => false

/-- The type that a plain text looks like. -/
def tag (v : Version) (cs : List Char) : Tag :=
  if isBool v cs then .bool
  else if isFloat v cs then .float
  else if isInt v cs then .int
  else if cs == ['<', '<'] then .merge
  else if isNull cs then .null
  else if isTimestamp cs then .timestamp
  else if cs == ['='] then .value
  else if cs == ['!'] then .other (Tag.standard ++ "yaml")
  else if cs == ['&'] then .other (Tag.standard ++ "yaml")
  else if cs == ['*'] then .other (Tag.standard ++ "yaml")
  else .str

/-- A text is plain text exactly when no pattern fits it. -/
theorem tag_eq_str_iff (v : Version) (cs : List Char) :
    tag v cs = .str ↔
      isBool v cs = false ∧ isFloat v cs = false ∧ isInt v cs = false ∧ cs ≠ ['<', '<'] ∧
        isNull cs = false ∧ isTimestamp cs = false ∧ cs ≠ ['='] ∧ cs ≠ ['!'] ∧ cs ≠ ['&'] ∧
          cs ≠ ['*'] := by
  unfold tag
  repeat' split
  all_goals simp_all

end Implicit

end RegistryBundle.Yaml
