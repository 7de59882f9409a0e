import RegistryBundle.Number.Numeral
import RegistryBundle.Text.Reading
import RegistryBundle.Value.Basic
import RegistryBundle.Yaml.Chars

/-!
# TOML documents

Documents in the notation of TOML 1.0: entries and tables, whose values are strings of four kinds,
numbers, truth values, dates and times, arrays and inline tables. What is complete takes no more
entries: an inline table, an array, and a table that was opened before.

* `Toml.document?` reads a document; a text that is none is none;
* `Toml.value?` reads a text that stands behind a key.

Readers take a text and give what they found with the text that is left.
-/

namespace RegistryBundle.Toml

open Reading (Taken)

/-- A blank inside a line. -/
def isSpace (c : Char) : Bool :=
  c == ' ' || c == '\t'

/-- A text without the blanks at its front. -/
def skipSpace (cs : List Char) : List Char :=
  cs.dropWhile isSpace

/-- A control character that no string may hold. -/
def isControl (c : Char) : Bool :=
  (c.toNat < 0x20 && c != '\t') || c.toNat == 0x7F

/-- A text behind a comment. -/
def skipComment : List Char → Option (List Char)
  | '#' :: rest =>
    let comment := rest.takeWhile (· != '\n')
    if comment.any isControl then none else some (rest.dropWhile (· != '\n'))
  | cs => some cs

/-- A text behind blanks, comments and ends of lines. -/
def skipLines : Nat → List Char → Option (List Char)
  | 0, cs => some cs
  | fuel + 1, cs =>
    match skipSpace cs with
    | '\n' :: rest => skipLines fuel rest
    | '#' :: rest => do skipLines fuel (← skipComment ('#' :: rest))
    | rest => some rest

/-- The character of a number of hexadecimal digits. -/
def unicodeEscape (width : Nat) (cs : List Char) : Option (Taken Char) := do
  let ds := cs.take width
  if ds.length = width ∧ ds.all Yaml.Chars.isHex then
    let n ← Numeral.ofDigits? 16 ds
    (Reading.char? n).map fun c => (c, cs.drop width)
  else none

/-- The character behind a backslash. -/
def escape : List Char → Option (Taken Char)
  | 'b' :: rest => some ('\x08', rest)
  | 't' :: rest => some ('\t', rest)
  | 'n' :: rest => some ('\n', rest)
  | 'f' :: rest => some ('\x0c', rest)
  | 'r' :: rest => some ('\r', rest)
  | '"' :: rest => some ('"', rest)
  | '\\' :: rest => some ('\\', rest)
  | 'u' :: rest => unicodeEscape 4 rest
  | 'U' :: rest => unicodeEscape 8 rest
  | _ => none

/-- The rest of a string on one line; only one in double quotes has escapes. -/
def lineString (quote : Char) : Nat → List Char → Option (Taken (List Char))
  | 0, _ => none
  | _, [] => none
  | fuel + 1, c :: rest =>
    if c = quote then some ([], rest)
    else if c = '\\' && quote = '"' then do
      let (e, rest) ← escape rest
      let (more, rest) ← lineString quote fuel rest
      return (e :: more, rest)
    else if isControl c then none
    else do
      let (more, rest) ← lineString quote fuel rest
      return (c :: more, rest)

/-- Whether a text behind a backslash ends its line: then it goes on at the next
character that is no blank. -/
def lineContinuation (cs : List Char) : Option (List Char) :=
  match skipSpace cs with
  | '\n' :: rest => some (rest.dropWhile fun c => isSpace c || c == '\n')
  | _ => none

/-- The rest of a string over several lines, which ends with three quotes; up
to two more belong to it. -/
def blockString (quote : Char) : Nat → List Char → Option (Taken (List Char))
  | 0, _ => none
  | _, [] => none
  | fuel + 1, c :: rest =>
    if c = quote && rest.take 2 = [quote, quote] then
      let left := rest.drop 2
      let extra := (left.take 2).takeWhile (· == quote)
      some (extra, left.drop extra.length)
    else if c = '\\' && quote = '"' then
      match lineContinuation rest with
      | some rest => blockString quote fuel rest
      | none => do
        let (e, rest) ← escape rest
        let (more, rest) ← blockString quote fuel rest
        return (e :: more, rest)
    else if isControl c && c != '\n' then none
    else do
      let (more, rest) ← blockString quote fuel rest
      return (c :: more, rest)

/-- A string that begins with a quote. -/
def string (quote : Char) (rest : List Char) : Option (Taken (List Char)) :=
  let fuel := rest.length + 1
  if rest.take 2 = [quote, quote] then
    let body := rest.drop 2
    blockString quote fuel (if body.head? == some '\n' then body.drop 1 else body)
  else lineString quote fuel rest

/-- A digit, and more of them with at most single underscores between. -/
def digitRun (digit : Char → Bool) : List Char → Option (Taken (List Char))
  | [] => none
  | c :: rest => if digit c then some (let (ds, left) := more rest; (c :: ds, left)) else none
where
  /-- The digits that go on a run. -/
  more : List Char → List Char × List Char
    | '_' :: c :: rest =>
      if digit c then
        let (ds, left) := more rest
        (c :: ds, left)
      else ([], '_' :: c :: rest)
    | c :: rest =>
      if digit c then
        let (ds, left) := more rest
        (c :: ds, left)
      else ([], c :: rest)
    | [] => ([], [])

/-- A whole number to a marked base. -/
def basedNumber : List Char → Option (Taken Value)
  | '0' :: mark :: rest => do
    let base ← if mark = 'x' then some 16 else if mark = 'o' then some 8 else if mark = 'b' then
      some 2 else none
    let (ds, left) ← digitRun (fun c => c.toNat < 128 && (Numeral.digit? c).any (· < base)) rest
    let n ← Numeral.ofDigits? base ds
    return (.int n, left)
  | _ => none

/-- The whole part of a decimal number: zero, or digits that begin with another. -/
def wholePart : List Char → Option (Taken (List Char))
  | '0' :: rest => some (['0'], rest)
  | cs => digitRun Char.isDigit cs

/-- The digits behind a point, if there are any. -/
def fractionPart : List Char → List Char × List Char
  | '.' :: rest =>
    match digitRun Char.isDigit rest with
    | some (ds, left) => ('.' :: ds, left)
    | none => ([], '.' :: rest)
  | cs => ([], cs)

/-- The exponent, if there is one. -/
def exponentPart : List Char → List Char × List Char
  | e :: rest =>
    if e = 'e' || e = 'E' then
      let (sign, ds) := match rest with
        | '+' :: r => (['+'], r)
        | '-' :: r => (['-'], r)
        | r => ([], r)
      match digitRun Char.isDigit ds with
      | some (ds, left) => ('e' :: (sign ++ ds), left)
      | none => ([], e :: rest)
    else ([], e :: rest)
  | [] => ([], [])

/-- A decimal number. -/
def decimalNumber (cs : List Char) : Option (Taken Value) := do
  let (negative, body) := Binary64.takeSign cs
  let (whole, rest) ← wholePart body
  let (fraction, rest) := fractionPart rest
  let (exponent, rest) := exponentPart rest
  if fraction.isEmpty && exponent.isEmpty then
    let n ← Numeral.ofDigits? 10 whole
    return (.int (if negative then -(n : Int) else n), rest)
  else
    let x ← Binary64.ofText? ((if negative then ['-'] else []) ++ whole ++ fraction ++ exponent)
    return (.float x, rest)

/-- Infinity or a NaN. -/
def namedNumber (cs : List Char) : Option (Taken Value) :=
  let (negative, body) := Binary64.takeSign cs
  if body.take 3 = ['i', 'n', 'f'] then some (.float (.infinite negative), body.drop 3)
  else if body.take 3 = ['n', 'a', 'n'] then some (.float .nan, body.drop 3)
  else none

/-- A number of two digits below a bound. -/
def twoDigits (bound : Nat) (cs : List Char) : Option (Taken Nat) := do
  let (n, _, rest) ← Reading.number? 2 2 cs
  if n < bound then some (n, rest) else none

/-- A time of day, with its fraction in microseconds. -/
def timeOfDay (cs : List Char) : Option (Taken (Nat × Nat × Nat × Nat)) := do
  let (h, r) ← twoDigits 24 cs
  let (m, r) ← twoDigits 60 (← Reading.after? ':' r)
  let (s, r) ← twoDigits 60 (← Reading.after? ':' r)
  match r with
  | '.' :: d :: rest =>
    if d.isDigit then
      let ds := (d :: rest).takeWhile Char.isDigit
      let six := ds.take 6
      let micro := Nat.ofDigitChars 10 (six ++ List.replicate (6 - six.length) '0') 0
      some ((h, m, s, micro), (d :: rest).dropWhile Char.isDigit)
    else some ((h, m, s, 0), r)
  | r => some ((h, m, s, 0), r)

/-- The offset behind a time of day, if there is one. -/
def offsetPart (cs : List Char) : Option Int × List Char :=
  match cs with
  | 'Z' :: rest => (some 0, rest)
  | 'z' :: rest => (some 0, rest)
  | sign :: rest =>
    if sign = '+' || sign = '-' then
      let read : Option (Taken Int) := do
        let (h, r) ← twoDigits 24 rest
        let (m, r) ← twoDigits 60 (← Reading.after? ':' r)
        return ((h * 60 + m : Nat), r)
      match read with
      | some (o, left) => (some (if sign = '-' then -o else o), left)
      | none => (none, cs)
    else (none, cs)
  | [] => (none, [])

/-- A date, with a time of day where one follows. -/
def dateOrMoment (cs : List Char) : Option (Taken Value) := do
  let (y, _, r) ← Reading.number? 4 4 cs
  let (mo, r) ← twoDigits 13 (← Reading.after? '-' r)
  let (d, r) ← twoDigits 32 (← Reading.after? '-' r)
  let date : Date := ⟨y, mo, d⟩
  if ¬ date.Valid then none
  else
    let plain := some (Value.date date, r)
    match r with
    | c :: rest =>
      if c = 'T' || c = 't' || c = ' ' then
        match timeOfDay rest with
        | some ((h, m, s, micro), left) =>
          let (offset, left) := offsetPart left
          some (.moment ⟨date, h, m, s, micro, offset⟩, left)
        | none => plain
      else plain
    | [] => plain

/-- A bare key. -/
def isBareKey (c : Char) : Bool :=
  c.isAlphanum || c == '_' || c == '-'

/-- One part of a key. -/
def keyPart : List Char → Option (Taken String)
  | '"' :: rest => (lineString '"' (rest.length + 1) rest).map fun f => (String.ofList f.1, f.2)
  | '\'' :: rest => (lineString '\'' (rest.length + 1) rest).map fun f => (String.ofList f.1, f.2)
  | cs =>
    let bare := cs.takeWhile isBareKey
    if bare.isEmpty then none else some (String.ofList bare, cs.dropWhile isBareKey)

/-- A key, whose parts stand between points. -/
def keyParts : Nat → List Char → Option (Taken (List String))
  | 0, _ => none
  | fuel + 1, cs => do
    let (part, rest) ← keyPart cs
    match skipSpace rest with
    | '.' :: rest =>
      let (more, rest) ← keyParts fuel (skipSpace rest)
      return (part :: more, rest)
    | rest => return ([part], rest)

/-- The entries with those behind a path of keys changed; missing tables on the way are made, and of
an array of tables the last one is meant if `inArrays` allows it. -/
def change (inArrays : Bool) (f : Entries → Option Entries) : List String → Entries → Option Entries
  | [], es => f es
  | name :: more, es =>
    match Value.get? es name with
    | none => (change inArrays f more []).map fun inner => Value.put es (.str name) (.map inner)
    | some (.map inner) => (change inArrays f more inner).map fun inner =>
        Value.put es (.str name) (.map inner)
    | some (.list items) =>
      match inArrays, items.getLast? with
      | true, some (.map inner) =>
        (change inArrays f more inner).map fun inner =>
          Value.put es (.str name) (.list (items.dropLast ++ [.map inner]))
      | _, _ => none
    | some _ => none

/-- The entries with a value under a name, which must not be there yet. -/
def add (name : String) (v : Value) (es : Entries) : Option Entries :=
  match Value.get? es name with
  | some _ => none
  | none => some (Value.put es (.str name) v)

/-- The entries with a value under a key, which must not be there yet. -/
def define (inArrays : Bool) (v : Value) (key : List String) (es : Entries) : Option Entries :=
  match key.getLast? with
  | some name => change inArrays (add name v) key.dropLast es
  | none => none

/-- Whether a value has parts. -/
def hasParts : Value → Bool
  | .list _ | .map _ => true
  | _ => false

/-- Whether one of several keys is the beginning of a key. -/
def coveredBy (keys : List (List String)) (key : List String) : Bool :=
  keys.any fun k => k.isPrefixOf key

mutual

/-- A value at the front of a text. -/
def value : Nat → List Char → Option (Taken Value)
  | 0, _ => none
  | fuel + 1, cs =>
    match cs with
    | '"' :: rest => (string '"' rest).map fun f => (.str (String.ofList f.1), f.2)
    | '\'' :: rest => (string '\'' rest).map fun f => (.str (String.ofList f.1), f.2)
    | 't' :: 'r' :: 'u' :: 'e' :: rest => some (.bool true, rest)
    | 'f' :: 'a' :: 'l' :: 's' :: 'e' :: rest => some (.bool false, rest)
    | '[' :: rest => do
      let (items, rest) ← items fuel rest
      return (.list items, rest)
    | '\x7b' :: rest =>
      match skipSpace rest with
      | '\x7d' :: rest => some (.map [], rest)
      | rest => do
        let (entries, rest) ← entries fuel [] [] rest
        return (.map entries, rest)
    | cs =>
      (dateOrMoment cs).or
        (((timeOfDay cs).map fun f => (.foreign, f.2)).or
          ((basedNumber cs).or ((decimalNumber cs).or (namedNumber cs))))

/-- The items of an array and its end. -/
def items : Nat → List Char → Option (Taken (List Value))
  | 0, _ => none
  | fuel + 1, cs => do
    match ← skipLines cs.length cs with
    | ']' :: rest => return ([], rest)
    | cs =>
      let (v, rest) ← value fuel cs
      match ← skipLines rest.length rest with
      | ',' :: rest =>
        let (vs, rest) ← items fuel rest
        return (v :: vs, rest)
      | ']' :: rest => return ([v], rest)
      | _ => none

/-- The entries of an inline table and its end; `closed` are the keys of those with parts. -/
def entries : Nat → Entries → List (List String) → List Char → Option (Taken Entries)
  | 0, _, _, _ => none
  | fuel + 1, es, closed, cs => do
    let (key, rest) ← keyParts (cs.length + 1) (skipSpace cs)
    let rest ← Reading.after? '=' (skipSpace rest)
    let (v, rest) ← value fuel (skipSpace rest)
    if coveredBy closed key then none
    else
      let es ← define false v key es
      match skipSpace rest with
      | ',' :: rest => entries fuel es (if hasParts v then key :: closed else closed) rest
      | '\x7d' :: rest => return (es, rest)
      | _ => none

end

/-! ## Documents -/

/-- A document so far. -/
structure Draft where
  entries : Entries := []
  /-- The keys of values with parts, which take no more. -/
  closed : List (List String) := []
  /-- The keys of tables that must not be opened again. -/
  opened : List (List String) := []
  /-- The keys of tables that must not be opened again behind the next header. -/
  pending : List (List String) := []
  /-- The key of the table that entries belong to. -/
  header : List String := []

namespace Draft

/-- The keys of the tables between the header and an entry. -/
def between (d : Draft) (key : List String) : List (List String) :=
  ((List.range key.length).drop 1).map fun n => d.header ++ key.take n

/-- The draft with an entry. -/
def withEntry (d : Draft) (key : List String) (v : Value) : Option Draft :=
  let whole := d.header ++ key
  if (d.between key).any d.opened.contains || coveredBy d.closed whole.dropLast then none
  else
    (define true v whole d.entries).map fun es =>
      { d with
        entries := es, pending := d.pending ++ d.between key
        closed := if hasParts v then whole :: d.closed else d.closed }

/-- The draft behind the header of a table. -/
def withTable (d : Draft) (key : List String) : Option Draft :=
  let opened := d.opened ++ d.pending
  if opened.contains key || coveredBy d.closed key then none
  else
    (change true some key d.entries).map fun es =>
      { d with entries := es, opened := key :: opened, pending := [], header := key }

/-- The entries with one more table in an array of tables. -/
def addTable (name : String) (es : Entries) : Option Entries :=
  match Value.get? es name with
  | none => some (Value.put es (.str name) (.list [.map []]))
  | some (.list items) => some (Value.put es (.str name) (.list (items ++ [.map []])))
  | some _ => none

/-- The draft behind the header of one more table in an array. -/
def withArrayTable (d : Draft) (key : List String) : Option Draft := do
  let name ← key.getLast?
  let outside (keys : List (List String)) := keys.filter fun k => !key.isPrefixOf k
  if coveredBy d.closed key then none
  else
    let es ← change true (addTable name) key.dropLast d.entries
    return { entries := es
             closed := outside d.closed
             opened := key :: outside (d.opened ++ d.pending)
             header := key }

end Draft

/-- A header in brackets: its key, and the text behind it. -/
def header (closing : List Char) (cs : List Char) : Option (Taken (List String)) := do
  let (key, rest) ← keyParts (cs.length + 1) (skipSpace cs)
  let rest := skipSpace rest
  if closing.isPrefixOf rest then return (key, rest.drop closing.length) else none

/-- A line of a document: an entry, a header or nothing. -/
def line (d : Draft) (cs : List Char) : Option (Taken Draft) :=
  match cs with
  | '[' :: '[' :: rest => do
    let (key, rest) ← header [']', ']'] rest
    return (← d.withArrayTable key, rest)
  | '[' :: rest => do
    let (key, rest) ← header [']'] rest
    return (← d.withTable key, rest)
  | c :: _ =>
    if isBareKey c || c = '"' || c = '\'' then do
      let (key, rest) ← keyParts (cs.length + 1) cs
      let rest ← Reading.after? '=' (skipSpace rest)
      let (v, rest) ← value (rest.length + 1) (skipSpace rest)
      return (← d.withEntry key v, rest)
    else some (d, cs)
  | [] => some (d, [])

/-- The lines of a document; `fuel` bounds them. -/
def lines : Nat → Draft → List Char → Option Draft
  | 0, _, _ => none
  | fuel + 1, d, cs => do
    let (d, rest) ← line d (skipSpace cs)
    match ← skipComment (skipSpace rest) with
    | [] => return d
    | '\n' :: rest => lines fuel d rest
    | _ => none

/-- The text with every break of two characters as one. -/
def unifyBreaks : List Char → List Char
  | '\r' :: '\n' :: rest => '\n' :: unifyBreaks rest
  | c :: rest => c :: unifyBreaks rest
  | [] => []

/-- The entries of a document. -/
def document? (cs : List Char) : Option Entries :=
  (lines (cs.length + 1) {} (unifyBreaks cs)).map Draft.entries

/-- The value of a text that stands behind a key. -/
def value? (cs : List Char) : Option Value := do
  Value.get? (← document? ("key=".toList ++ cs)) "key"

end RegistryBundle.Toml
