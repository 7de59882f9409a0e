import RegistryBundle.Number.Numeral
import RegistryBundle.Text.Printable
import RegistryBundle.Value.Basic

/-!
# Values inside messages and texts

How a value reads where a text is asked for: a text as itself, any other value in a notation that
shows its parts, texts within quotes.

* `Value.text?` is the text of a value, `Value.quoted?` its notation as a part of another;
* both fail where a whole number of more than 4300 digits would have to be written
  (`intText?`), and a broken text has a notation, but no text.
-/

namespace RegistryBundle

/-- The decimal text of a whole number. -/
def intText (n : Int) : List Char :=
  (if n < 0 then ['-'] else []) ++ Nat.toDigits 10 n.natAbs

/-- The decimal text of a whole number, if it has not too many digits. -/
def intText? (n : Int) : Option (List Char) :=
  let ds := Nat.toDigits 10 n.natAbs
  if ds.length ≤ maxDigits then some ((if n < 0 then ['-'] else []) ++ ds) else none

/-- The lower-case hexadecimal digits of a number, at least `width` of them. -/
def hexText (width n : Nat) : List Char :=
  let ds := Nat.toDigits 16 n
  List.replicate (width - ds.length) '0' ++ ds

namespace Quoted

/-- The quote around a text: the single one, unless the text holds single
quotes and no double ones. -/
def quoteFor (cs : List Char) : Char :=
  if cs.contains '\'' && !cs.contains '"' then '"' else '\''

/-- A character inside quotes, `shown` telling which characters stand for themselves. -/
def escape (shown : Char → Bool) (quote : Char) (c : Char) : List Char :=
  if c = quote || c = '\\' then ['\\', c]
  else if c = '\n' then ['\\', 'n']
  else if c = '\r' then ['\\', 'r']
  else if c = '\t' then ['\\', 't']
  else if shown c then [c]
  else if c.toNat < 0x100 then '\\' :: 'x' :: hexText 2 c.toNat
  else if c.toNat < 0x10000 then '\\' :: 'u' :: hexText 4 c.toNat
  else '\\' :: 'U' :: hexText 8 c.toNat

/-- A text within quotes. -/
def text (cs : List Char) : List Char :=
  let quote := quoteFor cs
  quote :: (cs.flatMap (escape Unicode.isPrintable quote) ++ [quote])

/-- A letter inside quotes: a half by its code. -/
def escapeLetter (quote : Char) : Letter → List Char
  | .char c => escape Unicode.isPrintable quote c
  | .half n => '\\' :: 'u' :: hexText 4 (Letter.firstHalf + n)

/-- A broken text within quotes. -/
def brokenText (t : BrokenText) : List Char :=
  let quote := quoteFor (t.letters.filterMap Letter.char?)
  quote :: (t.letters.flatMap (escapeLetter quote) ++ [quote])

/-- Octets within quotes, marked by a `b`. -/
def octets (b : ByteArray) : List Char :=
  'b' :: (let cs := b.toList.map fun o => Char.ofNat o.toNat
    let quote := quoteFor cs
    quote :: (cs.flatMap (escape (fun c => 0x20 ≤ c.toNat && c.toNat < 0x7F) quote) ++ [quote]))

/-- Parts with a comma and a space between them. -/
def commaList : List (List Char) → List Char
  | [] => []
  | [x] => x
  | x :: rest => x ++ ',' :: ' ' :: commaList rest

/-- A name with its arguments. -/
def call (name : String) (arguments : List (List Char)) : List Char :=
  name.toList ++ '(' :: (commaList arguments ++ [')'])

/-- The notation of a span of whole minutes, as days and the seconds beyond them. -/
def span (minutes : Int) : List Char :=
  let days := minutes / 1440
  let seconds := minutes % 1440 * 60
  let days := if days = 0 then [] else ["days=".toList ++ intText days]
  let seconds := if seconds = 0 then [] else ["seconds=".toList ++ intText seconds]
  call "datetime.timedelta" (if days.isEmpty && seconds.isEmpty then [['0']] else days ++ seconds)

/-- The notation of a date. -/
def date (d : Date) : List Char :=
  call "datetime.date" [intText d.year, intText d.month, intText d.day]

/-- The notation of a moment: seconds and microseconds where they are not zero. -/
def moment (t : Moment) : List Char :=
  let clock := [intText t.date.year, intText t.date.month, intText t.date.day, intText t.hour,
    intText t.minute]
  let seconds := if t.second = 0 && t.microsecond = 0 then [] else [intText t.second]
  let micro := if t.microsecond = 0 then [] else [intText t.microsecond]
  let zone := match t.offset with
    | none => []
    | some 0 => ["tzinfo=datetime.timezone.utc".toList]
    | some o => ["tzinfo=".toList ++ call "datetime.timezone" [span o]]
  call "datetime.datetime" (clock ++ seconds ++ micro ++ zone)

end Quoted

namespace Value

variable {A : Alphabet}

mutual

/-- The notation of a value as a part of another. -/
def quoted? : Value A → Option (List Char)
  | .null => some "None".toList
  | .bool b => some (if b then "True".toList else "False".toList)
  | .int n => intText? n
  | .float x => some (x.toText Binary64.plainFormat)
  | .str s => some (Quoted.text s.toList)
  | .broken _ t => some (Quoted.brokenText t)
  | .bytes b => some (Quoted.octets b)
  | .date d => some (Quoted.date d)
  | .moment t => some (Quoted.moment t)
  | .list items => (quotedItems? items).map fun ps => '[' :: (Quoted.commaList ps ++ [']'])
  | .pair a b => do
    let x ← a.quoted?
    let y ← b.quoted?
    return '(' :: (Quoted.commaList [x, y] ++ [')'])
  | .set items =>
    (quotedItems? items).map fun ps =>
      if ps.isEmpty then "set()".toList else '\x7b' :: (Quoted.commaList ps ++ ['\x7d'])
  | .map entries => (quotedEntries? entries).map fun ps =>
      '\x7b' :: (Quoted.commaList ps ++ ['\x7d'])
  | .foreign => some "<Opaque>".toList
  | .shared _ v => v.quoted?
  | .cycle _ => some "[...]".toList

/-- The notation of each item. -/
def quotedItems? : List (Value A) → Option (List (List Char))
  | [] => some []
  | v :: rest => do
    let x ← v.quoted?
    let xs ← quotedItems? rest
    return x :: xs

/-- The notation of each entry, a colon after the key. -/
def quotedEntries? : List (Value A × Value A) → Option (List (List Char))
  | [] => some []
  | (k, v) :: rest => do
    let x ← k.quoted?
    let y ← v.quoted?
    let xs ← quotedEntries? rest
    return (x ++ ':' :: ' ' :: y) :: xs

end

/-- The text of a value: a text is its own, and a broken one is none that could be written. -/
def text? : Value A → Option String
  | str s => some s
  | broken .. => none
  | date d => some (String.ofList d.toText)
  | moment t => some (String.ofList (t.toText ' '))
  | shared _ v => v.text?
  | v => v.quoted?.map String.ofList

end Value

end RegistryBundle
