/-!
# Octets as letters

Three octets are four letters of a 64-letter alphabet; the last group is filled with
`=`. Lines hold 76 letters.

* `Base64.encode` writes octets as lines;
* `Base64.decode?` reads them back, passing over characters outside the alphabet.
-/

namespace RegistryBundle.Base64

/-- The letters, by their value. -/
def alphabet : List Char :=
  "ABCDEFGHIJKLMNOPQRSTUVWXYZabcdefghijklmnopqrstuvwxyz0123456789+/".toList

/-- The letter of a value below 64. -/
def letter (n : Nat) : Char :=
  alphabet.getD (n % 64) 'A'

/-- The value of a letter. -/
def value? (c : Char) : Option Nat :=
  let i := alphabet.idxOf c
  if i < 64 then some i else none

/-- The letters of octets, without line breaks. -/
def letters : List UInt8 → List Char
  | [] => []
  | [a] =>
    let n := a.toNat * 16
    [letter (n / 64), letter n, '=', '=']
  | [a, b] =>
    let n := (a.toNat * 256 + b.toNat) * 4
    [letter (n / 4096), letter (n / 64), letter n, '=']
  | a :: b :: c :: rest =>
    let n := (a.toNat * 256 + b.toNat) * 256 + c.toNat
    letter (n / 262144) :: letter (n / 4096) :: letter (n / 64) :: letter n :: letters rest

/-- Lines of at most 76 letters, each ended by a line break; `fuel` bounds their number. -/
def lines : Nat → List Char → List Char
  | 0, _ => []
  | _, [] => []
  | fuel + 1, cs => cs.take 76 ++ '\n' :: lines fuel (cs.drop 76)

/-- Octets as lines of letters. -/
def encode (octets : List UInt8) : List Char :=
  let cs := letters octets
  lines cs.length cs

/-- Reads letters in groups of four; `values` are those of the current group, the latest first, and
`pads` counts the `=` met since the last letter. A full fill ends the text; letters that are missing
at the end make it none. -/
def decodeFrom (pads : Nat) (values : List Nat) (octets : List UInt8) :
    List Char → Option (List UInt8)
  | [] => if values.isEmpty then some octets.reverse else none
  | c :: rest =>
    if c = '=' then
      if 2 ≤ values.length && 4 ≤ values.length + (pads + 1) then some octets.reverse
      else decodeFrom (pads + 1) values octets rest
    else
      match value? c with
      | none => decodeFrom pads values octets rest
      | some v =>
        match values with
        | [] => decodeFrom 0 [v] octets rest
        | [a] => decodeFrom 0 [v, a] ((a * 4 + v / 16).toUInt8 :: octets) rest
        | [b, a] => decodeFrom 0 [v, b, a] ((b % 16 * 16 + v / 4).toUInt8 :: octets) rest
        | b :: _ => decodeFrom 0 [] ((b % 4 * 64 + v).toUInt8 :: octets) rest

/-- The octets that letters stand for. -/
def decode? (cs : List Char) : Option (List UInt8) :=
  decodeFrom 0 [] [] cs

end RegistryBundle.Base64
