/-!
# Reading of texts

The small steps of all readers: a reader takes something from the front of a
text and leaves the rest.

* `Reading.fields` cuts a text at a separator and loses nothing: `intercalate_fields`;
* `Reading.number?` and `Reading.after?` read digits and one character.
-/

namespace RegistryBundle.Reading

/-- What a reader took and the text that is left. -/
abbrev Taken (α : Type) := α × List Char

/-- The parts of a text between the occurrences of a separator. -/
def fields (separator : Char) : List Char → List (List Char)
  | [] => [[]]
  | c :: rest =>
    match fields separator rest with
    | [] => [[c]]
    | f :: fs => if c = separator then [] :: f :: fs else (c :: f) :: fs

/-- A number of `low` to `high` digits at the front of a text, with its width. -/
def number? (low high : Nat) (cs : List Char) : Option (Nat × Nat × List Char) :=
  let ds := (cs.take high).takeWhile Char.isDigit
  if low ≤ ds.length then some (Nat.ofDigitChars 10 ds 0, ds.length, cs.drop ds.length) else none

/-- A text after a character at its front. -/
def after? (c : Char) : List Char → Option (List Char)
  | d :: r => if c = d then some r else none
  | [] => none

/-- The character of a code point. -/
def char? (n : Nat) : Option Char :=
  if h : n.isValidChar then some (Char.ofNatAux n h) else none

/-- A text has at least one part. -/
theorem fields_ne_nil (separator : Char) (cs : List Char) : fields separator cs ≠ [] := by
  cases cs with
  | nil => simp [fields]
  | cons c rest =>
    unfold fields
    split
    · simp
    · split <;> simp

/-- The parts with the separator between them are the text. -/
theorem intercalate_fields (separator : Char) (cs : List Char) :
    [separator].intercalate (fields separator cs) = cs := by
  induction cs with
  | nil => rfl
  | cons c rest ih =>
    unfold fields
    split
    · next h => exact absurd h (fields_ne_nil separator rest)
    · next f fs h =>
      rw [h] at ih
      by_cases hc : c = separator
      · subst hc
        simpa [List.intercalate] using ih
      · rw [if_neg hc]
        cases fs with
        | nil => simpa [List.intercalate] using ih
        | cons g gs => simpa [List.intercalate] using ih

end RegistryBundle.Reading
