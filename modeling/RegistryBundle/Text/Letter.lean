/-!
# Letters

The letters of a text are characters, or halves of characters that stand alone. A text with such a
half is broken: a document can name it, but no octets encode it.

* `Letter.ofCode?` is the letter with a code, `BrokenText` a text with a half;
* `Alphabet` says of a document whether it may hold broken texts, `TextOver` what its texts are.
-/

namespace RegistryBundle

/-- A letter of a text. -/
inductive Letter where
  | char (c : Char)
  /-- A half of a character, counted from the first one. -/
  | half (n : Fin 0x800)
deriving DecidableEq, Repr

namespace Letter

/-- The code of the first half. -/
def firstHalf : Nat := 0xD800

/-- The letter with a code. -/
def ofCode? (n : Nat) : Option Letter :=
  if h : n.isValidChar then some (.char (Char.ofNatAux n h))
  else if h : firstHalf ≤ n ∧ n - firstHalf < 0x800 then some (.half ⟨n - firstHalf, h.2⟩)
  else none

/-- The character that a letter is. -/
def char? : Letter → Option Char
  | char c => some c
  | half _ => none

/-- Whether a letter is a half. -/
def isHalf : Letter → Bool
  | char _ => false
  | half _ => true

/-- No character is a half. -/
theorem any_isHalf_chars (cs : List Char) : (cs.map char).any isHalf = false := by
  rw [List.any_map, List.any_eq_false]
  exact fun _ _ => Bool.false_ne_true

/-- The characters of characters. -/
theorem filterMap_char?_chars (cs : List Char) : (cs.map char).filterMap char? = cs := by
  rw [List.filterMap_map]
  exact List.filterMap_some

end Letter

/-- A text with a half in it. -/
structure BrokenText where
  letters : List Letter
  broken : letters.any Letter.isHalf = true
deriving DecidableEq, Repr

namespace BrokenText

/-- The octets that would encode a half encode nothing: three marks stand for them. -/
def marks : Letter → List Char
  | .char c => [c]
  | .half _ => List.replicate 3 '\uFFFD'

/-- The text with marks for what cannot be encoded. -/
def marked (t : BrokenText) : String :=
  String.ofList (t.letters.flatMap marks)

end BrokenText

/-- A text that may be broken. -/
inductive Text where
  | whole (s : String)
  | broken (t : BrokenText)
deriving DecidableEq, Repr

/-- What the texts of a document are made of: characters, or letters of both kinds. -/
inductive Alphabet where
  | characters
  | letters
deriving DecidableEq, Repr

/-- The characters alone are another alphabet. -/
theorem Alphabet.characters_ne_letters : characters ≠ letters :=
  Alphabet.noConfusion

/-- The texts over an alphabet: the strings, and the broken texts if the alphabet has halves. -/
class TextOver (A : outParam Alphabet) (τ : Type) where
  ofString : String → τ
  ofBroken : A = .letters → BrokenText → τ
  ofString_inj {s t : String} : ofString s = ofString t → s = t
  ofBroken_inj {h : A = .letters} {s t : BrokenText} : ofBroken h s = ofBroken h t → s = t
  ofString_ne_ofBroken {s : String} {h : A = .letters} {t : BrokenText} :
    ofString s ≠ ofBroken h t

instance : TextOver .characters String where
  ofString s := s
  ofBroken h := absurd h Alphabet.characters_ne_letters
  ofString_inj h := h
  ofBroken_inj {h} := absurd h Alphabet.characters_ne_letters
  ofString_ne_ofBroken {_ h} := absurd h Alphabet.characters_ne_letters

instance : TextOver .letters Text where
  ofString := .whole
  ofBroken _ := .broken
  ofString_inj := Text.whole.inj
  ofBroken_inj := Text.broken.inj
  ofString_ne_ofBroken := Text.noConfusion

@[simp] theorem TextOver.ofString_string (s : String) : (ofString s : String) = s := rfl

end RegistryBundle
