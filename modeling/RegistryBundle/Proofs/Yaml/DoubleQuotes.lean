import Mathlib.Algebra.Group.Nat.Defs
import RegistryBundle.Proofs.Yaml.Quoted

/-!
# Texts within double quotes

Within double quotes every character can be written, those that are not printable by an escape. A
line past the width is broken behind a backslash.

* `Scalar.ofHex_hexDigits` reads the digits of an escape back,
  `Scalar.escaped_escape` a whole escape;
* `Scalar.reread` is the text that is read back;
* `Scalar.quotes_escapedBody` says so, `Scalar.reread_of_not_split` that the text is the one that
  was written wherever it stands on one line.
-/

namespace RegistryBundle.Yaml.Scalar

open Chars Lexeme

/-! ## Escapes -/

/-- A hexadecimal digit is read as its value. -/
theorem hexValue_digitChar : ∀ d < 16, hexValue (Nat.digitChar d).toUpper = d ∧
    isHex (Nat.digitChar d).toUpper = true := by
  decide

private theorem ofHex_append_singleton (cs : List Char) (c : Char) :
    ofHex (cs ++ [c]) = ofHex cs * 16 + hexValue c := by
  simp [ofHex, List.foldl_append]

/-- The digits of a number are hexadecimal and denote it. -/
theorem ofHex_toDigits (n : Nat) :
    ofHex ((Nat.toDigits 16 n).map Char.toUpper) = n ∧
      ∀ c ∈ (Nat.toDigits 16 n).map Char.toUpper, isHex c = true := by
  induction n using Nat.strongRecOn with
  | ind n ih =>
    by_cases h : n < 16
    · rw [Nat.toDigits_of_lt_base h]
      obtain ⟨hv, hh⟩ := hexValue_digitChar n h
      simp [ofHex, hv, hh]
    · obtain ⟨hv, hh⟩ := ih (n / 16) (by omega)
      obtain ⟨hvd, hhd⟩ := hexValue_digitChar (n % 16) (by omega)
      rw [Nat.toDigits_of_base_le (by omega) (by omega), List.map_append]
      refine ⟨?_, ?_⟩
      · rw [List.map_singleton, ofHex_append_singleton, hv, hvd]
        omega
      · intro c hc
        rcases List.mem_append.mp hc with hc | hc
        · exact hh c hc
        · obtain rfl : c = (Nat.digitChar (n % 16)).toUpper := by simpa using hc
          exact hhd

private theorem ofHex_replicate_append (k : Nat) (cs : List Char) :
    ofHex (List.replicate k '0' ++ cs) = ofHex cs := by
  induction k with
  | zero => rfl
  | succ k ih =>
      rw [← ih]
      simp [ofHex, List.replicate_succ, show hexValue '0' = 0 by decide]

/-- A number below the bound of so many digits is written with just so many and read back. -/
theorem ofHex_hexDigits {w n : Nat} (hw : 0 < w) (hn : n < 16 ^ w) :
    (hexDigits w n).length = w ∧ (hexDigits w n).all isHex = true ∧ ofHex (hexDigits w n) = n := by
  have hlen : (Nat.toDigits 16 n).length ≤ w := (Nat.length_toDigits_le_iff (by omega) hw).mpr hn
  obtain ⟨hv, hh⟩ := ofHex_toDigits n
  refine ⟨?_, ?_, ?_⟩
  · simp only [hexDigits, List.length_append, List.length_replicate, List.length_map]
    omega
  · rw [List.all_eq_true]
    intro c hc
    rcases List.mem_append.mp hc with hc | hc
    · obtain rfl := List.eq_of_mem_replicate hc
      decide
    · exact hh c hc
  · rw [hexDigits, ofHex_replicate_append, hv]

private theorem isPlainChar_of_isHex {c : Char} (h : isHex c = true) : isPlainChar c = true := by
  have hrange : 0x30 ≤ c.toNat ∧ c.toNat ≤ 0x66 := by
    simp only [isHex, Char.isDigit, Bool.or_eq_true, Bool.and_eq_true, decide_eq_true_eq,
      Char.le_def, UInt32.le_iff_toNat_le] at h
    rcases h with (⟨h1, h2⟩ | ⟨h1, h2⟩) | ⟨h1, h2⟩
    · exact ⟨h1, Nat.le_trans h2 (by decide)⟩
    · exact ⟨Nat.le_trans (by decide) h1, h2⟩
    · exact ⟨Nat.le_trans (by decide) h1, Nat.le_trans h2 (by decide)⟩
  simp only [isPlainChar, Bool.or_eq_true, Bool.and_eq_true, decide_eq_true_eq]
  exact .inr ⟨by omega, by omega⟩

/-- The code of a character has six hexadecimal digits at most. -/
theorem toNat_lt (c : Char) : c.toNat < 0x110000 := by
  rcases c.valid with h | ⟨_, h⟩
  · exact Nat.lt_trans h (by decide)
  · exact h

/-- The code of a character is read as the character. -/
theorem letterOfCode_toNat (c : Char) : letterOfCode c.toNat = .ok (.char c) := by
  have hv : c.toNat.isValidChar := c.valid
  have hc : Char.ofNatAux c.toNat hv = c := rfl
  rw [letterOfCode, Letter.ofCode?, dif_pos hv, hc]

/-- Moving over so many characters leads behind them. -/
theorem skip_append {cs : List Char} (h : Printed cs) (p : Cursor) (ds : List Char) :
    skip cs.length p (cs ++ ds) = (p.past cs, ds) := by
  induction cs generalizing p with
  | nil => simp [skip]
  | cons c cs ih =>
      rw [printed_cons] at h
      rw [List.length_cons, List.cons_append, skip, Cursor.step_eq_past h.1, ih h.2,
        ← Cursor.past_cons]

/-- A code of so many digits is read as its character. -/
theorem escaped_code {letter : Char} {w : Nat} (hl : codeLength? letter = some w) (hw : 0 < w)
    (hp : isPlainChar letter = true) (hf : Lexeme.escapes.find? (fun x => x.1 == letter) = none)
    {c : Char}
    (hc : c.toNat < 16 ^ w) (p : Cursor) (ds : List Char) :
    escaped p (letter :: (hexDigits w c.toNat ++ ds)) =
      .ok ([.char c], p.past (letter :: hexDigits w c.toNat), ds) := by
  obtain ⟨hlen, hall, hval⟩ := ofHex_hexDigits hw hc
  have hprinted : Printed (hexDigits w c.toNat) :=
    fun d hd => isPlainChar_of_isHex (List.all_eq_true.mp hall d hd)
  have htake : (hexDigits w c.toNat ++ ds).take w = hexDigits w c.toNat := by
    rw [List.take_append_of_le_length (by omega), List.take_of_length_le (by omega)]
  have hskip := skip_append hprinted (p.past [letter]) ds
  rw [hlen] at hskip
  rw [escaped]
  simp only [hf, hl, htake, hlen, hall, beq_self_eq_true, Bool.and_self, if_true, hval,
    letterOfCode_toNat, Outcome.ok_bind, Cursor.step_eq_past hp, hskip]
  rw [Cursor.past_cons]
  rfl

/-- Every escape that has a letter of its own is known to the reader. -/
theorem find?_escapes : ∀ e ∈ Scalar.escapes, isPlainChar e.2 = true ∧ e.2 ≠ '\n' ∧
    Lexeme.escapes.find? (fun x => x.1 == e.2) = some (e.2, e.1) := by
  decide

/-- The digits of an escape are printed on its line. -/
theorem printed_hexDigits {w n : Nat} (hw : 0 < w) (hn : n < 16 ^ w) :
    Printed (hexDigits w n) ∧ '\n' ∉ hexDigits w n := by
  obtain ⟨_, hall, _⟩ := ofHex_hexDigits hw hn
  rw [List.all_eq_true] at hall
  exact ⟨fun d hd => isPlainChar_of_isHex (hall d hd), fun hm => absurd (hall _ hm) (by decide)⟩

/-- An escape is printed on its line, in ten characters at most. -/
theorem printed_escape (c : Char) :
    Printed (escape c) ∧ '\n' ∉ escape c ∧ (escape c).length ≤ 10 := by
  have code : ∀ (letter : Char) (w : Nat), isPlainChar letter = true → letter ≠ '\n' → 0 < w →
    w ≤ 8 →
      c.toNat < 16 ^ w → Printed ('\\' :: letter :: hexDigits w c.toNat) ∧
        '\n' ∉ '\\' :: letter :: hexDigits w c.toNat ∧
        ('\\' :: letter :: hexDigits w c.toNat).length ≤ 10 := by
    intro letter w hp hn hw hle hc
    obtain ⟨hprinted, hline⟩ := printed_hexDigits hw hc
    obtain ⟨hlen, _, _⟩ := ofHex_hexDigits hw hc
    refine ⟨printed_cons.mpr ⟨by decide, printed_cons.mpr ⟨hp, hprinted⟩⟩, ?_, ?_⟩
    · simp only [List.mem_cons, not_or]
      exact ⟨by decide, Ne.symm hn, hline⟩
    · simp only [List.length_cons, hlen]
      omega
  unfold escape
  split
  · next d letter hfind =>
      obtain ⟨hp, hn, _⟩ := find?_escapes _ (List.mem_of_find?_eq_some hfind)
      refine ⟨printed_cons.mpr ⟨by decide, printed_cons.mpr ⟨hp, printed_nil⟩⟩, ?_, by simp⟩
      simp only [List.mem_cons, not_or]
      exact ⟨by decide, Ne.symm hn, by simp⟩
  · split
    · exact code 'x' 2 (by decide) (by decide) (by decide) (by decide) (by omega)
    · split
      · exact code 'u' 4 (by decide) (by decide) (by decide) (by decide) (by omega)
      · have hmax := toNat_lt c
        exact code 'U' 8 (by decide) (by decide) (by decide) (by decide) (by omega)

/-- An escape begins with a backslash, and its letters are read as its character. -/
theorem escaped_escape (c : Char) :
    ∃ letters, escape c = '\\' :: letters ∧ letters ≠ [] ∧
      ∀ p ds, escaped p (letters ++ ds) = .ok ([.char c], p.past letters, ds) := by
  unfold escape
  split
  · next d letter hfind =>
      have hmem := List.mem_of_find?_eq_some hfind
      have hd : d = c := by simpa using List.find?_some hfind
      obtain ⟨hp, _, hread⟩ := find?_escapes _ hmem
      refine ⟨[letter], rfl, by simp, ?_⟩
      intro p ds
      rw [List.singleton_append, escaped]
      simp only [hread, hd, Cursor.step_eq_past hp]
  · split
    · next h =>
        exact ⟨_, rfl, by simp, fun p ds => escaped_code (by decide) (by decide) (by decide)
          (by decide)
          (by omega) p ds⟩
    · split
      · next h =>
          exact ⟨_, rfl, by simp, fun p ds => escaped_code (by decide) (by decide) (by decide)
            (by decide)
            (by omega) p ds⟩
      · have hmax := toNat_lt c
        exact ⟨_, rfl, by simp, fun p ds => escaped_code (by decide) (by decide) (by decide)
          (by decide)
          (by omega) p ds⟩

/-! ## Texts -/

/-- Whether a line that is broken behind an escaped character is broken a second time at the space
after it, with the mark of that space left behind. -/
def tears (indent : Nat) (split first : Bool) (c : Char) (rest : List Char) : Bool :=
  split && !first && isEscaped c && decide (width ≤ indent) && rest.head? == some ' ' &&
    decide (2 ≤ rest.length)

/-- The text that is read back from double quotes.  `first` tells that nothing was written yet. -/
def reread (indent : Nat) (split : Bool) : Bool → List Char → List Char
  | _, [] => []
  | first, c :: rest =>
    if tears indent split first c rest then c :: '\\' :: ' ' :: reread indent split false rest
    else c :: reread indent split false rest

/-- What is written as itself within double quotes is printed, and neither
the quote nor a backslash. -/
theorem isPlainChar_of_not_isEscaped {c : Char} (h : isEscaped c = false) :
    isPlainChar c = true ∧ c ≠ '"' ∧ c ≠ '\\' ∧ c ≠ '\n' := by
  simp only [isEscaped, Bool.or_eq_false_iff, beq_eq_false_iff_ne, ne_eq, Bool.not_eq_false'] at h
  refine ⟨by simp [isPlainChar, h.2], h.1.1, h.1.2, ?_⟩
  intro heq
  subst heq
  exact absurd h.2 (by decide)

/-- The line goes on behind a space, whatever is written of the text after it. -/
theorem goesOn_dropWhile_escapedBody (indent : Nat) (split fresh : Bool) (column : Nat)
    (cs rest : List Char) :
    GoesOn ((escapedBody indent split false fresh column cs ++ '"' :: rest).dropWhile isBlank) := by
  have backslash : ∀ ds, GoesOn (('\\' :: ds).dropWhile isBlank) := fun ds =>
    ⟨'\\', ds, by rw [List.dropWhile_cons_of_neg (by decide)], by decide, by decide⟩
  induction cs generalizing fresh column with
  | nil => exact ⟨'"', rest, by simp [escapedBody, isBlank], by decide, by decide⟩
  | cons c cs ih =>
      obtain ⟨letters, hletters, _, _⟩ := escaped_escape c
      rw [escapedBody]
      by_cases he : isEscaped c = true
      · simp only [he, if_true, hletters]
        split
        · split
          · exact backslash _
          · exact backslash _
        · exact backslash _
      · obtain ⟨hp, _, _, hn⟩ := isPlainChar_of_not_isEscaped (Bool.eq_false_iff.mpr he)
        simp only [he, if_false, Bool.false_eq_true]
        split
        · split
          · exact backslash _
          · exact backslash _
        · by_cases hs : c = ' '
          · rw [hs, List.cons_append, List.dropWhile_cons_of_pos (by decide)]
            exact ih false (column + 1)
          · have hblank : isBlank c = false := by simpa [isBlank_eq_of_isPlainChar hp] using hs
            rw [List.cons_append, List.dropWhile_cons_of_neg (by simp [hblank])]
            exact ⟨c, _, rfl, hblank, by simpa [isBreak_eq_of_isPlainChar hp] using hn⟩

/-- What is written of a text goes on with something unless the text begins with a space. -/
theorem goesOn_escapedBody (indent : Nat) (split fresh : Bool) (column : Nat) {cs : List Char}
    (h : cs.head? ≠ some ' ') (rest : List Char) :
    GoesOn (escapedBody indent split false fresh column cs ++ '"' :: rest) := by
  cases cs with
  | nil => exact ⟨'"', rest, rfl, by decide, by decide⟩
  | cons c cs =>
      have hs : c ≠ ' ' := by simpa using h
      obtain ⟨letters, hletters, _, _⟩ := escaped_escape c
      have backslash : ∀ ds, GoesOn ('\\' :: ds) := fun ds => ⟨'\\', ds, rfl, by decide, by decide⟩
      rw [escapedBody]
      by_cases he : isEscaped c = true
      · simp only [he, if_true, hletters]
        split
        · split
          · exact backslash _
          · exact backslash _
        · exact backslash _
      · obtain ⟨hp, _, _, hn⟩ := isPlainChar_of_not_isEscaped (Bool.eq_false_iff.mpr he)
        simp only [he, if_false, Bool.false_eq_true]
        split
        · exact backslash _
        · exact ⟨c, _, rfl, by simpa [isBlank_eq_of_isPlainChar hp] using hs,
            by simpa [isBreak_eq_of_isPlainChar hp] using hn⟩

/-- An escape that is not written in place of its character stands for a space, too. -/
theorem escaped_space (p : Cursor) (ds : List Char) :
    escaped p ([' '] ++ ds) = .ok ([.char ' '], p.past [' '], ds) := by
  have h : Lexeme.escapes.find? (fun x => x.1 == ' ') = some (' ', ' ') := by decide
  rw [List.singleton_append, escaped]
  simp only [h, Cursor.step_eq_past (c := ' ') (by decide)]

/-- So does one for a backslash. -/
theorem escaped_backslash (p : Cursor) (ds : List Char) :
    escaped p (['\\'] ++ ds) = .ok ([.char '\\'], p.past ['\\'], ds) := by
  have h : Lexeme.escapes.find? (fun x => x.1 == '\\') = some ('\\', '\\') := by decide
  rw [List.singleton_append, escaped]
  simp only [h, Cursor.step_eq_past (c := '\\') (by decide)]

/-- A space is never escaped, so nothing is torn at it. -/
theorem reread_space (indent : Nat) (split first : Bool) (cs : List Char) :
    reread indent split first (' ' :: cs) = ' ' :: reread indent split false cs := by
  simp [reread, tears, show isEscaped ' ' = false by decide]

theorem reread_of_not_tears {indent : Nat} {split first : Bool} {c : Char} {cs : List Char}
    (h : tears indent split first c cs = false) :
    reread indent split first (c :: cs) = c :: reread indent split false cs := by
  simp [reread, h]

/-- A broken line whose escape a space follows: the backslash that should mark the space marks
another one if the indentation alone passes the width and the text goes on. -/
theorem quotes_brokenSpace {indent : Nat} (hi : 0 < indent) {rest : List Char} {c : Char}
    (he : isEscaped c = true)
    {cs : List Char} (h : Quotes true rest
      (escapedBody indent true false false (indent + 2) cs ++ ['"'])
      (reread indent true false cs)) :
    Quotes true rest
      (escape c ++ '\\' :: '\n' :: (spaces indent ++ '\\' ::
        escapedBody indent true false true (indent + 1) (' ' :: cs)) ++ ['"'])
      (reread indent true false (c :: ' ' :: cs)) := by
  obtain ⟨letters, hletters, _, hread⟩ := escaped_escape c
  have hspace := Quotes.escape escaped_space h
  have hnext : escapedBody indent true false true (indent + 1) (' ' :: cs) =
      if width ≤ indent ∧ cs ≠ [] then
        '\\' :: '\n' :: (spaces indent ++ '\\' :: ' ' ::
          escapedBody indent true false false (indent + 2) cs)
      else ' ' :: escapedBody indent true false false (indent + 2) cs := by
    have hspace : isEscaped ' ' = false := by decide
    have hwidth : decide (width < indent + 1) = decide (width ≤ indent) :=
      decide_eq_decide.mpr Nat.lt_succ_iff
    rw [escapedBody, hspace, hwidth]
    simp [and_comm]
  have htears : tears indent true false c (' ' :: cs) = decide (width ≤ indent ∧ cs ≠ []) := by
    cases cs <;> simp [tears, he]
  rw [hnext, reread, htears, hletters]
  by_cases ht : width ≤ indent ∧ cs ≠ []
  · have hbreak := Quotes.breaks (n := 0) hi ⟨'\\', _, rfl, by decide, by decide⟩ hspace
    have hmark := Quotes.escape escaped_backslash hbreak
    have hfold := Quotes.fold (m := indent) hi ⟨'\\', _, rfl, by decide, by decide⟩ hmark
    rw [if_pos ht, decide_eq_true ht, if_pos rfl, reread_space]
    simpa using Quotes.escape hread hfold
  · have hfold := Quotes.fold (m := indent) hi ⟨'\\', _, rfl, by decide, by decide⟩ hspace
    rw [if_neg ht, decide_eq_false ht, if_neg (by simp), reread_space]
    simpa using Quotes.escape hread hfold

/-- Where a line is torn the text goes on, past the width and not at its beginning. -/
theorem of_tears {indent : Nat} {split first : Bool} {c : Char} {cs : List Char}
    (h : tears indent split first c cs = true) :
    split = true ∧ first = false ∧ cs.isEmpty = false ∧ width ≤ indent := by
  simp only [tears, Bool.and_eq_true, Bool.not_eq_true', decide_eq_true_eq] at h
  obtain ⟨⟨⟨⟨⟨hs, hf⟩, _⟩, hw⟩, _⟩, hl⟩ := h
  refine ⟨hs, hf, ?_, hw⟩
  cases cs with
  | nil => exact absurd hl (by simp)
  | cons d ds => rfl

/-- What texts of fewer than `l` characters are read back as. -/
def ReadsBelow (indent : Nat) (split : Bool) (rest : List Char) (l : Nat) : Prop :=
  ∀ (cs : List Char), cs.length < l → ∀ (first fresh : Bool) (column : Nat), indent ≤ column →
    Quotes true rest (escapedBody indent split first fresh column cs ++ ['"'])
      (reread indent split first cs)

/-- An escaped character in front of a text. -/
theorem quotes_escaped {indent : Nat} (hi : 0 < indent) {split : Bool} {rest : List Char} {c : Char}
    (he : isEscaped c = true) {cs : List Char} (ih : ReadsBelow indent split rest (cs.length + 1))
    (first fresh : Bool)
    {column : Nat} (hc : indent ≤ column) :
    Quotes true rest (escapedBody indent split first fresh column (c :: cs) ++ ['"'])
      (reread indent split first (c :: cs)) := by
  obtain ⟨letters, hletters, hne, hread⟩ := escaped_escape c
  have hlen : 2 ≤ (escape c).length := by
    have := List.length_pos_iff.mpr hne
    rw [hletters, List.length_cons]
    omega
  have next := ih cs (Nat.lt_succ_self _) false true
  rw [escapedBody]
  simp only [he, if_true]
  split
  · next hbreak =>
      simp only [Bool.and_eq_true, Bool.not_eq_true', decide_eq_true_eq] at hbreak
      obtain ⟨⟨⟨rfl, rfl⟩, hnil⟩, hwidth⟩ := hbreak
      split
      · next hs =>
          obtain ⟨ds, rfl⟩ : ∃ ds, cs = ' ' :: ds := List.head?_eq_some_iff.mp (by simpa using hs)
          have hds : ds.length < (' ' :: ds).length + 1 := by
            rw [List.length_cons]
            omega
          exact quotes_brokenSpace hi he (ih ds hds false false _ (by omega))
      · next hs =>
          have hhead : cs.head? ≠ some ' ' := by simpa using hs
          have hgoes := goesOn_escapedBody indent true true indent hhead rest
          have hfold := Quotes.fold hi (by simpa using hgoes) (next indent (Nat.le_refl _))
          rw [reread_of_not_tears (by simp [tears, hs]), hletters]
          simpa using Quotes.escape hread hfold
  · next hbreak =>
      have htears : tears indent split first c cs = false := by
        refine Bool.eq_false_iff.mpr fun ht => hbreak ?_
        obtain ⟨hs, hf, hnil, hw⟩ := of_tears ht
        simp only [hs, hf, hnil, Bool.not_false, Bool.and_true, Bool.true_and, decide_eq_true_eq]
        omega
      have hrest := next (column + (escape c).length) (by omega)
      rw [hletters] at hrest
      rw [reread_of_not_tears htears, hletters]
      simpa using Quotes.escape hread hrest

/-- A character that is written as itself in front of a text. -/
theorem quotes_unescaped {indent : Nat} (hi : 0 < indent) {split : Bool} {rest : List Char}
    {c : Char}
    (he : isEscaped c = false) {cs : List Char} (ih : ReadsBelow indent split rest (cs.length + 1))
    (first fresh : Bool)
    {column : Nat} (hc : indent ≤ column) :
    Quotes true rest (escapedBody indent split first fresh column (c :: cs) ++ ['"'])
      (reread indent split first (c :: cs)) := by
  obtain ⟨hp, hq, hb, hn⟩ := isPlainChar_of_not_isEscaped he
  have hq : c ≠ quoteMark true := hq
  have next := ih cs (Nat.lt_succ_self _) false false
  rw [reread_of_not_tears (by simp [tears, he]), escapedBody]
  simp only [he, if_false, Bool.false_eq_true]
  split
  · split
    · next hs =>
        subst hs
        have hspace := Quotes.escape escaped_space (next (indent + 2) (by omega))
        simpa using Quotes.fold hi (m := indent) ⟨'\\', _, rfl, by decide, by decide⟩ hspace
    · next hs =>
        have hchar := (next (indent + 1) (by omega)).char hp hq (fun _ => hb) hs hn
        have hgoes : GoesOn (c :: (escapedBody indent split false false (indent + 1) cs ++ ['"']) ++
            rest) :=
          ⟨c, _, rfl, by simpa [isBlank_eq_of_isPlainChar hp] using hs,
            by simpa [isBreak_eq_of_isPlainChar hp] using hn⟩
        simpa using Quotes.fold hi hgoes hchar
  · have hrest := next (column + 1) (by omega)
    by_cases hs : c = ' '
    · subst hs
      refine Quotes.space ?_ hrest
      simpa using goesOn_dropWhile_escapedBody indent split false (column + 1) cs rest
    · exact hrest.char hp hq (fun _ => hb) hs hn

/-- **What a text within double quotes is read back as.** -/
theorem quotes_escapedBody {indent : Nat} (hi : 0 < indent) (split : Bool) (rest : List Char)
    (first fresh : Bool)
    {column : Nat} (hc : indent ≤ column) (cs : List Char) :
    Quotes true rest (escapedBody indent split first fresh column cs ++ ['"'])
      (reread indent split first cs) := by
  -- Two characters may be written at once, so the induction is on the length.
  induction hl : cs.length using Nat.strongRecOn generalizing cs first fresh column with
  | ind l ih =>
    subst hl
    have hbelow : ReadsBelow indent split rest cs.length :=
      fun ds hds first fresh column hc => ih ds.length hds first fresh hc ds rfl
    cases cs with
    | nil => exact Quotes.close (.inl rfl)
    | cons c cs =>
      cases he : isEscaped c with
      | true => exact quotes_escaped hi he hbelow first fresh hc
      | false => exact quotes_unescaped hi he hbelow first fresh hc

/-- What stands within double quotes is printed. -/
theorem printed_escapedBody (indent : Nat) (split first fresh : Bool) (column : Nat)
    (cs : List Char) :
    Printed (escapedBody indent split first fresh column cs) := by
  have hbackslash : isPlainChar '\\' = true := by decide
  have hfeed : isPlainChar '\n' = true := by decide
  induction cs generalizing first fresh column with
  | nil => exact printed_nil
  | cons c cs ih =>
      have hspaces := printed_spaces indent
      have hescape := (printed_escape c).1
      rw [escapedBody]
      by_cases he : isEscaped c = true
      · simp only [he, if_true]
        split
        · split <;> simp [hescape, hbackslash, hfeed, hspaces, ih]
        · simp [hescape, ih]
      · obtain ⟨hp, _⟩ := isPlainChar_of_not_isEscaped (Bool.eq_false_iff.mpr he)
        simp only [he, if_false, Bool.false_eq_true]
        split
        · split <;> simp [hp, hbackslash, hfeed, hspaces, ih]
        · simp [hp, ih]

/-- A text within double quotes whose lines are not broken stands on one line, whatever the
indentation, and takes ten characters at most for each of its own. -/
theorem escapedBody_of_not_split (indent : Nat) (first fresh : Bool) (column : Nat)
    (cs : List Char) :
    '\n' ∉ escapedBody indent false first fresh column cs ∧
      (escapedBody indent false first fresh column cs).length ≤ 10 * cs.length ∧
      ∀ i, escapedBody indent false first fresh column cs =
        escapedBody i false first fresh column cs := by
  induction cs generalizing first fresh column with
  | nil => exact ⟨by simp [escapedBody], by simp [escapedBody], fun _ => rfl⟩
  | cons c cs ih =>
      by_cases he : isEscaped c = true
      · obtain ⟨hn, hl, hi⟩ := ih false true (column + (escape c).length)
        obtain ⟨_, hline, hlen⟩ := printed_escape c
        simp only [escapedBody, he, if_true, Bool.false_and, Bool.false_eq_true, if_false]
        refine ⟨?_, ?_, fun i => by rw [hi i]⟩
        · rw [List.mem_append, not_or]
          exact ⟨hline, hn⟩
        · simp only [List.length_append, List.length_cons]
          omega
      · obtain ⟨hn, hl, hi⟩ := ih false false (column + 1)
        obtain ⟨_, _, _, hline⟩ := isPlainChar_of_not_isEscaped (Bool.eq_false_iff.mpr he)
        simp only [escapedBody, he, Bool.false_and, Bool.false_eq_true, if_false]
        refine ⟨?_, ?_, fun i => by rw [hi i]⟩
        · rw [List.mem_cons, not_or]
          exact ⟨Ne.symm hline, hn⟩
        · simp only [List.length_cons]
          omega

/-- No text is torn whose lines are not broken. -/
theorem reread_of_not_split (indent : Nat) (first : Bool) (cs : List Char) :
    reread indent false first cs = cs := by
  induction cs generalizing first with
  | nil => rfl
  | cons c cs ih => rw [reread_of_not_tears (by simp [tears]), ih]

end RegistryBundle.Yaml.Scalar
