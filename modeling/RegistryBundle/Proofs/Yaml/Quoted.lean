import RegistryBundle.Proofs.Outcome
import RegistryBundle.Proofs.Yaml.Printed

/-!
# Quoted scalars read back

What a reader of quoted scalars takes, said rule by rule: one rule for a character, for a doubled
quote, for a space, for a break of lines and for an escape.

* `Lexeme.Quotes` is the relation between what is written and the text that is read;
* `Quotes.close`, `Quotes.char`, `Quotes.doubled`, `Quotes.space`, `Quotes.breaks`, `Quotes.escape`,
  `Quotes.fold` are its rules.
-/

namespace RegistryBundle.Yaml.Lexeme

open Chars Scalar

/-- In front of `rest`, the reader of a quoted scalar takes `body`, its closing quote
included, and reads `text`. -/
def Quotes (double : Bool) (rest body text : List Char) : Prop :=
  ∀ p fuel, (body ++ rest).length < fuel →
    quoted double fuel p (body ++ rest) = .ok (text.map .char, p.past body, rest)

/-- The quote around a scalar. -/
def quoteMark (double : Bool) : Char :=
  if double then '"' else '\''

/-- A text goes on with something that is neither a blank nor a break. -/
def GoesOn (cs : List Char) : Prop :=
  ∃ c ds, cs = c :: ds ∧ isBlank c = false ∧ isBreak c = false

/-- One step of the reader at a character that means nothing else. -/
theorem quoted_char {double : Bool} {c : Char} (hq : c ≠ quoteMark double)
    (he : double = true → c ≠ '\\')
    (hb : isBlank c = false) (hn : isBreak c = false) (n : Nat) (p : Cursor) (cs : List Char) :
    quoted double (n + 1) p (c :: cs) =
      (quoted double n (p.step c cs) cs).map fun found => (.char c :: found.1, found.2) := by
  have hescape : (double && decide (c = '\\')) = false := by simpa using he
  rw [quoted.eq_def]
  simp only [quoteMark] at hq
  simp only [hq, hescape, hb, hn, if_false, Bool.or_self, Bool.false_eq_true]
  cases quoted double n (p.step c cs) cs <;> rfl

/-- One step of the reader at a blank or a break. -/
theorem quoted_gap {double : Bool} {c : Char} (hc : isBlank c = true ∨ isBreak c = true)
    {p : Cursor}
    {cs : List Char} {gap : Found (List Char)} (hgap : quotedGap p (c :: cs) = .ok gap) (n : Nat) :
    quoted double (n + 1) p (c :: cs) =
      (quoted double n gap.2.1 gap.2.2).map fun found =>
        (gap.1.map .char ++ found.1, found.2) := by
  have hq : c ≠ '"' ∧ c ≠ '\'' ∧ c ≠ '\\' := by
    refine ⟨?_, ?_, ?_⟩ <;> rintro rfl <;> exact absurd hc (by decide)
  have hmark : c ≠ (if double = true then '"' else '\'') := by cases double <;> simp [hq]
  rw [quoted.eq_def]
  simp only [hmark, hq.2.2, decide_false, Bool.and_false, if_false, Bool.or_eq_true, hc, if_true,
    hgap, Bool.false_eq_true, Outcome.ok_bind]
  cases quoted double n gap.2.1 gap.2.2 <;> rfl

/-- One step of the reader at an escape. -/
theorem quoted_escape {p q : Cursor} {cs left : List Char} {text : List Letter}
    (h : escaped (p.step '\\' cs) cs = .ok (text, q, left)) (n : Nat) :
    quoted true (n + 1) p ('\\' :: cs) = (quoted true n q left).map fun found =>
      (text ++ found.1, found.2) := by
  rw [quoted.eq_def]
  simp only [if_true, Bool.true_and, decide_true, h, show ('\\' = '"') = False by decide, if_false,
    Outcome.ok_bind]
  cases quoted true n q left <;> rfl

/-- The closing quote ends the scalar, unless a second single quote follows a single one. -/
theorem Quotes.close {double : Bool} {rest : List Char}
    (h : double = true ∨ rest.head? ≠ some '\'') :
    Quotes double rest [quoteMark double] [] := by
  intro p fuel hf
  obtain ⟨n, rfl⟩ : ∃ n, fuel = n + 1 := ⟨fuel - 1, by simp at hf; omega⟩
  have hs : p.step (quoteMark double) rest = p.past [quoteMark double] :=
    Cursor.step_eq_past (by cases double <;> decide) p rest
  rw [List.singleton_append, quoted.eq_def]
  simp only [quoteMark] at hs ⊢
  simp only [if_true, hs]
  split
  · simp at h
  · rfl

/-- A character that means nothing else stands for itself. -/
theorem Quotes.char {double : Bool} {rest body text : List Char} {c : Char}
    (hp : isPlainChar c = true)
    (hq : c ≠ quoteMark double) (he : double = true → c ≠ '\\') (hb : c ≠ ' ') (hn : c ≠ '\n')
    (h : Quotes double rest body text) : Quotes double rest (c :: body) (c :: text) := by
  intro p fuel hf
  obtain ⟨n, rfl⟩ : ∃ n, fuel = n + 1 := ⟨fuel - 1, by simp at hf; omega⟩
  have hblank : isBlank c = false := by simpa [isBlank_eq_of_isPlainChar hp] using hb
  have hbreak : isBreak c = false := by simpa [isBreak_eq_of_isPlainChar hp] using hn
  rw [List.cons_append, quoted_char hq he hblank hbreak, Cursor.step_eq_past hp,
    h (p.past [c]) n (by simp at hf ⊢; omega)]
  rfl

/-- Two single quotes stand for one. -/
theorem Quotes.doubled {rest body text : List Char} (h : Quotes false rest body text) :
    Quotes false rest ('\'' :: '\'' :: body) ('\'' :: text) := by
  intro p fuel hf
  obtain ⟨n, rfl⟩ : ∃ n, fuel = n + 1 := ⟨fuel - 1, by simp at hf; omega⟩
  have hq : isPlainChar '\'' = true := by decide
  have ih := h (p.past ['\'', '\'']) n (by simp at hf ⊢; omega)
  rw [Cursor.past_cons] at ih
  rw [List.cons_append, List.cons_append, quoted.eq_def]
  simp only [Bool.false_eq_true, if_false, if_true, Cursor.step_eq_past hq, ih]
  rfl

/-- A run of blanks stops where the blanks end, wherever it began. -/
theorem run_isBlank_left (p : Cursor) (cs : List Char) :
    (run isBlank p cs).2.2 = cs.dropWhile isBlank := by
  induction cs generalizing p with
  | nil => rfl
  | cons c cs ih =>
      by_cases h : isBlank c = true
      · simp [run, List.dropWhile, h, ih]
      · simp [run, List.dropWhile, h]

/-- Blanks that something follows on their line are a gap of just those blanks. -/
theorem quotedGap_of_goesOn {cs : List Char} (p : Cursor) (h : GoesOn (cs.dropWhile isBlank)) :
    quotedGap p cs = .ok (run isBlank p cs) := by
  obtain ⟨c, ds, hcs, _, hbreak⟩ := h
  rw [← run_isBlank_left p] at hcs
  unfold quotedGap
  generalize run isBlank p cs = found at hcs ⊢
  obtain ⟨white, q, left⟩ := found
  simp only at hcs
  subst hcs
  simp [hbreak]

/-- A space stands for itself if its line goes on behind it. -/
theorem Quotes.space {double : Bool} {rest body text : List Char}
    (hg : GoesOn ((body ++ rest).dropWhile isBlank)) (h : Quotes double rest body text) :
    Quotes double rest (' ' :: body) (' ' :: text) := by
  intro p fuel hf
  obtain ⟨n, rfl⟩ : ∃ n, fuel = n + 1 := ⟨fuel - 1, by simp at hf; omega⟩
  have hblank : isBlank ' ' = true := by decide
  have hlen : (body ++ rest).length < n := by simp at hf ⊢; omega
  -- The reader takes the run of blanks at once, together with those at the front of `body`.
  have hgap : quotedGap p (' ' :: (body ++ rest)) =
      .ok (' ' :: (run isBlank (p.past [' ']) (body ++ rest)).1,
        (run isBlank (p.past [' ']) (body ++ rest)).2) := by
    rw [quotedGap_of_goesOn p (by rwa [List.dropWhile_cons_of_pos hblank])]
    simp [run, hblank, Cursor.step_eq_past (c := ' ') (by decide)]
  rw [List.cons_append, quoted_gap (.inl hblank) hgap]
  cases hrun : body ++ rest with
  | nil =>
      obtain ⟨c, ds, hcs, _⟩ := hg
      simp [hrun] at hcs
  | cons c cs =>
      rw [hrun] at hlen hg
      by_cases hc : isBlank c = true
      · have ih := h (p.past [' ']) (n + 1) (by rw [hrun]; omega)
        rw [hrun, quoted_gap (.inl hc) (quotedGap_of_goesOn _ hg), Outcome.map_eq_ok] at ih
        obtain ⟨found, hfound, heq⟩ := ih
        obtain ⟨htext, hrest⟩ := Prod.mk.inj heq
        rw [hfound, Outcome.map_ok, List.map_cons, List.cons_append, htext, hrest]
        rfl
      · have ih := h (p.past [' ']) n (by rw [hrun]; omega)
        rw [hrun] at ih
        simp only [run, hc, if_false, Bool.false_eq_true]
        rw [ih, Cursor.past_cons]
        rfl

/-- Line feeds and an indentation, read up to where the text goes on. -/
private theorem quotedBreaks_newLines {n m : Nat} (hm : 0 < m) {ds : List Char} (hd : GoesOn ds)
    (p : Cursor) (fuel : Nat)
    (hf : n < fuel) :
    quotedBreaks fuel p (List.replicate n '\n' ++ (spaces m ++ ds)) =
      .ok (List.replicate n '\n', p.past (List.replicate n '\n' ++ spaces m), ds) := by
  induction n generalizing p fuel with
  | zero =>
      obtain ⟨f, rfl⟩ : ∃ f, fuel = f + 1 := ⟨fuel - 1, by omega⟩
      obtain ⟨k, rfl⟩ : ∃ k, m = k + 1 := ⟨m - 1, by omega⟩
      obtain ⟨c, es, rfl, hblank, hbreak⟩ := hd
      have hmark : atDocumentMark (spaces (k + 1) ++ c :: es) = false :=
        atDocumentMark_of_head (by decide) (by decide) _
      have hrun : run isBlank p (spaces (k + 1) ++ c :: es) =
          (spaces (k + 1), p.past (spaces (k + 1)), c :: es) := by
        refine run_append (printed_spaces _) ?_ (by simpa using hblank) p
        intro d hd
        obtain rfl := List.eq_of_mem_replicate hd
        decide
      rw [quotedBreaks]
      simp [hmark, hrun, hbreak]
  | succ n ih =>
      obtain ⟨f, rfl⟩ : ∃ f, fuel = f + 1 := ⟨fuel - 1, by omega⟩
      have ih := ih (p.past ['\n']) f (by omega)
      generalize spaces m ++ ds = left at ih ⊢
      have hmark : atDocumentMark ('\n' :: (List.replicate n '\n' ++ left)) = false :=
        atDocumentMark_of_head (by decide) (by decide) _
      have hblank : isBlank '\n' = false := by decide
      have hbreak : isBreak '\n' = true := by decide
      rw [List.replicate_succ, List.cons_append, List.cons_append, quotedBreaks, Cursor.past_cons]
      simp only [hmark, run, hblank, hbreak, Bool.false_eq_true, if_false, if_true,
        lineBreak_newLine, ih, Outcome.ok_bind]
      rfl

/-- A gap of one line feed is a space, and of more the first vanishes. -/
private theorem quotedGap_newLines {n m : Nat} (hm : 0 < m) {ds : List Char} (hd : GoesOn ds)
    (p : Cursor) :
    quotedGap p ('\n' :: (List.replicate n '\n' ++ (spaces m ++ ds))) =
      .ok (if n = 0 then [' '] else List.replicate n '\n',
        p.past ('\n' :: (List.replicate n '\n' ++ spaces m)), ds) := by
  have hblank : isBlank '\n' = false := by decide
  have hbreak : isBreak '\n' = true := by decide
  have hbreaks := quotedBreaks_newLines (n := n) hm hd (p.past ['\n'])
    ((List.replicate n '\n' ++ (spaces m ++ ds)).length + 1)
    (by simp only [List.length_append, List.length_replicate]; omega)
  rw [Cursor.past_cons, quotedGap]
  simp only [run, hblank, hbreak, Bool.false_eq_true, if_false, if_true, lineBreak_newLine, hbreaks,
    Outcome.ok_bind]
  cases n <;> simp [pure, Except.pure, List.replicate_succ]

/-- A line feed and an indentation stand for a space, more line feeds for those behind the first. -/
theorem Quotes.breaks {double : Bool} {rest body text : List Char} {n m : Nat} (hm : 0 < m)
    (hg : GoesOn (body ++ rest)) (h : Quotes double rest body text) :
    Quotes double rest ('\n' :: (List.replicate n '\n' ++ (spaces m ++ body)))
      ((if n = 0 then [' '] else List.replicate n '\n') ++ text) := by
  intro p fuel hf
  obtain ⟨k, rfl⟩ : ∃ k, fuel = k + 1 := ⟨fuel - 1, by simp at hf; omega⟩
  have hgap := quotedGap_newLines (n := n) hm hg p
  have ih := h (p.past ('\n' :: (List.replicate n '\n' ++ spaces m))) k (by simp at hf ⊢; omega)
  have hcs : '\n' :: (List.replicate n '\n' ++ (spaces m ++ body)) ++ rest =
      '\n' :: (List.replicate n '\n' ++ (spaces m ++ (body ++ rest))) := by simp
  rw [hcs, quoted_gap (.inr (by decide)) hgap, ih, Outcome.map_ok, ← Cursor.past_append]
  simp

/-- An escape stands for its character. -/
theorem Quotes.escape {rest body text letters : List Char} {c : Char}
    (he : ∀ p ds, escaped p (letters ++ ds) = .ok ([.char c], p.past letters, ds))
    (h : Quotes true rest body text) :
      Quotes true rest ('\\' :: (letters ++ body)) (c :: text) := by
  intro p fuel hf
  obtain ⟨k, rfl⟩ : ∃ k, fuel = k + 1 := ⟨fuel - 1, by simp at hf; omega⟩
  have hcs : '\\' :: (letters ++ body) ++ rest = '\\' :: (letters ++ (body ++ rest)) := by simp
  have hesc := he (p.step '\\' (letters ++ (body ++ rest))) (body ++ rest)
  rw [Cursor.step_eq_past (c := '\\') (by decide)] at hesc
  rw [hcs, quoted_escape (by rw [Cursor.step_eq_past (c := '\\') (by decide)]; exact hesc),
    h _ k (by simp at hf ⊢; omega), Outcome.map_ok, ← Cursor.past_append, ← Cursor.past_cons]
  simp

/-- A line feed behind a backslash stands for nothing, together with the indentation after it. -/
theorem Quotes.fold {rest body text : List Char} {m : Nat} (hm : 0 < m) (hg : GoesOn (body ++ rest))
    (h : Quotes true rest body text) :
      Quotes true rest ('\\' :: '\n' :: (spaces m ++ body)) text := by
  intro p fuel hf
  obtain ⟨k, rfl⟩ : ∃ k, fuel = k + 1 := ⟨fuel - 1, by simp at hf; omega⟩
  have hcs : '\\' :: '\n' :: (spaces m ++ body) ++ rest =
      '\\' :: '\n' :: (spaces m ++ (body ++ rest)) := by simp
  have hbreaks := quotedBreaks_newLines (n := 0) hm hg ((p.past ['\\']).past ['\n'])
    ((spaces m ++ (body ++ rest)).length + 1) (by omega)
  have hesc : escaped (p.past ['\\']) ('\n' :: (spaces m ++ (body ++ rest))) =
      .ok ([], ((p.past ['\\']).past ['\n']).past (spaces m), body ++ rest) := by
    have hletter : escapes.find? (fun x => x.1 == '\n') = none := by decide
    have hbreak : isBreak '\n' = true := by decide
    rw [escaped]
    simp only [hletter, show codeLength? '\n' = none by decide, hbreak, if_true, lineBreak_newLine]
    rw [List.replicate_zero, List.nil_append] at hbreaks
    rw [hbreaks]
    rfl
  rw [hcs, quoted_escape (by rw [Cursor.step_eq_past (c := '\\') (by decide)]; exact hesc),
    h _ k (by simp at hf ⊢; omega), Outcome.map_ok, ← Cursor.past_append, ← Cursor.past_cons,
      ← Cursor.past_cons]
  simp

end RegistryBundle.Yaml.Lexeme
