import RegistryBundle.Yaml.Scalar
import RegistryBundle.Yaml.Token.Lexeme

/-!
# Printed text

The writer of documents makes text of printable characters and line feeds only, so a reader of its
pages meets no other break than a line feed and no other blank than a space.

* `Printed` is such text;
* `Cursor.past` is the cursor behind a text; `Cursor.past_of_line` and `Cursor.column_past_indent`
  say where it stands;
* `Lexeme.run_append`, `Lexeme.lineBreak_newLine` say what the smallest
  readers take from printed text.
-/

namespace RegistryBundle.Yaml

open Chars Scalar

/-- Text of printable characters and line feeds. -/
def Printed (cs : List Char) : Prop :=
  ∀ c ∈ cs, isPlainChar c = true

theorem printed_nil : Printed [] := by
  simp [Printed]

@[simp] theorem printed_cons {c : Char} {cs : List Char} :
    Printed (c :: cs) ↔ isPlainChar c = true ∧ Printed cs := by
  simp [Printed]

@[simp] theorem printed_append {cs ds : List Char} :
    Printed (cs ++ ds) ↔ Printed cs ∧ Printed ds := by
  simp [Printed, or_imp, forall_and]

theorem printed_spaces (n : Nat) : Printed (spaces n) := by
  intro c hc
  obtain rfl := List.eq_of_mem_replicate hc
  decide

/-- A printed character is none of those that are not. -/
theorem ne_of_isPlainChar {c d : Char} (hc : isPlainChar c = true) (hd : isPlainChar d = false) :
    c ≠ d := by
  intro heq
  subst heq
  simp [hc] at hd

private theorem beq_eq_false_of_isPlainChar {c d : Char} (hc : isPlainChar c = true)
    (hd : isPlainChar d = false) :
    (c == d) = false :=
  beq_eq_false_iff_ne.mpr (ne_of_isPlainChar hc hd)

/-- The only break in printed text is the line feed. -/
theorem isBreak_eq_of_isPlainChar {c : Char} (h : isPlainChar c = true) :
    isBreak c = (c == '\n') := by
  have other : ∀ d, isPlainChar d = false → (c == d) = false :=
    fun d hd => beq_eq_false_of_isPlainChar h hd
  rw [isBreak, other '\r' (by decide), other '\x85' (by decide), other '\u2028' (by decide),
    other '\u2029' (by decide)]
  simp

/-- The only blank in printed text is the space. -/
theorem isBlank_eq_of_isPlainChar {c : Char} (h : isPlainChar c = true) :
    isBlank c = (c == ' ') := by
  rw [isBlank, beq_eq_false_of_isPlainChar h (d := '\t') (by decide), Bool.or_false]

/-- Every printed character may occur in a document. -/
theorem isAllowed_of_isPlainChar {c : Char} (h : isPlainChar c = true) : isAllowed c = true := by
  simp only [isPlainChar, Bool.or_eq_true, beq_iff_eq] at h
  rcases h with rfl | h
  · decide
  · simp [isAllowed, h]

namespace Cursor

/-- The cursor behind a text without carriage returns. -/
def past (p : Cursor) (cs : List Char) : Cursor :=
  cs.foldl (fun q c => q.step c []) p

@[simp] theorem past_nil (p : Cursor) : p.past [] = p := rfl

theorem past_cons (p : Cursor) (c : Char) (cs : List Char) :
    p.past (c :: cs) = (p.past [c]).past cs := rfl

theorem past_append (p : Cursor) (cs ds : List Char) : p.past (cs ++ ds) = (p.past cs).past ds := by
  simp [past, List.foldl_append]

/-- Over a printed character it does not matter what follows. -/
theorem step_eq_past {c : Char} (h : isPlainChar c = true) (p : Cursor) (rest : List Char) :
    p.step c rest = p.past [c] := by
  have hr : c ≠ '\r' := ne_of_isPlainChar h (by decide)
  simp [past, step, hr]

private theorem past_newLine (p : Cursor) : p.past ['\n'] = ⟨p.index + 1, p.line + 1, 0⟩ := by
  simp [past, step, isBreak]

/-- A printed character on its line takes one column. -/
theorem past_char {c : Char} (h : isPlainChar c = true) (hn : c ≠ '\n') (p : Cursor) :
    p.past [c] = { p with index := p.index + 1, column := p.column + 1 } := by
  have hb : isBreak c = false := by simpa [isBreak_eq_of_isPlainChar h] using hn
  have hm : c ≠ byteOrderMark := ne_of_isPlainChar h (by decide)
  simp [past, step, hb, hm]

/-- Every character counts in the index. -/
theorem index_past (p : Cursor) (cs : List Char) : (p.past cs).index = p.index + cs.length := by
  induction cs generalizing p with
  | nil => rfl
  | cons c cs ih =>
      have hc : (p.past [c]).index = p.index + 1 := by
        simp only [past, List.foldl_cons, List.foldl_nil, step]
        split
        · rfl
        · split <;> rfl
      rw [past_cons, ih, hc, List.length_cons]
      omega

/-- A cursor never goes back to an earlier line. -/
theorem line_le_past (p : Cursor) (cs : List Char) : p.line ≤ (p.past cs).line := by
  induction cs generalizing p with
  | nil => exact Nat.le_refl _
  | cons c cs ih =>
      have hc : p.line ≤ (p.past [c]).line := by
        simp only [past, List.foldl_cons, List.foldl_nil, step]
        split
        · exact Nat.le_succ _
        · split <;> exact Nat.le_refl _
      rw [past_cons]
      exact Nat.le_trans hc (ih _)

/-- Text without a line feed moves the column by its length and leaves the line. -/
theorem past_of_line {cs : List Char} (h : Printed cs) (hn : '\n' ∉ cs) (p : Cursor) :
    (p.past cs).line = p.line ∧ (p.past cs).column = p.column + cs.length := by
  induction cs generalizing p with
  | nil => exact ⟨rfl, rfl⟩
  | cons c cs ih =>
      rw [printed_cons] at h
      rw [List.mem_cons, not_or] at hn
      obtain ⟨hl, hc⟩ := ih h.2 hn.2 (p.past [c])
      rw [past_char h.1 (Ne.symm hn.1)] at hl hc
      rw [past_cons, past_char h.1 (Ne.symm hn.1)]
      exact ⟨hl, by simp only [hc, List.length_cons]; omega⟩

theorem newLine_notMem_spaces (n : Nat) : '\n' ∉ spaces n := by
  intro h
  exact absurd (List.eq_of_mem_replicate h) (by decide)

/-- Behind a line feed and an indentation stands the column of the indentation. -/
theorem column_past_indent (p : Cursor) (n : Nat) : (p.past ('\n' :: spaces n)).column = n := by
  rw [past_cons, (past_of_line (printed_spaces n) (newLine_notMem_spaces n) _).2, past_newLine]
  simp [spaces]

/-- A line feed begins a later line. -/
theorem line_lt_past_newLine (p : Cursor) (cs : List Char) :
    p.line < (p.past ('\n' :: cs)).line := by
  rw [past_cons, past_newLine]
  exact line_le_past ⟨p.index + 1, p.line + 1, 0⟩ cs

end Cursor

/-- What stands at the front of a text that a line begins with, its indentation left out: nothing,
or a character that begins a token, but no mark between documents. -/
structure LineStart (cs : List Char) : Prop where
  head : ∀ c ∈ cs.head?, isBlank c = false ∧ isBreak c = false ∧ c ≠ '#'
  mark : Lexeme.atDocumentMark cs = false

theorem lineStart_nil : LineStart [] :=
  ⟨by simp, by decide⟩

namespace Lexeme

/-- A run takes the characters that satisfy its test. -/
theorem run_append {test : Char → Bool} {cs : List Char} (h : Printed cs)
    (ht : ∀ c ∈ cs, test c = true)
    {rest : List Char} (hr : ∀ c ∈ rest.head?, test c = false) (p : Cursor) :
    run test p (cs ++ rest) = (cs, p.past cs, rest) := by
  induction cs generalizing p with
  | nil =>
      cases rest with
      | nil => rfl
      | cons c rest => simp [run, hr c rfl]
  | cons c cs ih =>
      rw [printed_cons] at h
      have hc : test c = true := ht c List.mem_cons_self
      have := ih h.2 (fun d hd => ht d (List.mem_cons_of_mem c hd)) (p.past [c])
      simp [run, hc, Cursor.step_eq_past h.1, this, ← Cursor.past_cons]

/-- A line feed is a break, read as itself. -/
theorem lineBreak_newLine (p : Cursor) (rest : List Char) :
    lineBreak p ('\n' :: rest) = (['\n'], p.past ['\n'], rest) := by
  have h : isPlainChar '\n' = true := by decide
  rw [lineBreak]
  · simp [Cursor.step_eq_past h]
  · simp

/-- A text that begins with a space or a line feed is not at a mark between documents. -/
theorem atDocumentMark_of_head {c : Char} (h : c ≠ '-') (h' : c ≠ '.') (rest : List Char) :
    atDocumentMark (c :: rest) = false := by
  simp [atDocumentMark, h, h']

end Lexeme

end RegistryBundle.Yaml
