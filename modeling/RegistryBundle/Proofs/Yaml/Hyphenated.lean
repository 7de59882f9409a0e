import RegistryBundle.Proofs.Yaml.Scalar
import RegistryBundle.Proofs.Yaml.Typed

/-!
# Words of letters, digits and hyphens on a page

A text of letters, digits and hyphens is written as it is, however long it is and wherever it
stands, within single quotes if it would be taken for something else without them.

* `Node.NeedsQuotes` says when it would be: as a mark between documents, as the mark of an item, and
  as a value of another type;
* `Node.StandsAs` is the text with the quotes that it needs, `Node.scalarText_of_hyphenated` says
  that it is so written.
-/

namespace RegistryBundle.Yaml

open Chars Scalar

/-- Nothing stands beside what is not there. -/
theorem Scalar.adjoins_eq_false {first second : Char → Bool} {cs : List Char}
    (h : ∀ c ∈ cs, first c = false) :
    adjoins first second cs = false := by
  fun_induction adjoins first second cs with
  | case1 c d rest ih => simp [h c, ih fun e he => h e (List.mem_cons_of_mem c he)]
  | case2 => rfl

namespace Hyphenated

variable {cs : List Char}

theorem printed (h : Hyphenated cs) : Printed cs := by
  intro c hc
  have hword :
    ((decide (c.val ≥ 'A'.val ∧ c.val ≤ 'Z'.val) ||
      (decide (c.val ≥ 'a'.val) && decide (c.val ≤ 'z'.val))) ||
      (decide (c.val ≥ '0'.val) && decide (c.val ≤ '9'.val)) || c == '-') = true := h c hc
  simp only [Bool.or_eq_true, Bool.and_eq_true, decide_eq_true_eq, beq_iff_eq, ge_iff_le,
    UInt32.le_iff_toNat_le] at hword
  simp only [isPlainChar, Bool.or_eq_true, Bool.and_eq_true, decide_eq_true_eq, Char.toNat]
  rcases hword with ((⟨hlow, hhigh⟩ | ⟨hlow, hhigh⟩) | ⟨hlow, hhigh⟩) | rfl
  · exact .inr ⟨le_trans (by decide) hlow, le_trans hhigh (by decide)⟩
  · exact .inr ⟨le_trans (by decide) hlow, le_trans hhigh (by decide)⟩
  · exact .inr ⟨le_trans (by decide) hlow, le_trans hhigh (by decide)⟩
  · decide

/-- It is none of the characters that are neither letters nor digits nor hyphens. -/
theorem head_ne {c d : Char} (h : Hyphenated (c :: cs)) (hd : (d.isAlphanum || d == '-') = false) :
    c ≠ d := fun heq =>
  h.notMem hd (heq ▸ List.mem_cons_self)

private theorem isLineBreak_eq_false (h : Hyphenated cs) : ∀ c ∈ cs, isLineBreak c = false := by
  intro c hc
  rw [Bool.eq_false_iff]
  intro hbreak
  simp only [isLineBreak, Bool.or_eq_true, beq_iff_eq] at hbreak
  rcases hbreak with ((rfl | rfl) | rfl) | rfl <;> exact h.notMem (by decide) hc

theorem allowsSingle (h : Hyphenated cs) : Scalar.allowsSingle cs = true := by
  have hall : cs.all Scalar.isPlainChar = true := List.all_eq_true.mpr h.printed
  have hbreak : adjoins isLineBreak (· == ' ') cs = false := adjoins_eq_false h.isLineBreak_eq_false
  have hspace : adjoins (· == ' ') isLineBreak cs = false := adjoins_eq_false fun c hc =>
    beq_eq_false_iff_ne.mpr fun heq => h.notMem (c := ' ') (by decide) (heq ▸ hc)
  rw [Scalar.allowsSingle, hall, hbreak, hspace]
  rfl

/-- No indicator stands inside. -/
theorem innerIndicator (h : Hyphenated cs) (previous : Char) :
    Scalar.innerIndicator previous cs = false := by
  induction cs generalizing previous with
  | nil => rfl
  | cons c cs ih =>
      have hcolon : (c == ':') = false := beq_eq_false_iff_ne.mpr (h.head_ne (by decide))
      have hhash : (c == '#') = false := beq_eq_false_iff_ne.mpr (h.head_ne (by decide))
      rw [Scalar.innerIndicator, hcolon, hhash, ih fun d hd => h d (List.mem_cons_of_mem c hd)]
      rfl

/-- No boundary is behind a hyphen but that of the text. -/
theorem boundary_iff (h : Hyphenated cs) : boundary cs = true ↔ cs = [] := by
  cases cs with
  | nil => simp [boundary]
  | cons c cs =>
      have hnull : c ≠ '\x00' := h.head_ne (by decide)
      have hspace : c ≠ ' ' := h.head_ne (by decide)
      have htab : c ≠ '\t' := h.head_ne (by decide)
      have hreturn : c ≠ '\r' := h.head_ne (by decide)
      have hbreak := h.isLineBreak_eq_false c List.mem_cons_self
      simp only [isLineBreak, Bool.or_eq_false_iff, beq_eq_false_iff_ne] at hbreak
      simp [boundary, isBlank, isBreak, hnull, hspace, htab, hreturn, hbreak]

/-- The only indicator in front is a hyphen that stands alone. -/
theorem leadingIndicator_iff {c : Char} (h : Hyphenated (c :: cs)) :
    leadingIndicator c cs = true ↔ c = '-' ∧ cs = [] := by
  have hmark : ∀ {marks : List Char}, (marks.all fun d => !(d.isAlphanum || d == '-')) = true →
      marks.contains c = false := by
    intro marks hmarks
    rw [List.contains_eq_mem, decide_eq_false_iff_not]
    intro hc
    exact h.notMem (by simpa using List.all_eq_true.mp hmarks c hc) List.mem_cons_self
  have hquestion : c ≠ '?' := h.head_ne (by decide)
  have hcolon : c ≠ ':' := h.head_ne (by decide)
  have htail : Hyphenated cs := fun d hd => h d (List.mem_cons_of_mem c hd)
  rw [leadingIndicator, hmark]
  · simp [hquestion, hcolon, htail.boundary_iff]
  · decide

/-- **Without quotes** stands what is neither a mark between documents nor that of an item. -/
theorem allowsPlain_iff (h : Hyphenated cs) :
    allowsPlain cs = true ↔ cs.take 3 ≠ ['-', '-', '-'] ∧ cs ≠ ['-'] := by
  have hall : cs.all Scalar.isPlainChar = true := List.all_eq_true.mpr h.printed
  have hbreak : cs.any isLineBreak = false :=
    List.any_eq_false.mpr fun c hc => by simp [h.isLineBreak_eq_false c hc]
  have hspace : ' ' ∉ cs := h.notMem (by decide)
  have hhead : cs.head? ≠ some ' ' := fun heq => hspace (List.mem_of_head? heq)
  have hlast : cs.getLast? ≠ some ' ' := fun heq => hspace (List.mem_of_getLast? heq)
  have hdots : cs.take 3 ≠ ['.', '.', '.'] := fun heq =>
    h.notMem (c := '.') (by decide) (List.mem_of_mem_take (heq ▸ List.mem_cons_self))
  have hindicator : hasIndicator cs = true ↔ cs.take 3 = ['-', '-', '-'] ∨ cs = ['-'] := by
    cases cs with
    | nil => decide
    | cons c cs =>
        have hinner := innerIndicator (fun d hd => h d (List.mem_cons_of_mem c hd)) c
        rw [hasIndicator, isDocumentMark, hinner]
        simp only [Bool.or_false, Bool.or_eq_true, beq_iff_eq, hdots, or_false,
          h.leadingIndicator_iff, List.cons.injEq]
  simp only [allowsPlain, hall, hbreak, Bool.not_false, Bool.and_true, Bool.true_and,
    Bool.and_eq_true, bne_iff_ne, Bool.not_eq_true', ne_eq, hhead, hlast, not_false_iff, true_and,
    ← Bool.not_eq_true, hindicator, not_or]

end Hyphenated

namespace Scalar

/-- A text without spaces on one line is written character by character, however long it is. -/
theorem foldedBody_of_word (quote : Char → List Char) (indent : Nat) (split : Bool)
    (previous : Option Char)
    (column : Nat) {cs : List Char} (hspace : ' ' ∉ cs) (hline : '\n' ∉ cs) :
    foldedBody quote indent split previous column cs = cs.flatMap quote := by
  induction cs generalizing previous column with
  | nil => rfl
  | cons c cs ih =>
      rw [List.mem_cons, not_or] at hspace hline
      rw [foldedBody, if_neg (Ne.symm hspace.1), if_neg (Ne.symm hline.1), ih _ _ hspace.2 hline.2,
        List.flatMap_cons]

private theorem flatMap_singleQuote {cs : List Char} (h : '\'' ∉ cs) :
    cs.flatMap singleQuote = cs := by
  induction cs with
  | nil => rfl
  | cons c cs ih =>
      rw [List.mem_cons, not_or] at h
      rw [List.flatMap_cons, ih h.2, singleQuote, if_neg (Ne.symm h.1), List.singleton_append]

end Scalar

namespace Node

variable {cs : List Char}

/-- The texts of letters, digits and hyphens that stand in single quotes. -/
def NeedsQuotes (cs : List Char) : Prop :=
  cs.take 3 = ['-', '-', '-'] ∨ cs = ['-'] ∨ Typed cs

/-- The text with the quotes that it needs. -/
inductive StandsAs (cs : List Char) : List Char → Prop where
  | plain (h : ¬ NeedsQuotes cs) : StandsAs cs cs
  | quoted (h : NeedsQuotes cs) : StandsAs cs ('\'' :: (cs ++ ['\'']))

/-- Quotes are put exactly if they are needed. -/
theorem styleOf_of_hyphenated (h : Hyphenated cs) (hne : cs ≠ []) (key : Bool) :
    (NeedsQuotes cs → styleOf key .str cs = .single) ∧
      (¬ NeedsQuotes cs → styleOf key .str cs = .plain) := by
  have htag := Implicit.tag_ne_str_iff h hne
  have hempty : cs.isEmpty = false := List.isEmpty_eq_false_iff.mpr hne
  have hbreak : cs.any isLineBreak = false :=
    List.any_eq_false.mpr fun c hc => by simp [h.isLineBreak_eq_false c hc]
  have hplain : (isImplicit .str cs && allowsPlain cs) = true ↔ ¬ NeedsQuotes cs := by
    rw [Bool.and_eq_true, h.allowsPlain_iff, isImplicit, beq_iff_eq, NeedsQuotes, ← htag, not_or,
      not_or, not_not, and_comm, and_assoc]
  rw [styleOf, style, hempty, hbreak, h.allowsSingle]
  refine ⟨fun hq => ?_, fun hq => ?_⟩
  · have hnot : (isImplicit .str cs && allowsPlain cs) = false := by
      rw [Bool.eq_false_iff]
      exact fun hp => hplain.mp hp hq
    simp [hnot]
  · simp [hplain.mpr hq]

/-- **The text** is written as it is, on one line, with the quotes that it needs. -/
theorem scalarText_of_hyphenated (h : Hyphenated cs) (hne : cs ≠ []) :
    ∃ shown, StandsAs cs shown ∧ ∀ column indent key, scalarText [] column indent key .str cs =
      shown ++ ['\n'] := by
  have hspace : ' ' ∉ cs := h.notMem (by decide)
  have hline : '\n' ∉ cs := h.notMem (by decide)
  have hshows : ShowsTag .str cs := .inl rfl
  by_cases hq : NeedsQuotes cs
  · refine ⟨_, .quoted hq, fun column indent key => ?_⟩
    rw [hshows.scalarText_eq, (styleOf_of_hyphenated h hne key).1 hq, body, singleBody,
      foldedBody_of_word _ _ _ _ _ hspace hline, flatMap_singleQuote (h.notMem (by decide))]
  · refine ⟨_, .plain hq, fun column indent key => ?_⟩
    rw [hshows.scalarText_eq, (styleOf_of_hyphenated h hne key).2 hq, body, plainBody,
      foldedBody_of_word _ _ _ _ _ hspace hline, List.flatMap_singleton']

end Node

end RegistryBundle.Yaml
