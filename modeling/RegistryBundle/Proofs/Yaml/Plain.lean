import RegistryBundle.Proofs.Yaml.Printed

/-!
# Plain scalars read back

A text that may stand plain is read word by word: a space between two words is read as it is, or as
the break of lines it was folded to.

* `Lexeme.PlainEnd` is what ends a plain scalar: the colon behind a key (`PlainEnd.colon`), or the
  end of a line in front of one that is indented less (`PlainEnd.line`);
* `Scalar.plain_foldedBody` is the round trip.
-/

namespace RegistryBundle.Yaml

open Chars Scalar

namespace Lexeme

/-- Behind a plain scalar stands `ending`: the scalar ends there, and the reader
passes over `taken` to `rest`. -/
structure PlainEnd (column : Nat) (broken : Bool) (taken rest ending : List Char) : Prop where
  ends : ∀ c cs, ending = c :: cs → endsPlain false c cs = true
  gap : ∀ p : Cursor, ∃ gap, plainGap p ending = ((gap, broken), p.past taken, rest) ∧
    (gap.isEmpty || rest.head? == some '#' || (p.past taken).column < column) = true

/-- A colon in front of a boundary ends a plain scalar. -/
theorem PlainEnd.colon (column : Nat) {cs : List Char} (h : atBoundary cs = true) :
    PlainEnd column false [] (':' :: cs) (':' :: cs) where
  ends := by
    intro c ds heq
    cases heq
    simp [endsPlain, h]
  gap := fun p => ⟨[], by simp [plainGap, run, show isBreak ':' = false by decide], rfl⟩

/-- An indentation is passed over up to where the line begins. -/
theorem plainBreaks_spaces {cs : List Char}
    (h : ∀ c ∈ cs.head?, isBlank c = false ∧ isBreak c = false) (k : Nat)
    (p : Cursor) (fuel : Nat) (hf : k < fuel) :
    plainBreaks fuel p (spaces k ++ cs) = (some [], p.past (spaces k), cs) := by
  induction k generalizing p fuel with
  | zero =>
      obtain ⟨f, rfl⟩ : ∃ f, fuel = f + 1 := ⟨fuel - 1, by omega⟩
      cases cs with
      | nil => rfl
      | cons c cs =>
          obtain ⟨hblank, hbreak⟩ := h c rfl
          have hs : c ≠ ' ' := by
            intro heq
            subst heq
            exact absurd hblank (by decide)
          simp [plainBreaks, spaces, hs, hbreak]
  | succ k ih =>
      obtain ⟨f, rfl⟩ : ∃ f, fuel = f + 1 := ⟨fuel - 1, by omega⟩
      have hstep : spaces (k + 1) ++ cs = ' ' :: (spaces k ++ cs) := by
        simp [spaces, List.replicate_succ]
      rw [hstep, plainBreaks, if_pos rfl, Cursor.step_eq_past (by decide), ih _ f (by omega),
        ← Cursor.past_cons]
      rfl

/-- A line feed and an indentation in front of a line are a gap of one space. -/
theorem plainGap_newLine {cs : List Char}
    (h : ∀ c ∈ cs.head?, isBlank c = false ∧ isBreak c = false) (k : Nat)
    (hm : atDocumentMark (spaces k ++ cs) = false) (p : Cursor) :
    plainGap p ('\n' :: (spaces k ++ cs)) = (([' '], true), p.past ('\n' :: spaces k), cs) := by
  have hbreaks := plainBreaks_spaces h k (p.past ['\n']) ((spaces k ++ cs).length + 1)
    (by simp only [spaces, List.length_append, List.length_replicate]; omega)
  rw [Cursor.past_cons, plainGap]
  simp only [run, show ('\n' == ' ') = false by decide, show isBreak '\n' = true by decide,
    lineBreak_newLine, hm, hbreaks, Bool.false_eq_true, if_false, if_true]
  rfl

/-- An indentation in front of the start of a line is at no mark between documents. -/
theorem atDocumentMark_indented {cs : List Char} (h : LineStart cs) (k : Nat) :
    atDocumentMark (spaces k ++ cs) = false := by
  cases k with
  | zero => exact h.mark
  | succ k => exact atDocumentMark_of_head (by decide) (by decide) _

/-- The end of a line ends a plain scalar if the next line is indented less than its lines. -/
theorem PlainEnd.line {column k : Nat} (hk : k < column) {cs : List Char} (h : LineStart cs) :
    PlainEnd column true ('\n' :: spaces k) cs ('\n' :: (spaces k ++ cs)) where
  ends := by
    intro c ds heq
    cases heq
    rfl
  gap := fun p => by
    refine ⟨[' '], plainGap_newLine (fun c hc => ?_) k (atDocumentMark_indented h k) p, ?_⟩
    · exact ⟨(h.head c hc).1, (h.head c hc).2.1⟩
    · simp [Cursor.column_past_indent, hk]

/-- Spaces in front of something on their line are a gap of just those spaces. -/
theorem plainGap_spaces {c : Char} (hc : c ≠ ' ') (hb : isBreak c = false) (k : Nat) (p : Cursor)
    (cs : List Char) :
    plainGap p (spaces k ++ c :: cs) = ((spaces k, false), p.past (spaces k), c :: cs) := by
  have hrun : run (· == ' ') p (spaces k ++ c :: cs) = (spaces k, p.past (spaces k), c :: cs) := by
    refine run_append (printed_spaces k) ?_ (by simpa using hc) p
    intro d hd
    simp [List.eq_of_mem_replicate hd]
  simp [plainGap, hrun, hb]

/-- A word is read up to the boundary behind it; `written` stands for the
text `cs` that follows it. -/
theorem plainRun_word {word cs : List Char} (written : List Char) (h : Printed word)
    (hs : ' ' ∉ word)
    (hn : '\n' ∉ word) {previous : Char} (hi : innerIndicator previous (word ++ cs) = false)
    (hb : boundary cs = true)
    (hw : ∀ c ds, written = c :: ds → endsPlain false c ds = true) (p : Cursor) :
    plainRun false p (word ++ written) = (word, p.past word, written) := by
  induction word generalizing p previous with
  | nil =>
      cases written with
      | nil => rfl
      | cons c ds => simp [plainRun, hw c ds rfl]
  | cons c word ih =>
      rw [printed_cons] at h
      rw [List.mem_cons, not_or] at hs hn
      rw [List.cons_append, innerIndicator, Bool.or_eq_false_iff, Bool.or_eq_false_iff] at hi
      have hcolon : (c == ':' && atBoundary (word ++ written)) = false := by
        cases word with
        | nil =>
            have hc : c ≠ ':' := by simpa [hb] using hi.1.1
            simp [hc]
        | cons d ds =>
            have hd : isPlainChar d = true := (printed_cons.mp h.2).1
            have hds : d ≠ ' ' := fun heq => hs.2 (by simp [heq])
            have hdn : d ≠ '\n' := fun heq => hn.2 (by simp [heq])
            simp [atBoundary, isBlank_eq_of_isPlainChar hd, isBreak_eq_of_isPlainChar hd, hds, hdn]
      have hends : endsPlain false c (word ++ written) = false := by
        simp only [endsPlain, isBlank_eq_of_isPlainChar h.1, isBreak_eq_of_isPlainChar h.1,
          Bool.false_and, Bool.or_false, hcolon]
        simp [Ne.symm hs.1, Ne.symm hn.1]
      rw [List.cons_append, plainRun, hends]
      simp [Cursor.step_eq_past h.1, ih h.2 hs.2 hn.2 hi.2, ← Cursor.past_cons]

/-- The last step of the reader: a word that nothing follows in the scalar. -/
theorem plain_last {least fuel : Nat} {p q r : Cursor} {cs word gap left rest : List Char}
    {broken : Bool}
    (hc : cs.head? ≠ some '#') (hw : word ≠ []) (hword : plainRun false p cs = (word, q, left))
    (hgap : plainGap q left = ((gap, broken), r, rest))
    (he : (gap.isEmpty || rest.head? == some '#' || r.column < least) = true) :
    plain false least (fuel + 1) p cs = ((word, broken), r, rest) := by
  have he' : (gap.isEmpty || rest.head? == some '#' || !false && decide (r.column < least)) =
    true := he
  rw [plain]
  simp only [hword, hgap, he', List.isEmpty_iff, hw, beq_iff_eq, hc, if_true, if_false]

/-- A step of the reader: a word and the gap in front of what follows it. -/
theorem plain_more {least fuel : Nat} {p q r s : Cursor}
    {cs word gap more left rest end' : List Char}
    {broken last : Bool} (hc : cs.head? ≠ some '#') (hw : word ≠ [])
    (hword : plainRun false p cs = (word, q, left))
    (hgap : plainGap q left = ((gap, broken), r, rest))
    (hg : gap ≠ []) (hr : rest.head? ≠ some '#') (hl : least ≤ r.column) (hm : more ≠ [])
    (hmore : plain false least fuel r rest = ((more, last), s, end')) :
    plain false least (fuel + 1) p cs = ((word ++ gap ++ more, last), s, end') := by
  have he : ¬(gap.isEmpty || rest.head? == some '#' || !false && decide (r.column < least)) =
      true := by
    simp [hg, hr, hl]
  rw [plain]
  simp only [hword, hgap, he, hmore, List.isEmpty_iff, hw, hm, beq_iff_eq, hc, if_false,
    Bool.false_eq_true]

end Lexeme

namespace Scalar

open Lexeme

/-- A character as it stands in a plain scalar. -/
abbrev itself (c : Char) : List Char := [c]

/-- A text up to its first space, the spaces there, and what follows them. -/
theorem exists_word (cs : List Char) :
    ∃ word n ds, cs = word ++ (spaces n ++ ds) ∧ ' ' ∉ word ∧ ds.head? ≠ some ' ' ∧
      (n = 0 → ds = []) := by
  induction cs with
  | nil => exact ⟨[], 0, [], rfl, by simp, by simp, fun _ => rfl⟩
  | cons c cs ih =>
      obtain ⟨word, n, ds, rfl, hw, hd, hz⟩ := ih
      by_cases hc : c = ' '
      · subst hc
        cases word with
        | nil => exact ⟨[], n + 1, ds, by simp [spaces, List.replicate_succ], by simp, hd, by simp⟩
        | cons d word =>
            refine ⟨[], 1, d :: word ++ (spaces n ++ ds), rfl, by simp, ?_, by simp⟩
            rw [List.mem_cons, not_or] at hw
            simpa using Ne.symm hw.1
      · refine ⟨c :: word, n, ds, rfl, ?_, hd, hz⟩
        rw [List.mem_cons, not_or]
        exact ⟨Ne.symm hc, hw⟩

/-- Inside a text behind a character there is no indicator that is not in the whole. -/
theorem innerIndicator_append {previous c : Char} {cs ds : List Char}
    (h : innerIndicator previous (cs ++ c :: ds) = false) : innerIndicator c ds = false := by
  induction cs generalizing previous with
  | nil => exact (Bool.or_eq_false_iff.mp h).2
  | cons d cs ih => exact ih (Bool.or_eq_false_iff.mp h).2

/-- A text of words on one line, none of them with an indicator. -/
structure Words (cs : List Char) : Prop where
  ne : cs ≠ []
  printed : Printed cs
  line : '\n' ∉ cs
  head : cs.head? ≠ some ' '
  last : cs.getLast? ≠ some ' '
  inner : innerIndicator ' ' cs = false

/-- Such a text does not begin like a comment. -/
theorem Words.head_ne {c : Char} {cs : List Char} (h : Words (c :: cs)) :
    c ≠ '#' ∧ c ≠ ' ' ∧ c ≠ '\n' := by
  refine ⟨?_, by simpa using h.head, fun heq => h.line (by simp [heq])⟩
  intro heq
  subst heq
  have := h.inner
  simp [innerIndicator, boundary, isBlank] at this

/-- Behind a word and spaces the text goes on in the same way. -/
theorem Words.tail {word ds : List Char} {n : Nat} (h : Words (word ++ (spaces (n + 1) ++ ds)))
    (hd : ds.head? ≠ some ' ') : Words ds := by
  have hlast : spaces (n + 1) = spaces n ++ [' '] := by simp [spaces, List.replicate_succ']
  have hsplit : word ++ (spaces (n + 1) ++ ds) = (word ++ spaces n) ++ ' ' :: ds := by simp [hlast]
  rw [hsplit] at h
  have hne : ds ≠ [] := by
    intro heq
    subst heq
    exact h.last (List.getLast?_concat ..)
  refine ⟨hne, ?_, ?_, hd, ?_, innerIndicator_append h.inner⟩
  · exact (printed_cons.mp (printed_append.mp h.printed).2).2
  · exact fun hm => h.line (List.mem_append_right _ (List.mem_cons_of_mem _ hm))
  · have hl := h.last
    cases ds with
    | nil => exact absurd rfl hne
    | cons d ds => simpa [List.getLast?_append, List.getLast?_cons_cons] using hl

/-- Such a text begins with a word, and a boundary is behind it. -/
theorem Words.exists_word {cs : List Char} (h : Words cs) :
    ∃ c word n ds, cs = c :: word ++ (spaces n ++ ds) ∧ ' ' ∉ c :: word ∧ ds.head? ≠ some ' ' ∧
      (n = 0 → ds = []) ∧ boundary (spaces n ++ ds) = true := by
  obtain ⟨word, n, ds, rfl, hw, hd, hz⟩ := Scalar.exists_word cs
  have hb : boundary (spaces n ++ ds) = true := by
    cases n with
    | zero => simp [hz rfl, spaces, boundary]
    | succ n => simp [spaces, List.replicate_succ, boundary, isBlank]
  cases word with
  | cons c word => exact ⟨c, word, n, ds, rfl, hw, hd, hz, hb⟩
  | nil =>
      cases n with
      | zero => exact absurd (by simp [hz rfl, spaces]) h.ne
      | succ n => exact absurd (by simp [spaces, List.replicate_succ]) h.head

/-- A text that allows the plain style is one of words. -/
theorem words_of_allowsPlain {cs : List Char} (h : allowsPlain cs = true) (hne : cs ≠ []) :
    Words cs := by
  simp only [allowsPlain, Bool.and_eq_true, Bool.not_eq_true', bne_iff_ne, List.all_eq_true] at h
  obtain ⟨⟨⟨⟨hprinted, hbreak⟩, hhead⟩, hlast⟩, hind⟩ := h
  refine ⟨hne, hprinted, ?_, hhead, hlast, ?_⟩
  · intro hm
    have := List.any_eq_false.mp hbreak '\n' hm
    exact absurd rfl this
  · cases cs with
    | nil => exact absurd rfl hne
    | cons c cs =>
        simp only [hasIndicator, Bool.or_eq_false_iff, leadingIndicator] at hind
        obtain ⟨⟨_, hlead, hcolon⟩, hinner⟩ := hind
        have hcomment : (c == '#') = false := by
          rw [beq_eq_false_iff_ne]
          intro heq
          subst heq
          exact absurd hlead (by decide)
        have hcol : (c == ':' && boundary cs) = false := by
          cases hb : boundary cs with
          | false => simp
          | true =>
              have : (c ≠ '?' ∧ c ≠ ':') ∧ c ≠ '-' := by simpa [hb] using hcolon
              simp [this.1.2]
        simp [innerIndicator, hcol, hcomment, hinner]

/-- A word is written as it is. -/
theorem foldedBody_word (indent : Nat) (split : Bool) (previous : Option Char) (column : Nat)
    {word : List Char}
    (hs : ' ' ∉ word) (hn : '\n' ∉ word) (cs : List Char) :
    ∃ before, foldedBody itself indent split previous column (word ++ cs) =
      word ++ foldedBody itself indent split before (column + word.length) cs := by
  induction word generalizing previous column with
  | nil => exact ⟨previous, rfl⟩
  | cons c word ih =>
      rw [List.mem_cons, not_or] at hs hn
      obtain ⟨before, h⟩ := ih (some c) (column + 1) hs.2 hn.2
      refine ⟨before, ?_⟩
      rw [List.cons_append, foldedBody, if_neg (Ne.symm hs.1), if_neg (Ne.symm hn.1)]
      rw [show column + (c :: word).length =
        column + 1 + word.length by simp only [List.length_cons]; omega]
      simpa using h

/-- Spaces behind a space are written as they are. -/
theorem foldedBody_spaces (indent : Nat) (split : Bool) (column n : Nat) (cs : List Char) :
    foldedBody itself indent split (some ' ') column (spaces n ++ cs) =
      spaces n ++ foldedBody itself indent split (some ' ') (column + n) cs := by
  induction n generalizing column with
  | zero => rfl
  | succ n ih =>
      have h : spaces (n + 1) = ' ' :: spaces n := rfl
      rw [h, List.cons_append, List.cons_append, foldedBody,
        show column + (n + 1) = column + 1 + n by omega, ← ih]
      simp

/-- What the spaces between two words are written as: themselves, or a single
one as a break of the line. -/
inductive WritesGap (indent : Nat) (split : Bool) : List Char → List Char → Prop
  | asIs (n : Nat) : WritesGap indent split (spaces (n + 1)) (spaces (n + 1))
  | folded (h : split = true) : WritesGap indent split (spaces 1) ('\n' :: spaces indent)

/-- So they are written. -/
theorem foldedBody_gap (indent : Nat) (split : Bool) (previous : Option Char) (column n : Nat)
    (cs : List Char) :
    ∃ gap column', foldedBody itself indent split previous column (spaces (n + 1) ++ cs) =
        gap ++ foldedBody itself indent split (some ' ') column' cs ∧
      WritesGap indent split (spaces (n + 1)) gap := by
  have h : spaces (n + 1) = ' ' :: spaces n := rfl
  rw [h, List.cons_append, foldedBody, if_pos rfl, ← h]
  split
  · next hfold =>
      have hn : n = 0 := by
        cases n with
        | zero => rfl
        | succ n => simp [spaces, List.replicate_succ] at hfold
      subst hn
      simp only [Bool.and_eq_true] at hfold
      exact ⟨'\n' :: spaces indent, indent, rfl, .folded hfold.1.1.1⟩
  · rw [foldedBody_spaces]
    exact ⟨spaces (n + 1), column + 1 + n, rfl, .asIs n⟩

namespace WritesGap

variable {indent : Nat} {split : Bool} {between gap : List Char}

/-- Either way a word ends in front of it. -/
theorem ends (h : WritesGap indent split between gap) (cs : List Char) :
    ∀ d ds, gap ++ cs = d :: ds → endsPlain false d ds = true := by
  cases h with
  | asIs n => rintro _ _ ⟨⟩; rfl
  | folded => rintro _ _ ⟨⟩; rfl

private theorem ne_nil (h : WritesGap indent split between gap) : between ≠ [] := by
  cases h <;> exact List.cons_ne_nil _ _

/-- The reader takes it for the spaces, and goes on where the scalar may. -/
theorem plainGap_eq {least : Nat} (h : WritesGap indent split between gap)
    (hi : split = true → 0 < indent ∧ least ≤ indent) {d : Char} (hd : isBlank d = false)
    (hb : isBreak d = false)
    (p : Cursor) (hp : least ≤ p.column + 1) (cs : List Char) :
    (∃ broken, plainGap p (gap ++ d :: cs) = ((between, broken), p.past gap, d :: cs)) ∧
      least ≤ (p.past gap).column := by
  cases h with
  | asIs n =>
      have hspace : d ≠ ' ' := fun heq => by simp [heq, isBlank] at hd
      refine ⟨⟨false, plainGap_spaces hspace hb (n + 1) p cs⟩, ?_⟩
      rw [(Cursor.past_of_line (printed_spaces _) (Cursor.newLine_notMem_spaces _) p).2]
      simp only [spaces, List.length_replicate]
      omega
  | folded hsplit =>
      obtain ⟨hpos, hleast⟩ := hi hsplit
      obtain ⟨m, rfl⟩ := Nat.exists_eq_add_one_of_ne_zero (Nat.ne_of_gt hpos)
      have hmark : atDocumentMark (spaces (m + 1) ++ d :: cs) = false :=
        atDocumentMark_of_head (by decide) (by decide) _
      have hword : ∀ c ∈ (d :: cs).head?, isBlank c = false ∧ isBreak c = false := by
        simpa using ⟨hd, hb⟩
      refine ⟨⟨true, plainGap_newLine hword (m + 1) hmark p⟩, ?_⟩
      rw [Cursor.column_past_indent]
      exact hleast

end WritesGap

/-- **A text of words is read back as it was**, up to what ends it. -/
theorem plain_foldedBody {least indent : Nat} {split broken : Bool}
    (hi : split = true → 0 < indent ∧ least ≤ indent) {taken rest ending : List Char}
    (he : PlainEnd least broken taken rest ending) (previous : Option Char) (column : Nat)
    {cs : List Char}
    (h : Words cs) (p : Cursor) (hp : least ≤ p.column + 1) (fuel : Nat)
    (hf : (foldedBody itself indent split previous column cs ++ ending).length < fuel) :
    plain false least fuel p (foldedBody itself indent split previous column cs ++ ending) =
      ((cs, broken), p.past (foldedBody itself indent split previous column cs ++ taken),
        rest) := by
  -- The reader goes word by word, and so does the induction.
  induction hlen : cs.length using Nat.strongRecOn generalizing cs previous column p fuel with
  | ind l ih =>
    subst hlen
    obtain ⟨k, rfl⟩ : ∃ k, fuel = k + 1 := ⟨fuel - 1, by omega⟩
    obtain ⟨c, word, n, ds, rfl, hw, hd, hz, hb⟩ := h.exists_word
    have hword : Printed (c :: word) := (printed_append.mp h.printed).1
    have hwn : '\n' ∉ c :: word := fun hm => h.line (List.mem_append_left _ hm)
    have hhead : ∀ written, (c :: word ++ written).head? ≠ some '#' := fun _ => by
      simpa using h.head_ne.1
    obtain ⟨before, hbody⟩ := foldedBody_word indent split previous column hw hwn (spaces n ++ ds)
    rw [hbody] at hf ⊢
    cases n with
    | zero =>
        obtain rfl := hz rfl
        obtain ⟨gap, hgap, hends⟩ := he.gap (p.past (c :: word))
        have hrun := plainRun_word ending hword hw hwn h.inner hb he.ends p
        simp only [spaces, List.replicate_zero, foldedBody, List.append_nil]
        rw [plain_last (hhead ending) (by simp) hrun hgap hends, ← Cursor.past_append]
    | succ n =>
        have hds := h.tail hd
        obtain ⟨d, ds, rfl⟩ : ∃ d es, ds = d :: es := List.exists_cons_of_ne_nil hds.ne
        obtain ⟨hcomment, hspace, hline⟩ := hds.head_ne
        have hdp : isPlainChar d = true := (printed_cons.mp hds.printed).1
        have hblank : isBlank d = false := by simpa [isBlank_eq_of_isPlainChar hdp] using hspace
        have hbreak : isBreak d = false := by simpa [isBreak_eq_of_isPlainChar hdp] using hline
        obtain ⟨gap, column', hgapped, hwrites⟩ :=
          foldedBody_gap indent split before (column + (c :: word).length) n (d :: ds)
        -- What follows the gap begins with the first character of the next word.
        obtain ⟨es, hes⟩ : ∃ es,
            foldedBody itself indent split (some ' ') column' (d :: ds) = d :: es := ⟨_, by rw [foldedBody, if_neg hspace, if_neg hline]; rfl⟩
        have hcolumn : least ≤ (p.past (c :: word)).column + 1 := by
          rw [(Cursor.past_of_line hword hwn p).2]
          omega
        obtain ⟨⟨_, hgap⟩, hcol⟩ := hwrites.plainGap_eq hi hblank hbreak _ hcolumn (es ++ ending)
        have hrun := plainRun_word (gap ++ (d :: es ++ ending)) hword hw hwn h.inner hb
          (hwrites.ends _) p
        have hmore := ih (d :: ds).length (by simp; omega) (some ' ') column' hds
          ((p.past (c :: word)).past gap) (Nat.le_succ_of_le hcol) k
            (by rw [hgapped] at hf; simp at hf ⊢; omega) rfl
        rw [hgapped]
        rw [hes] at hmore ⊢
        have hread := plain_more (hhead _) (by simp) hrun hgap hwrites.ne_nil
          (by simpa using hcomment) hcol (by simp)
          hmore
        simpa [← Cursor.past_append] using hread

end Scalar

end RegistryBundle.Yaml
