import RegistryBundle.Proofs.Yaml.Quoted

/-!
# Texts within single quotes

Within single quotes a text is written so that it is read back as it was: a line may be folded at a
single space, and line feeds are doubled.

* `Scalar.allowsSingle_cons`, `Scalar.not_space_newLine`, `Scalar.not_newLine_space`: what a text
  within single quotes is like;
* `Scalar.foldedBody_newLines` is a run of line feeds as it is written;
* `Scalar.quotes_foldedBody` is the round trip.
-/

namespace RegistryBundle.Yaml.Scalar

open Chars Lexeme

/-- Every end of a text that allows single quotes allows them too. -/
theorem allowsSingle_cons {c : Char} {cs : List Char} (h : allowsSingle (c :: cs) = true) :
    isPlainChar c = true ∧ allowsSingle cs = true := by
  simp only [allowsSingle, List.all_cons, Bool.and_eq_true, Bool.not_eq_true'] at h ⊢
  obtain ⟨⟨⟨hc, hcs⟩, h1⟩, h2⟩ := h
  refine ⟨hc, ⟨hcs, ?_⟩, ?_⟩
  · cases cs with
    | nil => rfl
    | cons d ds => exact (Bool.or_eq_false_iff.mp h1).2
  · cases cs with
    | nil => rfl
    | cons d ds => exact (Bool.or_eq_false_iff.mp h2).2

private theorem allowsSingle_append_right {cs ds : List Char} (h : allowsSingle (cs ++ ds) = true) :
    allowsSingle ds = true := by
  induction cs with
  | nil => exact h
  | cons c cs ih => exact ih (allowsSingle_cons h).2

private theorem printed_of_allowsSingle {cs : List Char} (h : allowsSingle cs = true) :
    Printed cs := by
  intro c hc
  simp only [allowsSingle, Bool.and_eq_true, List.all_eq_true] at h
  exact h.1.1 c hc

/-- No line feed stands behind a space there. -/
theorem not_space_newLine {cs : List Char} (h : allowsSingle (' ' :: cs) = true) :
    cs.head? ≠ some '\n' := by
  cases cs with
  | nil => simp
  | cons d ds =>
      simp only [allowsSingle, adjoins, Bool.and_eq_true, Bool.not_eq_true',
        Bool.or_eq_false_iff] at h
      intro heq
      obtain rfl : d = '\n' := by simpa using heq
      exact absurd h.2.1 (by decide)

/-- No space stands behind a line feed there. -/
theorem not_newLine_space {cs : List Char} (h : allowsSingle ('\n' :: cs) = true) :
    cs.head? ≠ some ' ' := by
  cases cs with
  | nil => simp
  | cons d ds =>
      simp only [allowsSingle, adjoins, Bool.and_eq_true, Bool.not_eq_true',
        Bool.or_eq_false_iff] at h
      intro heq
      obtain rfl : d = ' ' := by simpa using heq
      exact absurd h.1.2.1 (by decide)

/-- A text with the line feeds at its front set apart. -/
theorem exists_newLines (cs : List Char) :
    ∃ n ds, cs = List.replicate n '\n' ++ ds ∧ ds.head? ≠ some '\n' := by
  induction cs with
  | nil => exact ⟨0, [], rfl, by simp⟩
  | cons c cs ih =>
      by_cases h : c = '\n'
      · obtain ⟨n, ds, rfl, hd⟩ := ih
        exact ⟨n + 1, ds, by rw [h, List.replicate_succ, List.cons_append], hd⟩
      · exact ⟨0, c :: cs, rfl, by simpa using h⟩

/-- Line feeds behind a line feed are written as they are, and the next line is indented. -/
theorem foldedBody_more_newLines (quote : Char → List Char) (indent : Nat) (split : Bool)
    (column n : Nat)
    {cs : List Char} (h : cs.head? ≠ some '\n') :
    foldedBody quote indent split (some '\n') column (List.replicate (n + 1) '\n' ++ cs) =
      List.replicate (n + 1) '\n' ++
        (spaces indent ++ foldedBody quote indent split (some '\n') indent cs) := by
  induction n generalizing column with
  | zero => simp [foldedBody, h]
  | succ n ih =>
      rw [List.replicate_succ, List.cons_append, foldedBody, ih indent]
      simp [List.replicate_succ]

/-- A run of line feeds is written with one more, and the next line is indented. -/
theorem foldedBody_newLines (quote : Char → List Char) (indent : Nat) (split : Bool)
    {previous : Option Char}
    (column n : Nat) {cs : List Char} (h : cs.head? ≠ some '\n') (hp : previous ≠ some '\n') :
    foldedBody quote indent split previous column (List.replicate (n + 1) '\n' ++ cs) =
      '\n' :: (List.replicate (n + 1) '\n' ++
        (spaces indent ++ foldedBody quote indent split (some '\n') indent cs)) := by
  rw [List.replicate_succ, List.cons_append, foldedBody]
  cases n with
  | zero => simp [h, hp]
  | succ n =>
      have hmore := foldedBody_more_newLines quote indent split indent n h
      rw [List.replicate_succ, List.cons_append] at hmore
      simp [hp, hmore, List.replicate_succ]

/-- What is written of a text that begins with neither a space nor a line feed goes on with its
first character, and of an empty text with the closing quote. -/
theorem goesOn_foldedBody {cs : List Char} (hp : Printed cs) (hs : cs.head? ≠ some ' ')
    (hn : cs.head? ≠ some '\n')
    (indent : Nat) (split : Bool) (previous : Option Char) (column : Nat) (rest : List Char) :
    GoesOn (foldedBody singleQuote indent split previous column cs ++ '\'' :: rest) := by
  cases cs with
  | nil => exact ⟨'\'', rest, rfl, by decide, by decide⟩
  | cons c cs =>
      have hs : c ≠ ' ' := by simpa using hs
      have hn : c ≠ '\n' := by simpa using hn
      have hc : isPlainChar c = true := (printed_cons.mp hp).1
      have hfirst : ∃ ds, singleQuote c = c :: ds := by
        by_cases h : c = '\''
        · exact ⟨['\''], by simp [singleQuote, h]⟩
        · exact ⟨[], by simp [singleQuote, h]⟩
      obtain ⟨ds, hds⟩ := hfirst
      rw [foldedBody, if_neg hs, if_neg hn, hds]
      exact ⟨c, _, rfl, by simpa [isBlank_eq_of_isPlainChar hc] using hs,
        by simpa [isBreak_eq_of_isPlainChar hc] using hn⟩

/-- Behind a space that was not folded the line goes on. -/
theorem goesOn_dropWhile_foldedBody {cs : List Char} (h : allowsSingle (' ' :: cs) = true)
    (indent : Nat)
    (split : Bool) (column : Nat) (rest : List Char) :
    GoesOn ((foldedBody singleQuote indent split (some ' ') column cs ++ '\'' :: rest).dropWhile
      isBlank) := by
  induction cs generalizing column with
  | nil => exact ⟨'\'', rest, by simp [foldedBody, isBlank], by decide, by decide⟩
  | cons c cs ih =>
      have htail : allowsSingle (c :: cs) = true := (allowsSingle_cons h).2
      by_cases hc : c = ' '
      · subst hc
        have hstep : foldedBody singleQuote indent split (some ' ') column (' ' :: cs) =
            ' ' :: foldedBody singleQuote indent split (some ' ') (column + 1) cs := by
          simp [foldedBody]
        rw [hstep, List.cons_append, List.dropWhile_cons_of_pos (by decide)]
        exact ih htail (column + 1)
      · have hgoes := goesOn_foldedBody (printed_of_allowsSingle htail) (by simpa using hc)
          (not_space_newLine h)
          indent split (some ' ') column rest
        obtain ⟨d, ds, hd, hblank, hbreak⟩ := hgoes
        rw [hd, List.dropWhile_cons_of_neg (by simp [hblank])]
        exact ⟨d, ds, rfl, hblank, hbreak⟩

section Steps

variable {indent : Nat} {split : Bool} {previous : Option Char} {rest cs : List Char}

/-- A space is read back, also where the line is folded there. -/
theorem quotes_foldedBody_space (hi : 0 < indent) (h : allowsSingle (' ' :: cs) = true)
    (hcs : ∀ column, Quotes false rest
      (foldedBody singleQuote indent split (some ' ') column cs ++ ['\'']) cs)
    (column : Nat) :
    Quotes false rest (foldedBody singleQuote indent split previous column (' ' :: cs) ++ ['\''])
      (' ' :: cs) := by
  rw [foldedBody, if_pos rfl]
  split
  · next hfold =>
      -- The line is folded here, so a character other than a space follows.
      simp only [Bool.and_eq_true] at hfold
      have hspace : cs.head? ≠ some ' ' := by
        intro heq
        simp [heq] at hfold
      have hprinted := printed_of_allowsSingle (allowsSingle_cons h).2
      have hgoes : GoesOn (foldedBody singleQuote indent split (some ' ') indent cs ++ ['\''] ++
          rest) := by
        simpa using goesOn_foldedBody hprinted hspace (not_space_newLine h) indent split
          (some ' ') indent rest
      simpa using Quotes.breaks (n := 0) hi hgoes (hcs indent)
  · refine Quotes.space ?_ (hcs (column + 1))
    simpa using goesOn_dropWhile_foldedBody h indent split (column + 1) rest

/-- A run of line feeds is read back. -/
private theorem quotes_foldedBody_newLines (hi : 0 < indent) (h : allowsSingle ('\n' :: cs) = true)
    (hn : cs.head? ≠ some '\n') (hp : previous ≠ some '\n')
    (hcs : Quotes false rest (foldedBody singleQuote indent split (some '\n') indent cs ++ ['\''])
      cs)
    (column n : Nat) :
    Quotes false rest
      (foldedBody singleQuote indent split previous column (List.replicate (n + 1) '\n' ++ cs) ++
        ['\''])
      (List.replicate (n + 1) '\n' ++ cs) := by
  have hprinted := printed_of_allowsSingle (allowsSingle_cons h).2
  have hgoes : GoesOn (foldedBody singleQuote indent split (some '\n') indent cs ++ ['\''] ++
      rest) := by
    simpa using goesOn_foldedBody hprinted (not_newLine_space h) hn indent split
      (some '\n') indent rest
  have hbreaks := Quotes.breaks (n := n + 1) hi hgoes hcs
  rw [foldedBody_newLines singleQuote indent split column n hn hp]
  simpa using hbreaks

/-- Every other character is read back, a quote from two of them. -/
private theorem quotes_foldedBody_char {c : Char} (hc : isPlainChar c = true) (hs : c ≠ ' ')
    (hn : c ≠ '\n')
    (column : Nat)
    (hcs : Quotes false rest
      (foldedBody singleQuote indent split (some c) (column + (singleQuote c).length) cs ++ ['\''])
        cs) :
    Quotes false rest (foldedBody singleQuote indent split previous column (c :: cs) ++ ['\''])
      (c :: cs) := by
  rw [foldedBody, if_neg hs, if_neg hn]
  by_cases hq : c = '\''
  · subst hq
    exact hcs.doubled
  · have hone : singleQuote c = [c] := by simp [singleQuote, hq]
    rw [hone] at hcs ⊢
    exact hcs.char hc hq (by simp) hs hn

end Steps

/-- **A text within single quotes is read back as it was.** `previous` is the character before;
behind a line feed the text must not go on with another, since a run of them is written as one. -/
theorem quotes_foldedBody {indent : Nat} (hi : 0 < indent) (split : Bool) {rest : List Char}
    (hr : rest.head? ≠ some '\'') (previous : Option Char) (column : Nat) (cs : List Char)
    (h : allowsSingle (previous.toList ++ cs) = true)
    (hp : previous = some '\n' → cs.head? ≠ some '\n') :
    Quotes false rest (foldedBody singleQuote indent split previous column cs ++ ['\'']) cs := by
  -- A run of line feeds is one step, so the induction is on the length.
  induction hl : cs.length using Nat.strongRecOn generalizing cs previous column with
  | ind l ih =>
    subst hl
    have hcs : allowsSingle cs = true := allowsSingle_append_right h
    cases cs with
    | nil => exact Quotes.close (.inr hr)
    | cons c cs =>
      have hlt : cs.length < (c :: cs).length := Nat.lt_succ_self _
      by_cases hs : c = ' '
      · subst hs
        have hrest := fun column => ih cs.length hlt (some ' ') column cs hcs (by simp) rfl
        exact quotes_foldedBody_space hi hcs hrest column
      · by_cases hn : c = '\n'
        · subst hn
          obtain ⟨n, ds, rfl, hds⟩ := exists_newLines cs
          have hprev : previous ≠ some '\n' := fun heq => hp heq rfl
          have hrun : '\n' :: (List.replicate n '\n' ++ ds) = List.replicate (n + 1) '\n' ++
              ds := by
            rw [List.replicate_succ, List.cons_append]
          have hlast : allowsSingle ('\n' :: ds) = true := by
            rw [hrun, List.replicate_succ', List.append_assoc] at hcs
            exact allowsSingle_append_right hcs
          have hlen : ds.length < ('\n' :: (List.replicate n '\n' ++ ds)).length := by
            simp only [List.length_cons, List.length_append, List.length_replicate]
            omega
          have hrest := ih ds.length hlen (some '\n') indent ds hlast (fun _ => hds) rfl
          rw [hrun]
          exact quotes_foldedBody_newLines hi hlast hds hprev hrest column n
        · have hrest := ih cs.length hlt (some c) (column + (singleQuote c).length) cs hcs
            (fun heq => absurd (Option.some.inj heq) hn) rfl
          exact quotes_foldedBody_char (allowsSingle_cons hcs).1 hs hn column hrest

end RegistryBundle.Yaml.Scalar
