import RegistryBundle.Proofs.Yaml.Printed
import RegistryBundle.Yaml.Token.Basic

/-!
# Marks along a page

The reader of tokens goes along a page in pieces. What one piece contributes does not depend on what
the pieces after it hold, since a colon names a key of its own piece.

* `Mark.Spells` says which tokens the marks of a piece become,
  `Mark.Spells.append` puts pieces together;
* `Scan.Reads` says which tokens the reader takes from one state to another;
  `Scan.Reads.trans` chains it;
* `Scan.Reads.newLine`, `Scan.Reads.close`, `Scan.marks_end` cross to the next line, leave
  collections and end the page.
-/

namespace RegistryBundle.Yaml

open Chars Scalar

namespace Mark

/-- The marks of a piece of a document between two positions become tokens, whatever follows it: its
colons name keys in the piece, and no colon behind it does. -/
structure Spells (lo hi : Nat) (ms : List Mark) (ts : List Token) : Prop where
  le : lo ≤ hi
  resolves : ∃ named : Named, (∀ k ∈ named, lo ≤ k.1 ∧ k.1 < hi) ∧
    ∀ rest, (∀ k ∈ (resolveWith rest).2, hi ≤ k.1) →
      resolveWith (ms ++ rest) = (ts ++ (resolveWith rest).1, named ++ (resolveWith rest).2)

theorem Spells.nil {lo hi : Nat} (h : lo ≤ hi) : Spells lo hi [] [] :=
  ⟨h, [], by simp, fun rest _ => rfl⟩

/-- Pieces that follow each other become the tokens of both. -/
theorem Spells.append {lo mid hi : Nat} {ms ns : List Mark} {ts us : List Token}
    (h : Spells lo mid ms ts)
    (h' : Spells mid hi ns us) : Spells lo hi (ms ++ ns) (ts ++ us) := by
  obtain ⟨hle, named, hn, hr⟩ := h
  obtain ⟨hle', named', hn', hr'⟩ := h'
  refine ⟨Nat.le_trans hle hle', named ++ named', ?_, ?_⟩
  · intro k hk
    rcases List.mem_append.mp hk with hk | hk
    · exact ⟨(hn k hk).1, Nat.lt_of_lt_of_le (hn k hk).2 hle'⟩
    · exact ⟨Nat.le_trans hle (hn' k hk).1, (hn' k hk).2⟩
  · intro rest hrest
    have hlater := hr' rest hrest
    rw [List.append_assoc, hr (ns ++ rest), hlater]
    · simp
    · intro k hk
      rw [hlater] at hk
      rcases List.mem_append.mp hk with hk | hk
      · exact (hn' k hk).1
      · exact Nat.le_trans hle' (hrest k hk)

/-- A token stands for itself. -/
theorem Spells.token {lo hi : Nat} (h : lo ≤ hi) (t : Token) : Spells lo hi [.token t] [t] :=
  ⟨h, [], by simp, fun rest _ => rfl⟩

/-- A place where a key may have begun stands for nothing if no colon names it. -/
theorem Spells.maybeKey {lo hi i : Nat} (hl : lo ≤ i) (hh : i < hi) (t : Token) :
    Spells lo hi [.maybeKey i, .token t] [t] := by
  refine ⟨by omega, [], by simp, ?_⟩
  intro rest hrest
  have hfind : (resolveWith rest).2.find? (fun k => k.1 == i) = none := by
    rw [List.find?_eq_none]
    intro k hk
    have := hrest k hk
    simp only [beq_iff_eq]
    omega
  simp [resolveWith, hfind]

/-- A colon makes a key of the place that it names. -/
theorem Spells.key {i hi : Nat} (h : i < hi) (opens : Bool) (t : Token) :
    Spells i hi [.maybeKey i, .token t, .colon i opens]
      ((if opens then [.blockMapping] else []) ++ [.key, t, .value]) := by
  refine ⟨by omega, [(i, opens)], by simp [h], ?_⟩
  intro rest _
  cases opens <;> simp [resolveWith]

end Mark

namespace Scan

open Mark

/-- The reader takes marks from one state to another. -/
def Leads (s : Scan) (cs : List Char) (ms : List Mark) (s' : Scan) (cs' : List Char) : Prop :=
  ∀ fuel, cs.length < fuel → ∃ fuel', cs'.length < fuel' ∧
    marks fuel s cs = ms ++ marks fuel' s' cs'

theorem Leads.trans {s t u : Scan} {cs ds es : List Char} {ms ns : List Mark}
    (h : Leads s cs ms t ds)
    (h' : Leads t ds ns u es) : Leads s cs (ms ++ ns) u es := by
  intro fuel hf
  obtain ⟨f, hf, heq⟩ := h fuel hf
  obtain ⟨g, hg, heq'⟩ := h' f hf
  exact ⟨g, hg, by rw [heq, heq', List.append_assoc]⟩

/-- One step of the reader. -/
theorem Leads.next {s t u : Scan} {cs rest left : List Char} {c : Char} {allow : Bool} {p : Cursor}
    {closed found : List Mark} (hpass : passOver s.inFlow false s.allowKey s.cursor cs =
      (allow, p, c :: rest))
    (hsettle : settle { s with cursor := p, allowKey := allow } = .ok (closed, t))
    (hnext : t.next c rest = .ok (found, u, left)) (hl : left.length < cs.length) :
    Leads s cs (closed ++ found) u left := by
  intro fuel hf
  obtain ⟨k, rfl⟩ : ∃ k, fuel = k + 1 := ⟨fuel - 1, by omega⟩
  refine ⟨k, by omega, ?_⟩
  rw [marks]
  simp only [hpass, hsettle, hnext]

/-- Two states from which the reader goes on alike lead to each other. -/
theorem Leads.same {s t : Scan} {cs ds : List Char} (hl : ds.length ≤ cs.length)
    (h : ∀ k, marks (k + 1) s cs = marks (k + 1) t ds) : Leads s cs [] t ds := by
  intro fuel hf
  obtain ⟨k, rfl⟩ : ∃ k, fuel = k + 1 := ⟨fuel - 1, by omega⟩
  exact ⟨k + 1, by omega, h k⟩

/-- The reader takes tokens from one state to another. -/
def Reads (s : Scan) (cs : List Char) (ts : List Token) (s' : Scan) (cs' : List Char) : Prop :=
  ∃ ms, Leads s cs ms s' cs' ∧ Spells s.cursor.index s'.cursor.index ms ts

theorem Reads.trans {s t u : Scan} {cs ds es : List Char} {ts us : List Token}
    (h : Reads s cs ts t ds)
    (h' : Reads t ds us u es) : Reads s cs (ts ++ us) u es := by
  obtain ⟨ms, hm, hs⟩ := h
  obtain ⟨ns, hn, hs'⟩ := h'
  exact ⟨ms ++ ns, hm.trans hn, hs.append hs'⟩

/-! ## Between two tokens -/

/-- The state behind a token outside brackets, with no key pending. -/
def behind (p : Cursor) (is : List Nat) (allow : Bool) : Scan :=
  { cursor := p, indents := is, allowKey := allow }

/-- The state at the start of a line. -/
abbrev lineAt (p : Cursor) (is : List Nat) : Scan :=
  behind p is true

/-- The reader takes tokens up to the start of a line at a column. -/
def ReadsLine (s : Scan) (cs : List Char) (ts : List Token) (column : Nat) (is : List Nat)
    (tail : List Char) : Prop :=
  ∃ q : Cursor, q.column = column ∧ Reads s cs ts (lineAt q is) tail

theorem Reads.line {s t : Scan} {cs ds tail : List Char} {ts us : List Token} {column : Nat}
    {is : List Nat}
    (h : Reads s cs ts t ds) (h' : ReadsLine t ds us column is tail) :
      ReadsLine s cs (ts ++ us) column is tail := by
  obtain ⟨q, hq, hr⟩ := h'
  exact ⟨q, hq, h.trans hr⟩

/-- A token begins at the front of a text, if the text does not end there. -/
def StartsToken (cs : List Char) : Prop :=
  ∀ c ∈ cs.head?, isBlank c = false ∧ isBreak c = false ∧ c ≠ '#'

theorem StartsToken.cons {c : Char} {cs : List Char} (h : StartsToken (c :: cs)) :
    isBreak c = false ∧ c ≠ ' ' ∧ c ≠ '#' := by
  obtain ⟨hblank, hbreak, hcomment⟩ := h c rfl
  refine ⟨hbreak, ?_, hcomment⟩
  intro heq
  subst heq
  exact absurd hblank (by decide)

/-- Nothing is passed over where a token begins. -/
theorem passOver_start (flow allow : Bool) (p : Cursor) {cs : List Char} (h : StartsToken cs) :
    passOver flow false allow p cs = (allow, p, cs) := by
  cases cs with
  | nil => rfl
  | cons c cs =>
      obtain ⟨hbreak, hspace, hcomment⟩ := h.cons
      simp [passOver, hbreak, hspace, hcomment]

/-- Spaces are passed over. -/
theorem passOver_spaces (flow allow : Bool) (k : Nat) (p : Cursor) {cs : List Char}
    (h : StartsToken cs) :
    passOver flow false allow p (spaces k ++ cs) = (allow, p.past (spaces k), cs) := by
  induction k generalizing p with
  | zero => exact passOver_start flow allow p h
  | succ k ih =>
      have hsplit : spaces (k + 1) ++ cs = ' ' :: (spaces k ++ cs) := rfl
      have hbreak : isBreak ' ' = false := by decide
      rw [hsplit, passOver, Cursor.step_eq_past (by decide)]
      simp only [hbreak, Bool.false_eq_true, if_false, Bool.false_or, decide_true, if_true, ih]
      rw [← Cursor.past_cons]
      rfl

/-- A line feed outside brackets allows a key. -/
theorem passOver_newLine (allow : Bool) (k : Nat) (p : Cursor) {cs : List Char}
    (h : StartsToken cs) :
    passOver false false allow p ('\n' :: (spaces k ++ cs)) =
      (true, p.past ('\n' :: spaces k), cs) := by
  have hbreak : isBreak '\n' = true := by decide
  rw [passOver, Cursor.step_eq_past (by decide), Cursor.past_cons]
  simp only [hbreak, if_true, Bool.not_false, Bool.or_true]
  exact passOver_spaces false true k _ h

/-- A key that the end of the line rules out. -/
def LastLine (p : Cursor) (pending : Option PendingKey) : Prop :=
  ∀ k ∈ pending, k.required = false ∧ k.line < p.line

private theorem forgetStale_lastLine {p : Cursor} {pending : Option PendingKey}
    (h : LastLine p pending) :
    forgetStale p pending = .ok none := by
  cases pending with
  | none => rfl
  | some k =>
      obtain ⟨hrequired, hline⟩ := h k rfl
      have : k.line ≠ p.line := by omega
      simp [forgetStale, this, hrequired]

/-- The state in front of a token outside brackets. -/
theorem settle_behind (p : Cursor) (is : List Nat) (allow : Bool) :
    settle (behind p is allow) =
      .ok ((closeBlocks p.column is).1, behind p (closeBlocks p.column is).2 allow) := rfl

theorem closeBlocks_of_le {column i : Nat} (h : i ≤ column) (is : List Nat) :
    closeBlocks column (i :: is) = ([], i :: is) := by
  have : ¬column < i := by omega
  simp [closeBlocks, this]

/-- Two states go on alike if they come to the same token and settle alike in front of it. -/
theorem marks_congr {s t : Scan} {cs ds es : List Char} {a b : Bool} {p q : Cursor}
    (hs : passOver s.inFlow false s.allowKey s.cursor cs = (a, p, es))
    (ht : passOver t.inFlow false t.allowKey t.cursor ds = (b, q, es))
    (h : settle { s with cursor := p, allowKey := a } =
      settle { t with cursor := q, allowKey := b }) (k : Nat) :
    marks (k + 1) s cs = marks (k + 1) t ds := by
  rw [marks, marks]
  simp only [hs, ht, h]

/-- A pending key is dropped where the next line begins. -/
theorem Reads.settled {s : Scan} (ho : s.outer = []) {cs tail : List Char} {p : Cursor}
    (hpass : passOver false false s.allowKey s.cursor cs = (true, p, tail))
    (hp : LastLine p s.pending)
    (hs : StartsToken tail) (hi : s.cursor.index ≤ p.index) (hl : tail.length ≤ cs.length) :
    Reads s cs [] (lineAt p s.indents) tail := by
  have hfrom : passOver s.inFlow false s.allowKey s.cursor cs = (true, p, tail) := by
    simpa [inFlow, ho] using hpass
  have hsettle : settle { s with cursor := p, allowKey := true } =
      settle (behind p s.indents true) := by
    simp only [settle, ho, forgetStale_lastLine hp]
    rfl
  exact ⟨[], Leads.same hl (marks_congr hfrom (passOver_start _ _ _ hs) hsettle), Spells.nil hi⟩

/-- The end of a line, and the indentation of the next one. -/
theorem Reads.newLine {s : Scan} (ho : s.outer = []) {k : Nat} {tail : List Char}
    (hp : ∀ q ∈ s.pending, q.required = false ∧ q.line ≤ s.cursor.line) (hs : StartsToken tail) :
    Reads s ('\n' :: (spaces k ++ tail)) [] (lineAt (s.cursor.past ('\n' :: spaces k)) s.indents)
      tail := by
  refine Reads.settled ho (passOver_newLine _ k _ hs) ?_ hs ?_ (by simp; omega)
  · intro q hq
    obtain ⟨hrequired, hline⟩ := hp q hq
    exact ⟨hrequired, Nat.lt_of_le_of_lt hline (Cursor.line_lt_past_newLine _ _)⟩
  · rw [Cursor.index_past]
    omega

/-- A space between two tokens. -/
theorem Reads.space (p : Cursor) (is : List Nat) (allow : Bool) {cs : List Char}
    (hs : StartsToken cs) :
    Reads (behind p is allow) (' ' :: cs) [] (behind (p.past [' ']) is allow) cs := by
  refine ⟨[], Leads.same (by simp)
    (marks_congr (passOver_spaces false allow 1 p hs) (passOver_start _ _ _ hs) rfl), Spells.nil ?_⟩
  simp only [behind, Cursor.index_past]
  omega

/-- A collection ends in front of a line that begins left of it. -/
theorem Reads.close {p : Cursor} {i : Nat} {is : List Nat} {tail : List Char} (h : p.column < i)
    (hs : StartsToken tail) : Reads (lineAt p (i :: is)) tail [.blockEnd] (lineAt p is) tail := by
  refine ⟨[.token .blockEnd], ?_, Spells.token (Nat.le_refl _) _⟩
  intro fuel hf
  obtain ⟨k, rfl⟩ : ∃ k, fuel = k + 1 := ⟨fuel - 1, by omega⟩
  refine ⟨k + 1, hf, ?_⟩
  have hpass : ∀ js, passOver (lineAt p js).inFlow false (lineAt p js).allowKey
    (lineAt p js).cursor tail =
      (true, p, tail) := fun js => passOver_start _ _ _ hs
  have hclose : closeBlocks p.column (i :: is) =
      (.token .blockEnd :: (closeBlocks p.column is).1, (closeBlocks p.column is).2) := by
    simp [closeBlocks, h]
  have hsettle : ∀ js, settle { lineAt p js with cursor := p, allowKey := true } =
      .ok ((closeBlocks p.column js).1, behind p (closeBlocks p.column js).2 true) :=
        fun js => settle_behind p js true
  rw [marks, marks]
  simp only [hpass, hsettle, hclose]
  cases tail with
  | nil => rfl
  | cons c cs =>
      simp only
      cases next (behind p (closeBlocks p.column is).2 true) c cs <;> rfl

/-- Every open collection ends by a mark of its own, where the text leaves it
or at the end of the text. -/
theorem closeBlocks_append (column : Nat) (is : List Nat) :
    (closeBlocks column is).1 ++ (closeBlocks column is).2.map (fun _ => .token .blockEnd) =
      is.map fun _ => .token .blockEnd := by
  induction is with
  | nil => rfl
  | cons i is ih =>
      by_cases h : column < i
      · simp only [closeBlocks, if_pos h, List.map_cons, List.cons_append, ih]
      · simp [closeBlocks, h]

/-- At the end of a page all collections end. -/
theorem marks_end (p : Cursor) (is : List Nat) (fuel : Nat) :
    marks (fuel + 1) (lineAt p is) [] = is.map fun _ => .token .blockEnd := by
  rw [← closeBlocks_append p.column is]
  rfl

end Scan

end RegistryBundle.Yaml
