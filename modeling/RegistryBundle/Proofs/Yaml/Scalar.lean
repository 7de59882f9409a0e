import RegistryBundle.Proofs.Yaml.DoubleQuotes
import RegistryBundle.Proofs.Yaml.Plain
import RegistryBundle.Proofs.Yaml.SingleQuotes
import RegistryBundle.Yaml.Node.Layout
import RegistryBundle.Yaml.Node.OfTokens

/-!
# Scalars read back

A scalar is written in one of three styles, and each is read back.

* `Node.ShowsTag` are the scalars that are written without a tag: texts, and what is plain
  and looks like its type;
* `Node.readText` is the text that is read back, `Node.scalarTag_readText` its tag;
* `Scalar.quotes_body` is the round trip of the quoted styles; `Scalar.body_of_line`
  is a scalar on one line.
-/

namespace RegistryBundle.Yaml

open Chars Lexeme

namespace Scalar

/-! ## Bodies -/

/-- What is written with folded lines is printed if the text is. -/
theorem printed_foldedBody {quote : Char → List Char}
    (hq : ∀ c, isPlainChar c = true → Printed (quote c))
    (indent : Nat) (split : Bool) (previous : Option Char) (column : Nat) {cs : List Char}
    (h : Printed cs) :
    Printed (foldedBody quote indent split previous column cs) := by
  have hspace : isPlainChar ' ' = true := by decide
  have hfeed : isPlainChar '\n' = true := by decide
  induction cs generalizing previous column with
  | nil => exact printed_nil
  | cons c cs ih =>
      rw [printed_cons] at h
      have hspaces := printed_spaces indent
      rw [foldedBody]
      split
      · split <;> simp [hspace, hfeed, hspaces, ih _ _ h.2]
      · split
        · simp only [printed_append]
          refine ⟨⟨?_, ?_⟩, ih _ _ h.2⟩
          · split <;> simp [hfeed, printed_nil]
          · split <;> simp [hspaces, printed_nil]
        · rw [printed_append]
          exact ⟨hq c h.1, ih _ _ h.2⟩

/-- A text of one line whose lines are not broken is written character by character. -/
theorem foldedBody_of_line {quote : Char → List Char} (hq : quote ' ' = [' ']) (indent : Nat)
    (previous : Option Char) (column : Nat) {cs : List Char} (h : '\n' ∉ cs) :
    foldedBody quote indent false previous column cs = cs.flatMap quote := by
  induction cs generalizing previous column with
  | nil => rfl
  | cons c cs ih =>
      rw [List.mem_cons, not_or] at h
      rw [foldedBody, List.flatMap_cons]
      by_cases hs : c = ' '
      · simp [hs, hq, ih _ _ h.2]
      · rw [if_neg hs, if_neg (Ne.symm h.1), ih _ _ h.2]

private theorem printed_singleQuote (c : Char) (h : isPlainChar c = true) :
    Printed (singleQuote c) := by
  unfold singleQuote
  split
  · exact printed_cons.mpr ⟨by decide, printed_cons.mpr ⟨by decide, printed_nil⟩⟩
  · exact printed_cons.mpr ⟨h, printed_nil⟩

/-- The texts that a style can hold. -/
structure Fits (st : Style) (cs : List Char) : Prop where
  plain : st = .plain → allowsPlain cs = true ∧ cs ≠ []
  single : st = .single → allowsSingle cs = true

theorem Fits.printed {st : Style} {cs : List Char} (h : Fits st cs) (hst : st ≠ .double) :
    Printed cs := by
  cases st with
  | plain => exact (words_of_allowsPlain (h.plain rfl).1 (h.plain rfl).2).printed
  | single =>
      have hs := h.single rfl
      simp only [allowsSingle, Bool.and_eq_true, List.all_eq_true] at hs
      exact hs.1.1
  | double => exact absurd rfl hst

/-- Every scalar is printed. -/
theorem printed_body {st : Style} {cs : List Char} (h : Fits st cs) (column indent : Nat)
    (split : Bool) :
    Printed (body st column indent split cs) := by
  cases st with
  | plain =>
      exact printed_foldedBody (fun c hc => printed_cons.mpr ⟨hc, printed_nil⟩) _ _ _ _
        (h.printed (by decide))
  | single =>
      have hquote : isPlainChar '\'' = true := by decide
      simp [body, singleBody, hquote, printed_nil,
        printed_foldedBody printed_singleQuote _ _ _ _ (h.printed (by decide))]
  | double =>
      have hquote : isPlainChar '"' = true := by decide
      simp [body, doubleBody, hquote, printed_nil, printed_escapedBody]

/-- The spelling within single quotes at most doubles a text and keeps it on its line. -/
theorem singleQuote_of_line {cs : List Char} (h : '\n' ∉ cs) :
    '\n' ∉ cs.flatMap singleQuote ∧ (cs.flatMap singleQuote).length ≤ 2 * cs.length := by
  induction cs with
  | nil => simp
  | cons c cs ih =>
      rw [List.mem_cons, not_or] at h
      have hc : '\n' ∉ singleQuote c ∧ (singleQuote c).length ≤ 2 := by
        unfold singleQuote
        split <;> simp [h.1]
      obtain ⟨hline, hlen⟩ := ih h.2
      rw [List.flatMap_cons, List.mem_append, not_or, List.length_append, List.length_cons]
      exact ⟨⟨hc.1, hline⟩, by omega⟩

/-- A scalar on one line, which does not depend on the indentation. -/
theorem body_of_line {st : Style} {cs : List Char} (h : st = .double ∨ '\n' ∉ cs)
    (column indent : Nat) :
    '\n' ∉ body st column indent false cs ∧
      (body st column indent false cs).length ≤ 10 * cs.length + 2 ∧
      ∀ i, body st column indent false cs = body st column i false cs := by
  cases st with
  | plain =>
      have hn : '\n' ∉ cs := h.resolve_left (by decide)
      have hbody : ∀ i, body .plain column i false cs = cs := fun i => by
        rw [body, plainBody, foldedBody_of_line rfl _ _ _ hn]
        exact List.flatMap_singleton' cs
      rw [hbody]
      exact ⟨hn, by omega, fun i => (hbody i).symm⟩
  | single =>
      have hn : '\n' ∉ cs := h.resolve_left (by decide)
      have hbody : ∀ i, body .single column i false cs = '\'' ::
          (cs.flatMap singleQuote ++ ['\'']) := fun i => by
        rw [body, singleBody, foldedBody_of_line (show singleQuote ' ' = [' '] from rfl) _ _ _ hn]
      obtain ⟨hline, hlen⟩ := singleQuote_of_line hn
      rw [hbody]
      refine ⟨by simp [hline], ?_, fun i => (hbody i).symm⟩
      rw [List.length_cons, List.length_append, List.length_singleton]
      omega
  | double =>
      obtain ⟨hline, hlen, hi⟩ := escapedBody_of_not_split indent true true (column + 1) cs
      rw [body, doubleBody]
      refine ⟨by simp [hline], ?_, fun i => by rw [body, doubleBody, hi i]⟩
      rw [List.length_cons, List.length_append, List.length_singleton]
      omega

/-- The text that is read back from a style. -/
def bodyText (st : Style) (indent : Nat) (split : Bool) (cs : List Char) : List Char :=
  match st with
  | .double => reread indent split true cs
  | _ => cs

/-- **A quoted scalar is read back**, within double quotes as far as the writer holds
together what it breaks. -/
theorem quotes_body {st : Style} (hst : st ≠ .plain) {cs : List Char} (h : Fits st cs)
    (column : Nat) {indent : Nat}
    (hi : 0 < indent) (hc : indent ≤ column + 1) (split : Bool) :
    ∃ bs, body st column indent split cs = quoteMark (st == .double) :: bs ∧
      ∀ rest, rest.head? ≠ some '\'' →
        Quotes (st == .double) rest bs (bodyText st indent split cs) := by
  cases st with
  | plain => exact absurd rfl hst
  | single =>
      exact ⟨_, rfl, fun rest hr => quotes_foldedBody hi split hr none (column + 1) cs
        (h.single rfl) (by simp)⟩
  | double => exact ⟨_, rfl, fun rest _ => quotes_escapedBody hi split rest true true hc cs⟩

/-- What a style says about its text. -/
theorem of_style_plain {implicit key : Bool} {cs : List Char} (h : style implicit key cs = .plain) :
    implicit = true ∧ allowsPlain cs = true := by
  unfold style at h
  split at h
  · next hp =>
      simp only [Bool.and_eq_true] at hp
      exact hp.1
  · split at h <;> exact absurd h (by decide)

private theorem of_style_single {implicit key : Bool} {cs : List Char}
    (h : style implicit key cs = .single) :
    allowsSingle cs = true := by
  unfold style at h
  split at h
  · exact absurd h (by decide)
  · split at h
    · next hs =>
        simp only [Bool.and_eq_true] at hs
        exact hs.1
    · exact absurd h (by decide)

end Scalar

namespace Node

open Scalar

/-- A scalar that is written without a tag: a text, or one that may stand plain
and looks like what it is. -/
def ShowsTag (t : Tag) (s : List Char) : Prop :=
  t = .str ∨ t ≠ .binary ∧ isImplicit t s = true ∧ allowsPlain s = true ∧ s ≠ []

/-- The style of a scalar without a tag. -/
def styleOf (key : Bool) (t : Tag) (s : List Char) : Style :=
  style (isImplicit t s) key s

/-- The text that is read back from a scalar. -/
def readText (key : Bool) (indent : Nat) (t : Tag) (s : List Char) : List Char :=
  bodyText (styleOf key t s) indent (!key) s

theorem ShowsTag.fits {t : Tag} {s : List Char} (h : ShowsTag t s) (key : Bool) :
    Fits (styleOf key t s) s where
  plain := by
    intro hst
    obtain ⟨himplicit, hplain⟩ := of_style_plain hst
    refine ⟨hplain, ?_⟩
    intro heq
    subst heq
    rcases h with rfl | ⟨_, _, _, hne⟩
    · exact absurd himplicit (by decide)
    · exact hne rfl
  single := of_style_single

/-- A scalar that is no text is plain. -/
theorem ShowsTag.plain_or_str {t : Tag} {s : List Char} (h : ShowsTag t s) (key : Bool) :
    styleOf key t s = .plain ∨ t = .str := by
  rcases h with rfl | ⟨_, himplicit, hplain, hne⟩
  · exact .inr rfl
  · refine .inl ?_
    cases s with
    | nil => exact absurd rfl hne
    | cons c cs => simp [styleOf, style, himplicit, hplain]

/-- Such a scalar is written as its body alone. -/
theorem ShowsTag.scalarText_eq {t : Tag} {s : List Char} (h : ShowsTag t s) (column indent : Nat)
    (key : Bool) :
    scalarText [] column indent key t s = body (styleOf key t s) column indent (!key) s ++
      ['\n'] := by
  have hbinary : (t == .binary) = false := by
    rw [beq_eq_false_iff_ne]
    rcases h with rfl | ⟨hne, _⟩
    · decide
    · exact hne
  have htag : Node.scalarTag t s (styleOf key t s) = [] := by
    unfold Node.scalarTag
    rcases h.plain_or_str key with hst | rfl
    · simp [hst, (of_style_plain hst).1]
    · cases hst : styleOf key .str s with
      | plain => simp [(of_style_plain hst).1]
      | single => rfl
      | double => rfl
  unfold scalarText
  rw [hbinary]
  unfold styleOf at htag ⊢
  simp [htag, propertyText]

/-- A scalar is read with its own tag. -/
theorem ShowsTag.scalarTag_readText {t : Tag} {s : List Char} (h : ShowsTag t s) (key : Bool)
    (indent : Nat)
    {r : Reading} (hr : r.version = .older) :
    r.scalarTag none (readText key indent t s) (styleOf key t s == .plain) = t := by
  rcases Decidable.em (styleOf key t s = .plain) with hst | hst
  · obtain ⟨hplain, hne⟩ := (h.fits key).plain hst
    have hline := (words_of_allowsPlain hplain hne).line
    have htag : Implicit.tag .older s = t := by simpa [isImplicit] using (of_style_plain hst).1
    have hlast : s.getLast? ≠ some '\n' := fun heq => hline (List.mem_of_getLast? heq)
    have himplicit : r.implicitTag s = Implicit.tag r.version s := by
      cases s with
      | nil => exact absurd rfl hne
      | cons c cs =>
          have hc : c ≠ '\n' := fun heq => hline (by simp [heq])
          unfold Reading.implicitTag
          split
          · next heq => exact absurd (List.cons.inj heq).1 hc
          · rw [if_neg (by simpa using hlast)]
    simp [Reading.scalarTag, readText, bodyText, hst, himplicit, hr, htag]
  · obtain rfl : t = .str := (h.plain_or_str key).resolve_left hst
    simp [Reading.scalarTag, hst]

end Node

end RegistryBundle.Yaml
