import RegistryBundle.Proofs.Yaml.Marks
import RegistryBundle.Proofs.Yaml.Scalar

/-!
# Tokens of a page

What the reader takes at each of the things that the writer puts on a page: the indicator of an
item, a key or a value, a scalar, the brackets of an empty collection, a key and its colon.

* `Scan.Enters` says how a token stands to the open collections: in the innermost
  one, or it opens another;
* `Scan.Reads.indicator`, `Scan.Reads.scalar`, `Scan.Reads.brackets`,
  `Scan.Reads.simpleKey` are the rules.
-/

namespace RegistryBundle.Yaml

open Chars Lexeme Scalar

namespace Scan

/-- A token at `column` belongs to the innermost of the collections `is`, or it opens another one;
`js` are the open collections behind it. -/
inductive Enters (column : Nat) (opening : Token) : List Nat → List Token → List Nat → Prop where
  | level (is : List Nat) : Enters column opening (column :: is) [] (column :: is)
  | opens {is : List Nat} (h : ∀ i ∈ is.head?, i < column) :
      Enters column opening is [opening] (column :: is)

/-- Behind the token the innermost open collection is the one it belongs to. -/
theorem Enters.exists_eq {column : Nat} {opening : Token} {is js : List Nat} {ts : List Token}
    (h : Enters column opening is ts js) : ∃ os, js = column :: os := by
  cases h with
  | level os => exact ⟨os, rfl⟩
  | opens h => exact ⟨is, rfl⟩

/-- No collection ends at such a token. -/
theorem Enters.closeBlocks {column : Nat} {opening : Token} {is js : List Nat} {ts : List Token}
    (h : Enters column opening is ts js) : closeBlocks column is = ([], is) := by
  cases h with
  | level is => exact closeBlocks_of_le (Nat.le_refl _) is
  | opens h =>
      cases is with
      | nil => rfl
      | cons i is => exact closeBlocks_of_le (Nat.le_of_lt (h i rfl)) is

/-- What such a token does to the open collections. -/
theorem Enters.openBlock {column : Nat} {opening : Token} {is js : List Nat} {ts : List Token}
    (h : Enters column opening is ts js) (p : Cursor) (allow : Bool) :
    (behind p is allow).openBlock column opening = (ts.map .token, behind p js allow) := by
  cases h with
  | level is => simp [Scan.openBlock, isDeeper, behind]
  | opens h =>
      cases is with
      | nil => rfl
      | cons i is => simp [Scan.openBlock, isDeeper, behind, h i rfl]

/-- A piece whose marks are all tokens. -/
theorem spells_tokens {lo hi : Nat} (h : lo ≤ hi) (ts : List Token) :
    Mark.Spells lo hi (ts.map .token) ts := by
  induction ts with
  | nil => exact Mark.Spells.nil h
  | cons t ts ih => exact (Mark.Spells.token (Nat.le_refl lo) t).append ih

/-! ## Indicators -/

/-- The indicators of block structure: what each opens, and what it is. -/
def indicators : List (Char × Token × Token) :=
  [('-', .blockSequence, .entry), ('?', .blockMapping, .key), (':', .blockMapping, .value)]

/-- An indicator in front of a space is the start of a token. -/
theorem startsToken_indicator {c : Char} {o t : Token} (h : (c, o, t) ∈ indicators)
    (cs : List Char) :
    StartsToken (c :: cs) := by
  intro d heq
  cases heq
  simp only [indicators, List.mem_cons, Prod.mk.injEq, List.not_mem_nil, or_false] at h
  rcases h with ⟨rfl, _⟩ | ⟨rfl, _⟩ | ⟨rfl, _⟩ <;> decide

/-- The step of the reader at an indicator. -/
theorem next_indicator {c : Char} {o t : Token} (h : (c, o, t) ∈ indicators) {p : Cursor}
    {is js : List Nat}
    {ts : List Token} (he : Enters p.column o is ts js) (cs : List Char) :
    (behind p is true).next c (' ' :: cs) =
      .ok (ts.map .token ++ [.token t], behind (p.past [c]) js true, ' ' :: cs) := by
  have hmark : ∀ c, atDocumentMark (c :: ' ' :: cs) = false := fun c => by simp [atDocumentMark]
  have hopen := he.openBlock p true
  simp only [indicators, List.mem_cons, Prod.mk.injEq, List.not_mem_nil, or_false] at h
  have hgive : (behind p js true).giveUpKey = .ok (behind p js true) := rfl
  have hflow : (behind p is true).inFlow = false := rfl
  have hallow : (behind p is true).allowKey = true := rfl
  have hcolumn : (behind p is true).cursor.column = p.column := rfl
  have hpending : (behind p is true).pending = none := rfl
  rcases h with ⟨rfl, rfl, rfl⟩ | ⟨rfl, rfl, rfl⟩ | ⟨rfl, rfl, rfl⟩
  · simp [next, hmark, atBoundary, isBlank, entryToken, hflow, hallow, hcolumn, hopen, hgive]
    exact ⟨rfl, rfl⟩
  · simp [next, hmark, atBoundary, isBlank, keyToken, hflow, hallow, hcolumn, hopen, hgive]
    exact ⟨rfl, rfl⟩
  · simp [next, hmark, atBoundary, isBlank, valueToken, hflow, hallow, hcolumn, hpending, hopen]
    exact ⟨rfl, rfl⟩

/-- A step of the reader from a state without a pending key. -/
theorem Leads.token {p : Cursor} {is : List Nat} {allow : Bool} {c : Char} {rest left : List Char}
    {found : List Mark} {u : Scan} (hs : StartsToken (c :: rest))
    (hc : closeBlocks p.column is = ([], is))
    (hnext : (behind p is allow).next c rest = .ok (found, u, left))
    (hl : left.length ≤ rest.length) :
    Leads (behind p is allow) (c :: rest) found u left := by
  have hsettle : settle (behind p is allow) = .ok ([], behind p is allow) := by
    rw [settle_behind, hc]
  exact Leads.next (s := behind p is allow) (passOver_start _ _ _ hs) hsettle hnext
    (Nat.lt_succ_of_le hl)

/-- An indicator: what it opens, and itself. -/
theorem Reads.indicator {c : Char} {o t : Token} (h : (c, o, t) ∈ indicators) {p : Cursor}
    {is js : List Nat}
    {ts : List Token} (he : Enters p.column o is ts js) (cs : List Char) :
    Reads (lineAt p is) (c :: ' ' :: cs) (ts ++ [t]) (behind (p.past [c]) js true) (' ' :: cs) := by
  refine ⟨_, Leads.token (startsToken_indicator h _) he.closeBlocks (next_indicator h he cs)
    (Nat.le_refl _), ?_⟩
  have hindex : p.index ≤ (p.past [c]).index := by
    rw [Cursor.index_past]
    omega
  have := spells_tokens hindex (ts ++ [t])
  rwa [List.map_append] at this

/-! ## Scalars -/

/-- The marks in front of a token that may be a key, where a key is allowed. -/
def keyMarks (p : Cursor) (allow : Bool) : List Mark :=
  if allow then [.maybeKey p.index] else []

/-- The key that is pending behind such a token. -/
def noted (p : Cursor) (is : List Nat) (allow : Bool) : Option PendingKey :=
  if allow then some ⟨p.index, p.line, p.column, is.head? == some p.column⟩ else none

private theorem noteKey_behind (p : Cursor) (is : List Nat) (allow : Bool) :
    (behind p is allow).noteKey =
      .ok (keyMarks p allow,
        { cursor := p, indents := is, allowKey := allow, pending := noted p is allow }) := by
  cases allow <;> rfl

/-- A mark between documents has no quote. -/
theorem atDocumentMark_quote (double : Bool) (cs : List Char) :
    atDocumentMark (quoteMark double :: cs) = false := by
  cases double <;> exact atDocumentMark_of_head (by decide) (by decide) cs

/-- The step of the reader at a quoted scalar. -/
theorem next_quoted {double : Bool} {bs rest text : List Char} (h : Quotes double rest bs text)
    (p : Cursor)
    (is : List Nat) (allow : Bool) :
    (behind p is allow).next (quoteMark double) (bs ++ rest) =
      .ok (keyMarks p allow ++ [.token (.scalar text false)],
        { cursor := p.past (quoteMark double :: bs), indents := is, allowKey := false
          pending := noted p is allow }, rest) := by
  have hprinted : isPlainChar (quoteMark double) = true := by cases double <;> decide
  have hread := h (p.past [quoteMark double]) ((bs ++ rest).length + 1) (Nat.lt_succ_self _)
  have htoken : (behind p is allow).quotedToken double (quoteMark double :: (bs ++ rest)) =
      .ok (keyMarks p allow ++ [.token (.scalar text false)],
        { cursor := p.past (quoteMark double :: bs), indents := is, allowKey := false
          pending := noted p is allow }, rest) := by
    simp only [quotedToken, keyPart, noteKey_behind, Outcome.ok_bind, advance, skip,
      Cursor.step_eq_past hprinted, hread]
    rw [Cursor.past_cons, Outcome.pure_eq_ok, Outcome.ok_bind, Token.ofLetters_chars]
    rfl
  rw [← htoken, next]
  simp only [atDocumentMark_quote]
  cases double <;> simp [quoteMark]

/-- The characters that no plain scalar begins with. -/
def leading : List Char :=
  ['#', ',', '[', ']', '\x7b', '\x7d', '&', '*', '!', '|', '>', '\'', '"', '%', '@', '\x60']

/-- The first character of a plain scalar, with what is written behind it. -/
structure PlainStart (c : Char) (rest : List Char) : Prop where
  blank : isBlank c = false
  line : isBreak c = false
  indicator : c ∉ leading
  lone : c = '?' ∨ c = ':' ∨ c = '-' → atBoundary rest = false

theorem PlainStart.startsToken {c : Char} {rest : List Char} (h : PlainStart c rest) :
    StartsToken (c :: rest) := by
  intro d heq
  cases heq
  refine ⟨h.blank, h.line, ?_⟩
  intro heq
  subst heq
  exact absurd h.indicator (by decide)

/-- The reader takes a plain scalar there. -/
theorem next_plain {c : Char} {rest : List Char} (h : PlainStart c rest) {p : Cursor}
    {is : List Nat} {allow : Bool}
    (hm : p.column = 0 → atDocumentMark (c :: rest) = false) :
    (behind p is allow).next c rest = (behind p is allow).plainToken (c :: rest) := by
  have hmark : (p.column == 0 && atDocumentMark (c :: rest)) = false := by
    by_cases hp : p.column = 0
    · simp [hm hp]
    · simp [hp]
  have hne := h.indicator
  simp only [leading, List.mem_cons, List.not_mem_nil, or_false, not_or] at hne
  have hflow : (behind p is allow).inFlow = false := rfl
  have hcolumn : (behind p is allow).cursor.column = p.column := rfl
  have hlone : ∀ d, d = '?' ∨ d = ':' ∨ d = '-' → (decide (c = d) && atBoundary rest) = false := by
    intro d hd
    by_cases hc : c = d
    · simp [h.lone (hc ▸ hd)]
    · simp [hc]
  have hstart : (behind p is allow).startsPlain c rest = true := by
    have hlist : "-?:#&*!|>'\"%@\x60".toList =
        ['-', '?', ':', '#', '&', '*', '!', '|', '>', '\'', '"', '%', '@', '\x60'] := rfl
    by_cases hc : c = '?' ∨ c = ':' ∨ c = '-'
    · have := h.lone hc
      rcases hc with rfl | rfl | rfl <;> simp [startsPlain, hflow, this]
    · rw [not_or, not_or] at hc
      simp [startsPlain, h.blank, h.line, isIndicator, isFlowIndicator, hlist, hc, hne]
  unfold next
  simp only [hcolumn, hmark, hflow, hne, hstart, hlone '-' (by simp), hlone '?' (by simp),
    hlone ':' (by simp), Bool.false_or, Bool.not_false, Bool.and_true, decide_false, Bool.false_and,
    Bool.false_eq_true, if_false, if_true]

/-- A text that may stand plain is written from its first character on. -/
theorem plainStart_plainBody {cs : List Char} (h : allowsPlain cs = true) (hne : cs ≠ [])
    (column indent : Nat)
    (split : Bool) (ending : List Char) :
    ∃ c rest, plainBody column indent split cs ++ ending = c :: rest ∧ PlainStart c rest := by
  obtain ⟨c, ds, rfl⟩ := List.exists_cons_of_ne_nil hne
  have hwords := words_of_allowsPlain h hne
  obtain ⟨_, hspace, hline⟩ := hwords.head_ne
  have hc : isPlainChar c = true := (printed_cons.mp hwords.printed).1
  have hlead : leadingIndicator c ds = false := by
    simp only [allowsPlain, hasIndicator, Bool.and_eq_true, Bool.not_eq_true',
      Bool.or_eq_false_iff] at h
    exact h.2.1.2
  obtain ⟨hindicator, hlone⟩ := Bool.or_eq_false_iff.mp hlead
  have hbody : plainBody column indent split (c :: ds) =
      c :: foldedBody itself indent split (some c) (column + 1) ds := by
    rw [plainBody, foldedBody, if_neg hspace, if_neg hline]
    rfl
  refine ⟨c, _, by rw [hbody, List.cons_append], ?_, ?_, ?_, ?_⟩
  · simpa [isBlank_eq_of_isPlainChar hc] using hspace
  · simpa [isBreak_eq_of_isPlainChar hc] using hline
  · have hlist : "#,[]\x7b\x7d&*!|>'\"%@\x60".toList = leading := rfl
    rw [hlist] at hindicator
    simpa using hindicator
  · intro hc'
    have hboundary : boundary ds = false := by
      rcases hc' with rfl | rfl | rfl <;> simpa using hlone
    cases ds with
    | nil => exact absurd hboundary (by decide)
    | cons d es =>
        simp only [boundary, Bool.or_eq_false_iff] at hboundary
        obtain ⟨⟨_, hblank⟩, hbreak⟩ := hboundary
        have hds : d ≠ ' ' := by
          intro heq
          subst heq
          exact absurd hblank (by decide)
        have hdn : d ≠ '\n' := by
          intro heq
          subst heq
          exact absurd hbreak (by decide)
        rw [foldedBody, if_neg hds, if_neg hdn]
        simp [atBoundary, hblank, hbreak]

/-- The step of the reader at a plain scalar. -/
theorem next_plainBody {cs : List Char} (h : allowsPlain cs = true) (hne : cs ≠ []) (p : Cursor)
    (is : List Nat)
    (allow split : Bool) (column indent : Nat) {broken : Bool} {taken rest ending : List Char}
    (he : PlainEnd (behind p is allow).scalarColumn broken taken rest ending)
    (hi : split = true → 0 < indent ∧ (behind p is allow).scalarColumn ≤ indent)
    (hp : (behind p is allow).scalarColumn ≤ p.column + 1)
    (hm : p.column = 0 → atDocumentMark (plainBody column indent split cs ++ ending) = false) :
    ∃ c ds, plainBody column indent split cs ++ ending = c :: ds ∧ StartsToken (c :: ds) ∧
      (behind p is allow).next c ds =
        .ok (keyMarks p allow ++ [.token (.scalar cs true)],
          { cursor := p.past (plainBody column indent split cs ++
            taken), indents := is, allowKey := broken, pending := noted p is allow },
          rest) := by
  obtain ⟨c, ds, heq, hstart⟩ := plainStart_plainBody h hne column indent split ending
  have hread := plain_foldedBody hi he none column (words_of_allowsPlain h hne) p hp
    ((plainBody column indent split cs ++ ending).length + 1) (Nat.lt_succ_self _)
  refine ⟨c, ds, heq, hstart.startsToken, ?_⟩
  rw [heq] at hm
  rw [next_plain hstart hm, ← heq, plainToken, noteKey_behind, Outcome.ok_bind]
  simp only [plainBody] at hread ⊢
  have hflow :
    inFlow { cursor := p, indents := is, allowKey := allow, pending := noted p is allow } = false :=
    rfl
  have hcolumn :
    scalarColumn { cursor := p, indents := is, allowKey := allow, pending := noted p is allow } =
      (behind p is allow).scalarColumn := rfl
  simp only [hflow, hcolumn, hread]
  rfl

/-- A key that may have begun right of the innermost collection is ruled
out by the end of its line. -/
theorem noted_of_lt {p : Cursor} {i : Nat} (h : i < p.column) (is : List Nat) (allow : Bool) :
    ∀ k ∈ noted p (i :: is) allow, k.required = false ∧ k.line = p.line := by
  intro k hk
  cases allow with
  | false => simp [noted] at hk
  | true =>
      simp only [noted, if_true, Option.mem_some_iff] at hk
      subst hk
      have : i ≠ p.column := by omega
      simp [this]

/-- The marks of a scalar that no colon follows. -/
theorem spells_keyMarks {p : Cursor} {hi : Nat} (h : p.index < hi) (allow : Bool) (t : Token) :
    Mark.Spells p.index hi (keyMarks p allow ++ [.token t]) [t] := by
  cases allow with
  | false => exact Mark.Spells.token (Nat.le_of_lt h) t
  | true => exact Mark.Spells.maybeKey (Nat.le_refl _) h t

/-- A quote begins a token. -/
theorem startsToken_quote (double : Bool) (cs : List Char) :
    StartsToken (quoteMark double :: cs) := by
  intro c heq
  cases heq
  cases double <;> decide

/-- A plain scalar right of the innermost collection.  It takes the end of its line along. -/
theorem Reads.plainBody {s : List Char} (h : Fits .plain s) {p : Cursor} {i : Nat} (is : List Nat)
    (allow : Bool)
    (hp : i < p.column) (column : Nat) {k : Nat} (hk : k ≤ i) {tail : List Char}
    (ht : LineStart tail) :
    StartsToken (Scalar.plainBody column (i + 2) true s ++ '\n' :: (spaces k ++ tail)) ∧
      Reads (behind p (i :: is) allow)
        (Scalar.plainBody column (i + 2) true s ++ '\n' :: (spaces k ++ tail))
        [.scalar s true]
          (lineAt (p.past (Scalar.plainBody column (i + 2) true s ++ '\n' :: spaces k)) (i :: is))
        tail := by
  obtain ⟨hplain, hne⟩ := h.plain rfl
  obtain ⟨c, ds, heq, hstart, hnext⟩ :=
    next_plainBody hplain hne p (i :: is) allow true column (i + 2)
    (PlainEnd.line (Nat.lt_succ_of_le hk) ht)
    (fun _ => ⟨Nat.succ_pos _, Nat.le_succ _⟩) (Nat.le_succ_of_le hp)
      (fun h0 => absurd hp (by omega))
  rw [heq]
  refine ⟨hstart, ?_⟩
  have hlen : tail.length ≤ ds.length := by
    have := congrArg List.length heq
    simp at this
    have hpos : 0 < (Scalar.plainBody column (i + 2) true s).length := by
      obtain ⟨d, es, hd, _⟩ := plainStart_plainBody hplain hne column (i + 2) true []
      rw [List.append_nil] at hd
      rw [hd]
      exact Nat.succ_pos _
    omega
  have hindex :
      p.index < (p.past (Scalar.plainBody column (i + 2) true s ++ '\n' :: spaces k)).index := by
    rw [Cursor.index_past, List.length_append, List.length_cons]
    omega
  have hlead := Leads.token hstart (closeBlocks_of_le (Nat.le_of_lt hp) is) hnext hlen
  have hsettled := Reads.settled
    (s := { cursor := p.past (Scalar.plainBody column (i + 2) true s ++ '\n' :: spaces k)
            indents := i :: is, allowKey := true, pending := noted p (i :: is) allow })
    rfl (passOver_start false true _ ht.head) (fun q hq => ?_) ht.head (Nat.le_refl _)
      (Nat.le_refl _)
  · exact Reads.trans ⟨_, hlead, spells_keyMarks hindex allow _⟩ hsettled
  · obtain ⟨hrequired, hline⟩ := noted_of_lt hp is allow q hq
    refine ⟨hrequired, ?_⟩
    rw [hline, Cursor.past_append]
    exact Nat.lt_of_le_of_lt (Cursor.line_le_past p _) (Cursor.line_lt_past_newLine _ _)

/-- A scalar within quotes there.  The end of its line is read for itself. -/
theorem Reads.quotedBody {double : Bool} {bs s : List Char} {p : Cursor} {i : Nat} (is : List Nat)
    (allow : Bool)
    (hp : i < p.column) (k : Nat) {tail : List Char} (ht : LineStart tail)
    (hquotes : Quotes double ('\n' :: (spaces k ++ tail)) bs s) :
    StartsToken (quoteMark double :: bs ++ '\n' :: (spaces k ++ tail)) ∧
      Reads (behind p (i :: is) allow) (quoteMark double :: bs ++ '\n' :: (spaces k ++ tail))
        [.scalar s false]
        (lineAt (p.past (quoteMark double :: bs ++ '\n' :: spaces k)) (i :: is)) tail := by
  refine ⟨startsToken_quote _ _, ?_⟩
  have hnoted := noted_of_lt hp is allow
  have hindex : p.index < (p.past (quoteMark double :: bs)).index := by
    rw [Cursor.index_past, List.length_cons]
    omega
  have hlead := Leads.token (startsToken_quote _ _) (closeBlocks_of_le (Nat.le_of_lt hp) is)
    (next_quoted hquotes p (i :: is) allow) (by simp)
  have hline := Reads.newLine
    (s := { cursor := p.past (quoteMark double :: bs), indents := i :: is, allowKey := false,
            pending := noted p (i :: is) allow })
    rfl (fun q hq => ⟨(hnoted q hq).1, (hnoted q hq).2 ▸ Cursor.line_le_past p _⟩) ht.head (k := k)
  have := Reads.trans ⟨_, hlead, spells_keyMarks hindex allow _⟩ hline
  rw [Cursor.past_append]
  exact this

/-- A scalar right of the innermost collection, up to the start of the next line. -/
theorem Reads.body {st : Style} {s : List Char} (h : Fits st s) {p : Cursor} {i : Nat}
    (is : List Nat) (allow : Bool)
    (hp : i < p.column) {column : Nat} (hc : i + 1 ≤ column) {k : Nat} (hk : k ≤ i)
    {tail : List Char}
    (ht : LineStart tail) :
    StartsToken (Scalar.body st column (i + 2) true s ++ '\n' :: (spaces k ++ tail)) ∧
      Reads (behind p (i :: is) allow)
        (Scalar.body st column (i + 2) true s ++ '\n' :: (spaces k ++ tail))
        [.scalar (bodyText st (i + 2) true s) (st == .plain)]
        (lineAt (p.past (Scalar.body st column (i + 2) true s ++ '\n' :: spaces k)) (i :: is))
          tail := by
  by_cases hst : st = .plain
  · subst hst
    exact Reads.plainBody h is allow hp column hk ht
  · obtain ⟨bs, hbody, hquotes⟩ := quotes_body hst h column (Nat.succ_pos (i + 1)) (by omega) true
    have hplain : (st == .plain) = false := by simpa using hst
    rw [hbody, hplain]
    exact Reads.quotedBody is allow hp k ht (hquotes ('\n' :: (spaces k ++ tail)) (by simp))

/-- A scalar behind an indicator or a colon, up to the start of the next line. -/
theorem Reads.scalar {t : Tag} {s : List Char} (h : Node.ShowsTag t s) {p : Cursor} {i : Nat}
    {is : List Nat}
    {allow : Bool} (hp : i ≤ p.column) {column : Nat} (hc : i ≤ column) {k : Nat} (hk : k ≤ i)
    {tail : List Char} (ht : LineStart tail) :
    ReadsLine (behind p (i :: is) allow)
      (' ' :: (Node.scalarText [] (column + 1) (i + 2) false t s ++ (spaces k ++ tail)))
      [.scalar (Node.readText false (i + 2) t s) (Node.styleOf false t s == .plain)] k
        (i :: is) tail := by
  have hcolumn : i < (p.past [' ']).column := by
    rw [Cursor.past_char (by decide) (by decide)]
    exact Nat.lt_succ_of_le hp
  obtain ⟨hstart, hread⟩ := Reads.body (h.fits false) is allow hcolumn (Nat.succ_le_succ hc) hk ht
  have hspace := Reads.space p (i :: is) allow hstart
  rw [h.scalarText_eq, List.append_assoc]
  refine ⟨_, ?_, hspace.trans hread⟩
  rw [Cursor.past_append, Cursor.column_past_indent]

/-! ## Brackets -/

/-- The brackets of an empty collection. -/
def brackets : List (Char × Char × Token × Token) :=
  [('[', ']', .flowSequence, .flowSequenceEnd), ('\x7b', '\x7d', .flowMapping, .flowMappingEnd)]

/-- The state between the brackets of an empty collection. -/
def between (p : Cursor) (is : List Nat) (k : Option PendingKey) : Scan :=
  { cursor := p, indents := is, allowKey := true, outer := [k] }

/-- What such brackets are: printed characters that begin a token. -/
theorem of_mem_brackets {a b : Char} {t u : Token} (h : (a, b, t, u) ∈ brackets) (cs : List Char) :
    isPlainChar a = true ∧ isPlainChar b = true ∧ a ≠ '\n' ∧ StartsToken (a :: cs) ∧
      StartsToken (b :: cs) := by
  simp only [brackets, List.mem_cons, Prod.mk.injEq, List.not_mem_nil, or_false] at h
  rcases h with ⟨rfl, rfl, _⟩ | ⟨rfl, rfl, _⟩ <;>
    exact ⟨by decide, by decide, by decide, by rintro c ⟨⟩; decide, by rintro c ⟨⟩; decide⟩

/-- The step of the reader at an opening bracket. -/
theorem next_open {a b : Char} {t u : Token} (h : (a, b, t, u) ∈ brackets) (p : Cursor)
    (is : List Nat)
    (allow : Bool) (cs : List Char) :
    (behind p is allow).next a cs =
      .ok (keyMarks p allow ++ [.token t], between (p.past [a]) is (noted p is allow), cs) := by
  obtain ⟨hp, _, _, _, _⟩ := of_mem_brackets h cs
  have hopen : (behind p is allow).openBracket t (a :: cs) =
      .ok (keyMarks p allow ++ [.token t], between (p.past [a]) is (noted p is allow), cs) := by
    simp only [openBracket, noteKey_behind, Outcome.ok_bind, advance, skip, Cursor.step_eq_past hp]
    rfl
  rw [← hopen]
  simp only [Scan.brackets, List.mem_cons, Prod.mk.injEq, List.not_mem_nil, or_false] at h
  rcases h with ⟨rfl, rfl, rfl, rfl⟩ | ⟨rfl, rfl, rfl, rfl⟩ <;> simp [next, atDocumentMark]

/-- The step of the reader at a closing bracket. -/
theorem next_close {a b : Char} {t u : Token} (h : (a, b, t, u) ∈ brackets) (p : Cursor)
    (is : List Nat)
    (k : Option PendingKey) (cs : List Char) :
    (between p is k).next b cs =
      .ok ([.token u], { cursor := p.past [b], indents := is, allowKey := false, pending := k },
        cs) := by
  obtain ⟨_, hp, _, _, _⟩ := of_mem_brackets h cs
  have hclose : (between p is k).closeBracket u (b :: cs) =
      .ok ([.token u], { cursor := p.past [b], indents := is, allowKey := false, pending := k },
        cs) := by
    simp [closeBracket, giveUpKey, advance, skip, Cursor.step_eq_past hp, between]
  rw [← hclose]
  simp only [Scan.brackets, List.mem_cons, Prod.mk.injEq, List.not_mem_nil, or_false] at h
  rcases h with ⟨rfl, rfl, rfl, rfl⟩ | ⟨rfl, rfl, rfl, rfl⟩ <;> simp [next, atDocumentMark]

/-- A key that may have begun at a bracket is still pending behind it. -/
theorem settle_between {p : Cursor} {a : Char} (ha : isPlainChar a = true) (hn : a ≠ '\n')
    (is : List Nat)
    (allow : Bool) :
    settle (between (p.past [a]) is (noted p is allow)) =
      .ok ([], between (p.past [a]) is (noted p is allow)) := by
  have hline : (p.past [a]).line = p.line ∧ (p.past [a]).index = p.index + 1 := by
    rw [Cursor.past_char ha hn]
    exact ⟨rfl, rfl⟩
  have hstale : forgetStale (p.past [a]) (noted p is allow) = .ok (noted p is allow) := by
    cases allow with
    | false => rfl
    | true =>
        have : ¬p.index + maxKeyLength < p.index + 1 := by
          unfold maxKeyLength
          omega
        simp [noted, forgetStale, hline, this]
  have hnone : forgetStale (p.past [a]) none = .ok none := rfl
  simp [settle, between, hnone, hstale, inFlow]

/-- An empty collection behind an indicator or a colon, up to the start of the next line. -/
theorem Reads.brackets {a b : Char} {t u : Token} (h : (a, b, t, u) ∈ brackets) {p : Cursor}
    {i : Nat}
    {is : List Nat} {allow : Bool} (hp : i ≤ p.column) {k : Nat} {tail : List Char}
    (ht : LineStart tail) :
    ReadsLine (behind p (i :: is) allow) (' ' :: a :: b :: '\n' :: (spaces k ++ tail)) [t, u] k
      (i :: is) tail := by
  obtain ⟨ha, hb, hn, hstart, _⟩ := of_mem_brackets h (b :: '\n' :: (spaces k ++ tail))
  obtain ⟨_, _, _, _, hstart'⟩ := of_mem_brackets h ('\n' :: (spaces k ++ tail))
  have hcolumn : i < (p.past [' ']).column := by
    rw [Cursor.past_char (by decide) (by decide)]
    exact Nat.lt_succ_of_le hp
  have hspace := Reads.space p (i :: is) allow hstart
  generalize p.past [' '] = q at hcolumn hspace
  have hone := Leads.token hstart (closeBlocks_of_le (Nat.le_of_lt hcolumn) is)
    (next_open h q (i :: is) allow (b :: '\n' :: (spaces k ++ tail))) (Nat.le_refl _)
  have htwo := Leads.next (s := between (q.past [a]) (i :: is) (noted q (i :: is) allow))
    (passOver_start _ _ _ hstart') (settle_between ha hn (i :: is) allow)
    (next_close h (q.past [a]) (i :: is) _ ('\n' :: (spaces k ++ tail))) (Nat.lt_succ_self _)
  have hline := Reads.newLine
    (s := { cursor := (q.past [a]).past [b], indents := i :: is, allowKey := false,
            pending := noted q (i :: is) allow })
    rfl (fun r hr => ?_) ht.head (k := k)
  · have hindex : q.index < (q.past [a]).index ∧
        (q.past [a]).index ≤ ((q.past [a]).past [b]).index := by
      simp only [Cursor.index_past, List.length_singleton]
      omega
    have hmarks := (spells_keyMarks hindex.1 allow t).append (Mark.Spells.token hindex.2 u)
    exact ⟨_, Cursor.column_past_indent _ _,
      hspace.trans (Reads.trans ⟨_, hone.trans htwo, hmarks⟩ hline)⟩
  · obtain ⟨hrequired, hrl⟩ := noted_of_lt hcolumn is allow r hr
    refine ⟨hrequired, ?_⟩
    rw [hrl]
    exact Nat.le_trans (Cursor.line_le_past q _) (Cursor.line_le_past _ _)

/-! ## Keys before their colon -/

/-- The state behind a key, in front of its colon. -/
def behindKey (p q : Cursor) (is : List Nat) : Scan :=
  { cursor := q, indents := is, allowKey := false, pending := noted p is true }

/-- The step of the reader at the colon behind a key. -/
theorem next_colon {p q : Cursor} {is js : List Nat} {ts : List Token}
    (he : Enters p.column .blockMapping is ts js)
    {after : List Char} (ha : atBoundary after = true) :
    ∃ opens, (behindKey p q is).next ':' after =
      .ok ([.colon p.index opens], behind (q.past [':']) js false, after) ∧
      ts = if opens then [.blockMapping] else [] := by
  have hvalue : (behindKey p q is).next ':' after =
      (behindKey p q is).valueToken (':' :: after) := by
    simp [next, atDocumentMark, ha]
  have hadvance : ∀ k, skip 1 k (':' :: after) = (k.past [':'], after) := fun k => by
    simp [skip, Cursor.step_eq_past (c := ':') (by decide)]
  cases he with
  | level is =>
      refine ⟨false, ?_, rfl⟩
      rw [hvalue]
      simp [valueToken, behindKey, noted, inFlow, isDeeper, advance, hadvance, behind]
  | opens h =>
      refine ⟨true, ?_, rfl⟩
      rw [hvalue]
      cases is with
      | nil =>
          simp [valueToken, behindKey, noted, inFlow, isDeeper, advance, hadvance, behind]
      | cons i is =>
          simp [valueToken, behindKey, noted, inFlow, isDeeper, advance, hadvance, behind, h i rfl]

/-- A key on one line is still pending at its colon. -/
theorem settle_behindKey {p q : Cursor} {is js : List Nat} {ts : List Token}
    (he : Enters p.column .blockMapping is ts js) (hl : q.line = p.line)
    (hi : q.index ≤ p.index + maxKeyLength)
    (hc : p.column ≤ q.column) : settle (behindKey p q is) = .ok ([], behindKey p q is) := by
  have hstale : forgetStale q (noted p is true) = .ok (noted p is true) := by
    have : ¬p.index + maxKeyLength < q.index := by omega
    simp [noted, forgetStale, hl, this]
  have hclose : Scan.closeBlocks q.column is = ([], is) := by
    cases he with
    | level is => exact closeBlocks_of_le hc is
    | opens h =>
        cases is with
        | nil => rfl
        | cons i is => exact closeBlocks_of_le (Nat.le_trans (Nat.le_of_lt (h i rfl)) hc) is
  simp [settle, behindKey, hstale, hclose, inFlow]

/-- A key that may stand plain is no mark between documents. -/
theorem atDocumentMark_key {s : List Char} (h : allowsPlain s = true) (hne : s ≠ [])
    (after : List Char) :
    atDocumentMark (s ++ ':' :: after) = false := by
  obtain ⟨c, ds, rfl⟩ := List.exists_cons_of_ne_nil hne
  have hmark : isDocumentMark (c :: ds) = false := by
    simp only [allowsPlain, hasIndicator, Bool.and_eq_true, Bool.not_eq_true',
      Bool.or_eq_false_iff] at h
    exact h.2.1.1
  cases ds with
  | nil => simp [atDocumentMark]
  | cons d ds =>
      cases ds with
      | nil => simp [atDocumentMark]
      | cons e es =>
          have hmark : ([c, d, e] == ['-', '-', '-'] || [c, d, e] == ['.', '.', '.']) = false :=
            hmark
          simp only [atDocumentMark, List.cons_append, List.take_succ_cons, List.take_zero, hmark,
            Bool.false_and]

/-- Where a key may stand, a plain scalar may. -/
theorem Enters.scalarColumn_le {p : Cursor} {o : Token} {is js : List Nat} {ts : List Token}
    (he : Enters p.column o is ts js) : (lineAt p is).scalarColumn ≤ p.column + 1 := by
  cases he with
  | level is => exact Nat.le_refl _
  | opens h =>
      cases is with
      | nil => exact Nat.zero_le _
      | cons i is => exact Nat.le_of_lt (Nat.succ_lt_succ (h i rfl))

/-- A plain text at the start of a line is read up to the colon behind it. -/
theorem leads_plainKey {s : List Char} (hplain : allowsPlain s = true) (hne : s ≠ [])
    (hn : '\n' ∉ s) {p : Cursor}
    {is js : List Nat} {ts : List Token} (he : Enters p.column .blockMapping is ts js)
    {after : List Char}
    (ha : atBoundary after = true) :
    LineStart (Scalar.body .plain 0 0 false s ++ ':' :: after) ∧
      Leads (lineAt p is) (Scalar.body .plain 0 0 false s ++ ':' :: after)
        [.maybeKey p.index, .token (.scalar s true)]
          (behindKey p (p.past (Scalar.body .plain 0 0 false s)) is)
        (':' :: after) := by
  have hbody : plainBody 0 0 false s = s := by
    rw [plainBody, foldedBody_of_line rfl _ _ _ hn]
    exact List.flatMap_singleton' s
  have hmark := atDocumentMark_key hplain hne after
  obtain ⟨c, ds, heq, hstart, hnext⟩ := next_plainBody hplain hne p is true false 0 0
    (PlainEnd.colon (lineAt p is).scalarColumn ha) (by simp) he.scalarColumn_le
      (fun _ => by rw [hbody]; exact hmark)
  have hlen : (':' :: after).length ≤ ds.length := by
    have := congrArg List.length heq
    have hpos := List.length_pos_iff.mpr hne
    rw [hbody] at this
    simp only [List.length_append, List.length_cons] at this ⊢
    omega
  rw [List.append_nil] at hnext
  rw [Scalar.body, heq]
  refine ⟨⟨hstart, ?_⟩, Leads.token hstart he.closeBlocks hnext hlen⟩
  rw [← heq, hbody]
  exact hmark

/-- So is a quoted one. -/
theorem leads_quotedKey {st : Style} (hst : st ≠ .plain) {s : List Char} (h : Fits st s)
    (hs : st = .double ∨ '\n' ∉ s)
    {p : Cursor} {is js : List Nat} {ts : List Token} (he : Enters p.column .blockMapping is ts js)
    (after : List Char) :
    LineStart (Scalar.body st 0 0 false s ++ ':' :: after) ∧
      Leads (lineAt p is) (Scalar.body st 0 0 false s ++ ':' :: after)
        [.maybeKey p.index, .token (.scalar s (st == .plain))]
          (behindKey p (p.past (Scalar.body st 0 0 false s)) is)
        (':' :: after) := by
  obtain ⟨_, _, hindent⟩ := body_of_line hs 0 0
  obtain ⟨bs, hbody, hquotes⟩ := quotes_body hst h 0 Nat.one_pos (by omega) false
  have htext : bodyText st 1 false s = s := by
    cases st with
    | double => exact reread_of_not_split 1 true s
    | plain => rfl
    | single => rfl
  have hplain : (st == .plain) = false := by simpa using hst
  have hnext := next_quoted (hquotes (':' :: after) (by simp)) p is true
  rw [htext] at hnext
  rw [hindent 1, hbody, hplain]
  exact ⟨⟨startsToken_quote _ _, atDocumentMark_quote _ _⟩,
    Leads.token (startsToken_quote _ _) he.closeBlocks hnext (by simp)⟩

/-- A key at the start of a line is read up to the colon behind it, in either case. -/
theorem leads_key {st : Style} {s : List Char} (h : Fits st s) (hs : st = .double ∨ '\n' ∉ s)
    {p : Cursor}
    {is js : List Nat} {ts : List Token} (he : Enters p.column .blockMapping is ts js)
    {after : List Char}
    (ha : atBoundary after = true) :
    LineStart (Scalar.body st 0 0 false s ++ ':' :: after) ∧
      Leads (lineAt p is) (Scalar.body st 0 0 false s ++ ':' :: after)
        [.maybeKey p.index, .token (.scalar s (st == .plain))]
        (behindKey p (p.past (Scalar.body st 0 0 false s)) is) (':' :: after) := by
  by_cases hst : st = .plain
  · subst hst
    obtain ⟨hplain, hne⟩ := h.plain rfl
    exact leads_plainKey hplain hne (hs.resolve_left (by decide)) he ha
  · exact leads_quotedKey hst h hs he after

theorem startsToken_colon (after : List Char) : StartsToken (':' :: after) := by
  intro c heq
  cases heq
  decide

/-- **A key and its colon.** -/
theorem Reads.simpleKey {st : Style} {s : List Char} (h : Fits st s) (hs : st = .double ∨ '\n' ∉ s)
    (hl : (Scalar.body st 0 0 false s).length ≤ maxKeyLength) {p : Cursor} {is js : List Nat}
    {ts : List Token}
    (he : Enters p.column .blockMapping is ts js) {after : List Char}
    (ha : atBoundary after = true) :
    LineStart (Scalar.body st 0 0 false s ++ ':' :: after) ∧
      p.column < (p.past (Scalar.body st 0 0 false s ++ [':'])).column ∧
      Reads (lineAt p is) (Scalar.body st 0 0 false s ++ ':' :: after)
        (ts ++ [.key, .scalar s (st == .plain), .value])
        (behind (p.past (Scalar.body st 0 0 false s ++ [':'])) js false) after := by
  obtain ⟨hline, _⟩ := body_of_line hs 0 0
  obtain ⟨hql, hqc⟩ := Cursor.past_of_line (printed_body h 0 0 false) hline p
  have hqi := Cursor.index_past p (Scalar.body st 0 0 false s)
  have hstart := leads_key h hs he ha
  obtain ⟨opens, hnext, rfl⟩ := next_colon (q := p.past (Scalar.body st 0 0 false s)) he ha
  have hsettle := settle_behindKey he hql (by omega) (by omega)
  have hlast := Leads.next (s := behindKey p (p.past (Scalar.body st 0 0 false s)) is)
    (passOver_start _ _ _ (startsToken_colon after))
    hsettle hnext (Nat.lt_succ_self _)
  rw [Cursor.past_append]
  refine ⟨hstart.1, ?_, _, hstart.2.trans hlast, ?_⟩
  · rw [Cursor.past_char (by decide) (by decide)]
    exact Nat.lt_succ_of_le (by omega)
  refine Mark.Spells.key ?_ opens _
  simp only [behind, Cursor.index_past, List.length_singleton]
  omega

end Scan

end RegistryBundle.Yaml
