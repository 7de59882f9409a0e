import RegistryBundle.Proofs.Yaml.Tokens

/-!
# The tokens of a layout

A node without tags and anchors is laid out so that the reader finds its tokens again.

* `Node.Bare` are the nodes that need neither a tag nor an anchor;
* `Node.tokens` are the tokens of a node, `Node.itemTokens` and
  `Node.entryTokens` those of its parts;
* `Node.reads_layout`, `Node.reads_items`, `Node.reads_entries` go along the
  layout, one line at a time;
* `Node.tokens_page`: the tokens of a page.
-/

namespace RegistryBundle.Yaml.Node

open Chars Scalar Scan

/-! ## Nodes without tags and anchors -/

/-- A text as a key; if it stands before its colon, it is not too long to be read. -/
def BareKey : Node → Prop
  | .scalar t s => t = .str ∧
      (isSimpleKey 0 (.scalar t s) = true → (keyText [] (.scalar t s)).length ≤ Scan.maxKeyLength)
  | _ => False

mutual

/-- A node that is written without tags and anchors, its keys texts. -/
def Bare : Node → Prop
  | .scalar t s => ShowsTag t s
  | .sequence t items => t = .seq ∧ BareItems items
  | .mapping t entries => t = .map ∧ BareEntries entries
  | .anchored .. => False
  | .reference _ => False

/-- The same of every item. -/
def BareItems : List Node → Prop
  | [] => True
  | n :: rest => Bare n ∧ BareItems rest

/-- The same of every entry. -/
def BareEntries : List (Node × Node) → Prop
  | [] => True
  | (k, v) :: rest => BareKey k ∧ Bare v ∧ BareEntries rest

end

/-- The token of a key before its colon. -/
def keyToken : Node → Token
  | .scalar t s => .scalar s (styleOf true t s == .plain)
  | _ => .key

mutual

/-- The tokens of a node behind an indicator or a colon of the collection at `indent`. -/
def tokens (place : Place) (indent : Nat) : Node → List Token
  | .scalar t s => [.scalar (readText false (indent + 2) t s) (styleOf false t s == .plain)]
  | .sequence _ [] => [.flowSequence, .flowSequenceEnd]
  | .mapping _ [] => [.flowMapping, .flowMappingEnd]
  | .sequence _ items =>
    if place == .value then itemTokens indent items
    else .blockSequence :: (itemTokens (indent + 2) items ++ [.blockEnd])
  | .mapping _ entries => .blockMapping :: (entryTokens (indent + 2) entries ++ [.blockEnd])
  | .anchored .. => []
  | .reference _ => []

/-- The tokens of items. -/
def itemTokens (indent : Nat) : List Node → List Token
  | [] => []
  | n :: rest => .entry :: (tokens .item indent n ++ itemTokens indent rest)

/-- The tokens of entries. -/
def entryTokens (indent : Nat) : List (Node × Node) → List Token
  | [] => []
  | (k, v) :: rest =>
    (if isSimpleKey 0 k then .key :: keyToken k :: .value :: tokens .value indent v
      else .key :: (tokens .part indent k ++ .value :: tokens .part indent v)) ++
        entryTokens indent rest

end

theorem tokens_sequence (place : Place) (indent : Nat) (t : Tag) (n : Node) (rest : List Node) :
    tokens place indent (.sequence t (n :: rest)) =
      if place = .value then itemTokens indent (n :: rest)
      else .blockSequence :: (itemTokens (indent + 2) (n :: rest) ++ [.blockEnd]) := by
  cases place <;> simp [tokens]

theorem tokens_mapping (place : Place) (indent : Nat) (t : Tag) (e : Node × Node)
    (rest : List (Node × Node)) :
    tokens place indent (.mapping t (e :: rest)) =
      .blockMapping :: (entryTokens (indent + 2) (e :: rest) ++ [.blockEnd]) := by
  simp [tokens]

/-! ## Layouts -/

/-- A sequence with items: two columns deeper, or at the column of its key. -/
theorem layout_sequence (place : Place) (indent column : Nat) (n : Node) (rest : List Node) :
    layout place indent column [] (.sequence .seq (n :: rest)) =
      if place = .value then '\n' :: (spaces indent ++ layoutItems indent (n :: rest))
      else ' ' :: layoutItems (indent + 2) (n :: rest) := by
  cases place <;> simp [layout, collectionTag]

/-- A mapping with entries: two columns deeper. -/
theorem layout_mapping (place : Place) (indent column : Nat) (e : Node × Node)
    (rest : List (Node × Node)) :
    layout place indent column [] (.mapping .map (e :: rest)) =
      if place = .value then '\n' :: (spaces (indent + 2) ++ layoutEntries (indent + 2) (e :: rest))
      else ' ' :: layoutEntries (indent + 2) (e :: rest) := by
  cases place <;> simp [layout, collectionTag]

/-- Empty collections are brackets. -/
theorem layout_nil (place : Place) (indent column : Nat) :
    layout place indent column [] (.sequence .seq []) = ' ' :: '[' :: ']' :: ['\n'] ∧
      layout place indent column [] (.mapping .map []) = ' ' :: '\x7b' :: '\x7d' :: ['\n'] := by
  simp [layout, collectionTag, propertyText]

/-- Behind an item's hyphen or an indicator alone on its line comes a space. -/
theorem exists_layout_part {n : Node} (h : Bare n) {place : Place} (hp : place ≠ .value)
    (indent column : Nat) :
    ∃ cs, layout place indent column [] n = ' ' :: cs := by
  cases n with
  | scalar t s => exact ⟨_, by rw [layout]⟩
  | broken hletters => exact absurd hletters Alphabet.characters_ne_letters
  | sequence t items =>
      obtain ⟨rfl, _⟩ := h
      cases items with
      | nil => exact ⟨_, (layout_nil place indent column).1⟩
      | cons n rest => exact ⟨_, by rw [layout_sequence, if_neg hp]⟩
  | mapping t entries =>
      obtain ⟨rfl, _⟩ := h
      cases entries with
      | nil => exact ⟨_, (layout_nil place indent column).2⟩
      | cons e rest => exact ⟨_, by rw [layout_mapping, if_neg hp]⟩
  | anchored l n => exact h.elim
  | reference l => exact h.elim

/-- Behind a colon comes a space or the end of the line. -/
theorem atBoundary_layout {n : Node} (h : Bare n) (place : Place) (indent column : Nat)
    (cs : List Char) :
    atBoundary (layout place indent column [] n ++ cs) = true := by
  by_cases hp : place = .value
  · subst hp
    cases n with
    | scalar t s => simp [layout, atBoundary, isBlank]
    | broken hletters => exact absurd hletters Alphabet.characters_ne_letters
    | sequence t items =>
        obtain ⟨rfl, _⟩ := h
        cases items with
        | nil => simp [layout_nil, atBoundary, isBlank]
        | cons n rest => simp [layout_sequence, atBoundary, isBreak]
    | mapping t entries =>
        obtain ⟨rfl, _⟩ := h
        cases entries with
        | nil => simp [layout_nil, atBoundary, isBlank]
        | cons e rest => simp [layout_mapping, atBoundary, isBreak]
    | anchored l n => exact h.elim
    | reference l => exact h.elim
  · obtain ⟨ds, hds⟩ := exists_layout_part h hp indent column
    simp [hds, atBoundary, isBlank]

/-- A line begins with an indicator in front of a space. -/
theorem lineStart_indicator {c : Char} {o t : Token} (h : (c, o, t) ∈ indicators) (cs : List Char) :
    LineStart (c :: ' ' :: cs) :=
  ⟨startsToken_indicator h _, by simp [Lexeme.atDocumentMark]⟩

/-- An item begins a line. -/
theorem lineStart_items {n : Node} (h : Bare n) (indent : Nat) (rest : List Node) (cs : List Char) :
    LineStart (layoutItems indent (n :: rest) ++ cs) := by
  obtain ⟨ds, hds⟩ := exists_layout_part h (show Place.item ≠ .value by decide) indent (indent + 1)
  rw [layoutItems, hds]
  exact lineStart_indicator (o := .blockSequence) (t := .entry) (by decide) _

/-- The text of a key before its colon. -/
theorem keyText_eq (s : List Char) :
    keyText [] (.scalar .str s) = Scalar.body (styleOf true .str s) 0 0 false s := by
  have h : ShowsTag .str s := .inl rfl
  rw [keyText, h.scalarText_eq, Bool.not_true, List.dropLast_concat]

/-- **A key before its colon.** -/
theorem reads_key {s : List Char} (h : BareKey (.scalar .str s))
    (hs : isSimpleKey 0 (.scalar .str s) = true)
    {p : Cursor} {is js : List Nat} {ts : List Token} (he : Enters p.column .blockMapping is ts js)
    {after : List Char} (ha : atBoundary after = true) :
    LineStart (keyText [] (.scalar .str s) ++ ':' :: after) ∧
      p.column < (p.past (keyText [] (.scalar .str s) ++ [':'])).column ∧
      Reads (lineAt p is) (keyText [] (.scalar .str s) ++ ':' :: after)
        (ts ++ [.key, keyToken (.scalar .str s), .value])
        (behind (p.past (keyText [] (.scalar .str s) ++ [':'])) js false) after := by
  have hline : '\n' ∉ s := by
    simp only [isSimpleKey, Bool.and_eq_true, Bool.not_eq_true'] at hs
    intro hm
    exact List.any_eq_false.mp hs.2 '\n' hm rfl
  have hfits : Fits (styleOf true .str s) s := ShowsTag.fits (t := .str) (.inl rfl) true
  have hlen := h.2 hs
  rw [keyText_eq] at hlen ⊢
  exact Reads.simpleKey hfits (.inr hline) hlen he ha

/-- An entry begins a line. -/
theorem lineStart_entries {k v : Node} (hk : BareKey k) (hv : Bare v) (indent : Nat)
    (rest : List (Node × Node))
    (cs : List Char) : LineStart (layoutEntries indent ((k, v) :: rest) ++ cs) := by
  cases k with
  | scalar t s =>
      obtain ⟨rfl, hlen⟩ := hk
      rw [layoutEntries]
      split
      · next hsimple =>
          have he : Enters ({} : Cursor).column .blockMapping [] [.blockMapping] [0] :=
            .opens (by simp)
          have hb := atBoundary_layout hv .value indent
            (indent + (keyText [] (.scalar .str s)).length + 1)
            ((if rest.isEmpty then [] else spaces indent ++ layoutEntries indent rest) ++ cs)
          simpa using (reads_key ⟨rfl, hlen⟩ hsimple he hb).1
      · next hsimple =>
          have hs : Bare (.scalar .str s) := .inl rfl
          obtain ⟨ds, hds⟩ := exists_layout_part hs (show Place.part ≠ .value by decide) indent
            (indent + 1)
          rw [hds]
          exact lineStart_indicator (o := .blockMapping) (t := .key) (by decide) _
  | broken hletters => exact absurd hletters Alphabet.characters_ne_letters
  | sequence t items => exact hk.elim
  | mapping t entries => exact hk.elim
  | anchored l n => exact hk.elim
  | reference l => exact hk.elim

/-! ## Reading a layout -/

/-- The layout of a node is read as its tokens, from behind the indicator or the colon in front of
it up to the start of a line that belongs to its collection or to one around that. -/
def ReadsNode (n : Node) : Prop :=
  ∀ (place : Place) (i column k : Nat) (p : Cursor) (is : List Nat) (allow : Bool)
    (tail : List Char), i ≤ p.column → i ≤ column →
    (place ≠ .value → p.column = i + 1 ∧ allow = true) → k ≤ i → LineStart tail →
    ReadsLine (behind p (i :: is) allow) (layout place i column [] n ++ (spaces k ++ tail))
    (tokens place i n) k
      (i :: is) tail

/-- The layout of items is read as their tokens, from the first hyphen on. -/
def ReadsItems (items : List Node) : Prop :=
  ∀ (k : Nat) (p : Cursor) (is js : List Nat) (ts : List Token) (tail : List Char),
    Enters p.column .blockSequence is ts js → k ≤ p.column → LineStart tail →
    ReadsLine (lineAt p is) (layoutItems p.column items ++ (spaces k ++ tail))
      (ts ++ itemTokens p.column items) k js
      tail

/-- The layout of entries is read as their tokens, from the first key on. -/
def ReadsEntries (entries : List (Node × Node)) : Prop :=
  ∀ (k : Nat) (p : Cursor) (is js : List Nat) (ts : List Token) (tail : List Char),
    Enters p.column .blockMapping is ts js → k ≤ p.column → LineStart tail →
    ReadsLine (lineAt p is) (layoutEntries p.column entries ++ (spaces k ++ tail))
      (ts ++ entryTokens p.column entries) k js tail

/-- A collection that a line ends which begins left of it. -/
theorem ReadsLine.close {s : Scan} {cs tail : List Char} {ts : List Token} {j k : Nat}
    {is : List Nat}
    (h : ReadsLine s cs ts k (j :: is) tail) (hk : k < j) (ht : LineStart tail) :
    ReadsLine s cs (ts ++ [.blockEnd]) k is tail := by
  obtain ⟨q, rfl, hr⟩ := h
  exact ⟨q, rfl, hr.trans (Reads.close hk ht.head)⟩

theorem ReadsNode.scalar {t : Tag} {s : List Char} (h : ShowsTag t s) :
    ReadsNode (.scalar t s) := by
  intro place i column k p is allow tail hp hc _ hk ht
  rw [layout, tokens, List.cons_append]
  exact Reads.scalar h hp hc hk ht

theorem ReadsNode.nil : ReadsNode (.sequence .seq []) ∧ ReadsNode (.mapping .map []) := by
  constructor
  · intro place i column k p is allow tail hp _ _ _ ht
    rw [(layout_nil place i column).1, tokens]
    exact Reads.brackets (by decide) hp ht
  · intro place i column k p is allow tail hp _ _ _ ht
    rw [(layout_nil place i column).2, tokens]
    exact Reads.brackets (by decide) hp ht

/-- A sequence with items. -/
theorem ReadsNode.sequence {n : Node} {rest : List Node} (hn : Bare n)
    (h : ReadsItems (n :: rest)) :
    ReadsNode (.sequence .seq (n :: rest)) := by
  intro place i column k p is allow tail hp hc ha hk ht
  have hstart := fun j => (lineStart_items hn j rest (spaces k ++ tail)).head
  rw [layout_sequence, tokens_sequence]
  by_cases hplace : place = .value
  · -- The items stand at the column of the key, in its mapping.
    subst hplace
    have hcol := Cursor.column_past_indent p i
    have hline := Reads.newLine (s := behind p (i :: is) allow) rfl (by simp [behind]) (k := i)
      (hstart i)
    have he : Enters (p.past ('\n' :: spaces i)).column .blockSequence (i :: is) [] (i :: is) := by
      rw [hcol]
      exact .level is
    have hitems := h k (p.past ('\n' :: spaces i)) (i :: is) (i :: is) [] tail he (by omega) ht
    rw [hcol] at hitems
    simpa using hline.line hitems
  · obtain ⟨hcolumn, rfl⟩ := ha hplace
    have hcol : (p.past [' ']).column = i + 2 := by
      rw [Cursor.past_char (by decide) (by decide)]
      exact congrArg (· + 1) hcolumn
    have hspace := Reads.space p (i :: is) true (hstart (i + 2))
    have he : Enters (p.past [' ']).column .blockSequence (i :: is) [.blockSequence]
        ((i + 2) :: i :: is) := by
      rw [hcol]
      exact .opens (by simp)
    have hitems := h k (p.past [' ']) (i :: is) ((i + 2) :: i :: is) [.blockSequence] tail he
      (by omega) ht
    rw [hcol] at hitems
    have := ReadsLine.close (hspace.line hitems) (by omega) ht
    simpa [hplace] using this

/-- A mapping with entries. -/
theorem ReadsNode.mapping {k v : Node} {rest : List (Node × Node)} (hk : BareKey k) (hv : Bare v)
    (h : ReadsEntries ((k, v) :: rest)) : ReadsNode (.mapping .map ((k, v) :: rest)) := by
  intro place i column j p is allow tail hp hc ha hj ht
  have hstart := (lineStart_entries hk hv (i + 2) rest (spaces j ++ tail)).head
  -- Wherever the mapping stands, its entries begin two columns deeper.
  obtain ⟨q, c, hq, hreads, hlayout⟩ : ∃ (q : Cursor) (c : List Char), q.column = i + 2 ∧
      Reads (behind p (i :: is) allow)
        (c ++ (layoutEntries (i + 2) ((k, v) :: rest) ++ (spaces j ++ tail))) []
        (lineAt q (i :: is)) (layoutEntries (i + 2) ((k, v) :: rest) ++ (spaces j ++ tail)) ∧
      layout place i column [] (.mapping .map ((k, v) :: rest)) =
        c ++ layoutEntries (i + 2) ((k, v) :: rest) := by
    by_cases hplace : place = .value
    · refine ⟨p.past ('\n' :: spaces (i + 2)), '\n' :: spaces (i + 2),
        Cursor.column_past_indent _ _, ?_, ?_⟩
      · exact Reads.newLine (s := behind p (i :: is) allow) rfl (by simp [behind]) hstart
      · rw [layout_mapping, if_pos hplace, List.cons_append]
    · obtain ⟨hcolumn, rfl⟩ := ha hplace
      refine ⟨p.past [' '], [' '], ?_, Reads.space _ _ _ hstart, ?_⟩
      · rw [Cursor.past_char (by decide) (by decide)]
        exact congrArg (· + 1) hcolumn
      · rw [layout_mapping, if_neg hplace, List.singleton_append]
  have he : Enters q.column .blockMapping (i :: is) [.blockMapping] ((i + 2) :: i :: is) := by
    rw [hq]
    exact .opens (by simp)
  have hentries := h j q (i :: is) ((i + 2) :: i :: is) [.blockMapping] tail he (by omega) ht
  rw [hq] at hentries
  have := ReadsLine.close (hreads.line hentries) (by omega) ht
  rw [hlayout, tokens_mapping]
  simpa using this

/-- An item and those behind it. -/
theorem ReadsItems.cons {n : Node} {rest : List Node} (hn : Bare n) (h : ReadsNode n)
    (hrest : BareItems rest ∧ (rest ≠ [] → ReadsItems rest)) : ReadsItems (n :: rest) := by
  intro k p is js ts tail he hk ht
  obtain ⟨os, rfl⟩ := he.exists_eq
  have hcol : (p.past ['-']).column = p.column + 1 := by
    rw [Cursor.past_char (by decide) (by decide)]
  obtain ⟨ds, hds⟩ := exists_layout_part hn (show Place.item ≠ .value by decide) p.column
    (p.column + 1)
  have hhyphen := fun cs => Reads.indicator (c := '-') (t := .entry) (by decide) he (ds ++ cs)
  have hnode := fun k => h .item p.column (p.column + 1) k (p.past ['-']) os true
  rw [hds] at hnode
  rw [layoutItems, itemTokens, hds]
  cases rest with
  | nil =>
      have := (hhyphen _).line (hnode k tail (by omega) (by omega) (fun _ => ⟨hcol, rfl⟩) hk ht)
      simpa [itemTokens] using this
  | cons m rest =>
      have hstart := lineStart_items hrest.1.1 p.column rest (spaces k ++ tail)
      obtain ⟨q, hq, hr⟩ := hnode p.column _ (by omega) (by omega) (fun _ => ⟨hcol, rfl⟩)
        (Nat.le_refl _) hstart
      have hlater := hrest.2 (by simp) k q (p.column :: os) (p.column :: os) [] tail
      rw [hq] at hlater
      have := ((hhyphen _).trans hr).line (hlater (.level os) hk ht)
      simpa using this

/-- The first of several entries stands in front of the others as it would stand alone. -/
private theorem layoutEntries_cons (indent : Nat) (e : Node × Node) (rest : List (Node × Node)) :
    layoutEntries indent (e :: rest) =
      layoutEntries indent [e] ++ if rest.isEmpty then [] else spaces indent ++
        layoutEntries indent rest := by
  rw [layoutEntries, layoutEntries, List.isEmpty_nil, if_pos rfl, List.append_nil]

private theorem entryTokens_cons (indent : Nat) (e : Node × Node) (rest : List (Node × Node)) :
    entryTokens indent (e :: rest) = entryTokens indent [e] ++ entryTokens indent rest := by
  rw [entryTokens, entryTokens, entryTokens, List.append_nil]

/-- An entry whose key stands before a colon. -/
theorem ReadsEntries.simple {s : List Char} {v : Node} (hk : BareKey (.scalar .str s))
    (hs : isSimpleKey 0 (.scalar .str s) = true) (hv : Bare v) (hrv : ReadsNode v) :
    ReadsEntries [(.scalar .str s, v)] := by
  intro j p is js ts tail he hj ht
  obtain ⟨os, rfl⟩ := he.exists_eq
  have hb := atBoundary_layout hv .value p.column
    (p.column + (keyText [] (.scalar .str s)).length + 1)
    (spaces j ++ tail)
  obtain ⟨_, hcolumn, hkey⟩ := reads_key hk hs he hb
  have hvalue := hrv .value p.column (p.column + (keyText [] (.scalar .str s)).length + 1) j _ os
    false tail
    (Nat.le_of_lt hcolumn) (by omega) (by simp) hj ht
  rw [layoutEntries, entryTokens, if_pos hs, if_pos hs]
  simpa [entryTokens] using hkey.line hvalue

/-- An entry whose key stands behind a question mark, and the value on a line of its own. -/
theorem ReadsEntries.explicit {s : List Char} {v : Node}
    (hs : isSimpleKey 0 (.scalar .str s) = false) (hv : Bare v)
    (hrv : ReadsNode v) : ReadsEntries [(.scalar .str s, v)] := by
  intro j p is js ts tail he hj ht
  obtain ⟨os, rfl⟩ := he.exists_eq
  have hcol : ∀ c, isPlainChar c = true → c ≠ '\n' →
      ∀ q : Cursor, (q.past [c]).column = q.column + 1 :=
    fun c hp hn q => by rw [Cursor.past_char hp hn]
  have hkey : Bare (.scalar .str s) := .inl rfl
  obtain ⟨ds, hds⟩ := exists_layout_part hkey (show Place.part ≠ .value by decide) p.column
    (p.column + 1)
  obtain ⟨es, hes⟩ := exists_layout_part hv (show Place.part ≠ .value by decide) p.column
    (p.column + 1)
  have hcolon : LineStart (':' :: ' ' :: (es ++ (spaces j ++ tail))) :=
    lineStart_indicator (o := .blockMapping) (t := .value) (by decide) _
  -- The line of the key.
  have hquestion := Reads.indicator (c := '?') (t := .key) (by decide) he
    (ds ++ (spaces p.column ++ ':' :: ' ' :: (es ++ (spaces j ++ tail))))
  have htext := ReadsNode.scalar (t := .str) (s := s) (.inl rfl) .part p.column
    (p.column + 1) p.column (p.past ['?'])
    os true (':' :: ' ' :: (es ++ (spaces j ++ tail))) (by rw [hcol _ rfl (by decide)]; omega)
      (by omega)
    (fun _ => ⟨hcol _ rfl (by decide) p, rfl⟩) (Nat.le_refl _) hcolon
  rw [hds] at htext
  obtain ⟨q, hq, hread⟩ := hquestion.line htext
  -- The line of the value.
  have hlevel : Enters q.column .blockMapping (p.column :: os) [] (p.column :: os) := by
    rw [hq]
    exact .level os
  have hmark := Reads.indicator (c := ':') (t := .value) (by decide) hlevel
    (es ++ (spaces j ++ tail))
  have hvalue := hrv .part p.column (p.column + 1) j (q.past [':']) os true tail
    (by rw [hcol _ rfl (by decide)]; omega) (by omega)
      (fun _ => ⟨by rw [hcol _ rfl (by decide), hq], rfl⟩) hj ht
  rw [hes] at hvalue
  have hboth := (hread.trans hmark).line hvalue
  rw [layoutEntries, entryTokens, hs, if_neg Bool.false_ne_true, if_neg Bool.false_ne_true, hds,
    hes]
  simpa [entryTokens] using hboth

/-- An entry and those behind it. -/
theorem ReadsEntries.cons {k v : Node} {rest : List (Node × Node)} (hk : BareKey k) (hv : Bare v)
    (hrv : ReadsNode v) (hrest : BareEntries rest ∧ (rest ≠ [] → ReadsEntries rest)) :
    ReadsEntries ((k, v) :: rest) := by
  have hfirst : ReadsEntries [(k, v)] := by
    cases k with
    | scalar t s =>
        obtain ⟨rfl, -⟩ := id hk
        cases hs : isSimpleKey 0 (.scalar .str s) with
        | true => exact .simple hk hs hv hrv
        | false => exact .explicit hs hv hrv
    | broken hletters => exact absurd hletters Alphabet.characters_ne_letters
    | sequence t items => exact hk.elim
    | mapping t entries => exact hk.elim
    | anchored l n => exact hk.elim
    | reference l => exact hk.elim
  cases rest with
  | nil => exact hfirst
  | cons e rest =>
      intro j p is js ts tail he hj ht
      obtain ⟨os, rfl⟩ := he.exists_eq
      have hstart := lineStart_entries hrest.1.1 hrest.1.2.1 p.column rest (spaces j ++ tail)
      obtain ⟨q, hq, hr⟩ := hfirst p.column p is _ ts _ he (Nat.le_refl _) hstart
      have hlater := hrest.2 (by simp) j q (p.column :: os) (p.column :: os) [] tail
      rw [hq] at hlater
      rw [layoutEntries_cons, entryTokens_cons]
      simpa using hr.line (hlater (.level os) hj ht)

mutual

/-- **The layout of a node is read as its tokens.** -/
theorem reads_layout : ∀ n : Node, Bare n → ReadsNode n
  | .scalar t s, h => ReadsNode.scalar h
  | .sequence t [], h => by
      obtain ⟨rfl, _⟩ := h
      exact ReadsNode.nil.1
  | .mapping t [], h => by
      obtain ⟨rfl, _⟩ := h
      exact ReadsNode.nil.2
  | .sequence t (n :: rest), h => by
      obtain ⟨rfl, hitems⟩ := h
      exact ReadsNode.sequence hitems.1 (reads_items (n :: rest) hitems (by simp))
  | .mapping t ((k, v) :: rest), h => by
      obtain ⟨rfl, hentries⟩ := h
      exact ReadsNode.mapping hentries.1 hentries.2.1
        (reads_entries ((k, v) :: rest) hentries (by simp))
  | .anchored l n, h => h.elim
  | .reference l, h => h.elim

/-- The same of items. -/
theorem reads_items : ∀ items : List Node, BareItems items → items ≠ [] → ReadsItems items
  | [], _, hne => absurd rfl hne
  | n :: rest, h, _ => ReadsItems.cons h.1 (reads_layout n h.1) ⟨h.2, reads_items rest h.2⟩

/-- The same of entries. -/
theorem reads_entries : ∀ entries : List (Node × Node), BareEntries entries → entries ≠ [] →
    ReadsEntries entries
  | [], _, hne => absurd rfl hne
  | (_, v) :: rest, h, _ =>
      ReadsEntries.cons h.1 h.2.1 (reads_layout v h.2.1) ⟨h.2.2, reads_entries rest h.2.2⟩

end

/-! ## Pages -/

/-- The text of a key is printed. -/
private theorem printed_keyText (s : List Char) : Printed (keyText [] (.scalar .str s)) := by
  have hfits : Fits (styleOf true .str s) s := ShowsTag.fits (t := .str) (.inl rfl) true
  rw [keyText_eq]
  exact printed_body hfits 0 0 false

mutual

/-- The layout of a node is printed. -/
theorem printed_layout : ∀ n : Node, Bare n →
    ∀ place indent column, Printed (layout place indent column [] n)
  | .scalar t s, h, place, indent, column => by
      have h : ShowsTag t s := h
      rw [layout, h.scalarText_eq, printed_cons, printed_append]
      exact ⟨by decide, printed_body (h.fits false) _ _ _, by simp [Printed, isPlainChar]⟩
  | .sequence t [], h, place, indent, column => by
      obtain ⟨rfl, _⟩ := h
      rw [(layout_nil place indent column).1]
      simp [Printed, isPlainChar]
  | .mapping t [], h, place, indent, column => by
      obtain ⟨rfl, _⟩ := h
      rw [(layout_nil place indent column).2]
      simp [Printed, isPlainChar]
  | .sequence t (n :: rest), h, place, indent, column => by
      obtain ⟨rfl, hitems⟩ := h
      have hprinted := printed_items (n :: rest) hitems
      rw [layout_sequence]
      split
      · simp [printed_spaces, hprinted, show isPlainChar '\n' = true by decide]
      · simp [hprinted, show isPlainChar ' ' = true by decide]
  | .mapping t (e :: rest), h, place, indent, column => by
      obtain ⟨rfl, hentries⟩ := h
      have hprinted := printed_entries (e :: rest) hentries
      rw [layout_mapping]
      split
      · simp [printed_spaces, hprinted, show isPlainChar '\n' = true by decide]
      · simp [hprinted, show isPlainChar ' ' = true by decide]
  | .anchored l n, h, _, _, _ => h.elim
  | .reference l, h, _, _, _ => h.elim

/-- The same of items. -/
private theorem printed_items : ∀ items : List Node, BareItems items →
    ∀ indent, Printed (layoutItems indent items)
  | [], _, indent => by
      rw [layoutItems]
      exact printed_nil
  | n :: rest, h, indent => by
      have hn := printed_layout n h.1 .item indent (indent + 1)
      have hrest := printed_items rest h.2 indent
      rw [layoutItems]
      split <;> simp [hn, hrest, printed_spaces, show isPlainChar '-' = true by decide]

/-- The same of entries. -/
theorem printed_entries : ∀ entries : List (Node × Node), BareEntries entries → ∀ indent,
    Printed (layoutEntries indent entries)
  | [], _, indent => by
      rw [layoutEntries]
      exact printed_nil
  | (.scalar t s, v) :: rest, h, indent => by
      obtain ⟨⟨rfl, _⟩, hv, hentries⟩ := h
      have hkey := printed_keyText s
      have hpart := printed_layout (.scalar .str s) (.inl rfl) .part indent (indent + 1)
      have hvalue := printed_layout v hv
      have hrest := printed_entries rest hentries indent
      rw [layoutEntries]
      split <;> split <;>
        simp [hkey, hpart, hvalue, hrest, printed_spaces, show isPlainChar ':' = true by decide,
          show isPlainChar '?' = true by decide]
  | (.sequence .., _) :: _, h, _ => h.1.elim
  | (.mapping .., _) :: _, h, _ => h.1.elim
  | (.anchored .., _) :: _, h, _ => h.1.elim
  | (.reference _, _) :: _, h, _ => h.1.elim

end

mutual

/-- A node without anchors is written as it is. -/
private theorem settle_bare : ∀ n : Node, Bare n →
    ∀ again written, settle again written n = (n, written)
  | .scalar t s, _, again, written => rfl
  | .sequence t items, h, again, written => by rw [settle, settle_bareItems items h.2]
  | .mapping t entries, h, again, written => by rw [settle, settle_bareEntries entries h.2]
  | .anchored l n, h, _, _ => h.elim
  | .reference l, h, _, _ => h.elim

/-- The same of items. -/
private theorem settle_bareItems : ∀ items : List Node, BareItems items → ∀ again written,
    settleItems again written items = (items, written)
  | [], _, again, written => rfl
  | n :: rest, h, again, written => by
      rw [settleItems, settle_bare n h.1]
      simp only [settle_bareItems rest h.2]

/-- The same of entries. -/
private theorem settle_bareEntries :
    ∀ entries : List (Node × Node), BareEntries entries →
    ∀ again written, settleEntries again written entries = (entries, written)
  | [], _, again, written => rfl
  | (.scalar t s, v) :: rest, h, again, written => by
      rw [settleEntries, settle]
      simp only [settle_bare v h.2.1, settle_bareEntries rest h.2.2]
  | (.sequence .., _) :: _, h, _, _ => h.1.elim
  | (.mapping .., _) :: _, h, _, _ => h.1.elim
  | (.anchored .., _) :: _, h, _, _ => h.1.elim
  | (.reference _, _) :: _, h, _, _ => h.1.elim

end

/-- The page of a mapping with entries. -/
theorem page_mapping {e : Node × Node} {rest : List (Node × Node)} (h : BareEntries (e :: rest)) :
    page (.mapping .map (e :: rest)) = layoutEntries 0 (e :: rest) := by
  have hfold : fold (.mapping .map (e :: rest)) = .mapping .map (e :: rest) := by
    have hbare : Bare (.mapping .map (e :: rest)) := ⟨rfl, h⟩
    rw [fold, settle_bare _ hbare]
  rw [page, hfold]
  simp [root, collectionTag]

/-- The tokens of a printed text are those of its marks. -/
theorem ofText_of_printed {cs : List Char} (h : Printed cs) :
    Token.ofText cs = Mark.resolve (marks (cs.length + 1) {} cs) := by
  have hallowed : cs.all isAllowed = true :=
    List.all_eq_true.mpr fun c hc => isAllowed_of_isPlainChar (h c hc)
  unfold Token.ofText
  rw [if_pos hallowed]
  cases cs with
  | nil => rfl
  | cons c cs =>
      have hmark : c ≠ byteOrderMark := by
        rintro rfl
        exact absurd (h byteOrderMark List.mem_cons_self) (by decide)
      simp [hmark]

/-- **The tokens of a page.** -/
theorem tokens_page {e : Node × Node} {rest : List (Node × Node)} (h : BareEntries (e :: rest)) :
    Token.ofText (page (.mapping .map (e :: rest))) =
      .blockMapping :: (entryTokens 0 (e :: rest) ++ [.blockEnd]) := by
  obtain ⟨k, v⟩ := e
  have hmarks := ofText_of_printed (printed_entries ((k, v) :: rest) h 0)
  obtain ⟨q, _, ms, hleads, _, named, _, hresolve⟩ :=
    reads_entries ((k, v) :: rest) h (by simp) 0 {} [] [0]
    [.blockMapping] [] (.opens (by simp)) (Nat.le_refl _) lineStart_nil
  rw [show spaces 0 ++ [] = [] from rfl, List.append_nil] at hleads
  obtain ⟨fuel, hfuel, hall⟩ := hleads ((layoutEntries 0 ((k, v) :: rest)).length + 1)
    (Nat.lt_succ_self _)
  obtain ⟨f, rfl⟩ : ∃ f, fuel = f + 1 := ⟨fuel - 1, by simp at hfuel; omega⟩
  have hend : (Mark.resolveWith [.token .blockEnd]) = ([.blockEnd], []) := rfl
  rw [page_mapping h, hmarks, Mark.resolve]
  have hall : marks ((layoutEntries 0 ((k, v) :: rest)).length + 1) {}
    (layoutEntries 0 ((k, v) :: rest)) =
      ms ++ [.token .blockEnd] := by
    have hlast : marks (f + 1) (lineAt q [0]) [] = [.token .blockEnd] := marks_end q [0] f
    rw [← hlast]
    exact hall
  rw [hall, hresolve [.token .blockEnd] (by simp [hend]), hend]
  simp

end RegistryBundle.Yaml.Node
