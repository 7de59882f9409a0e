import RegistryBundle.Proofs.Yaml.Layout

/-!
# The node of the tokens of a page

The tokens of a node form the node again, but for what was torn within double quotes.

* `Node.reread` is the node that is read back from the layout of a node;
* `Node.node_tokens`, `Node.items_itemTokens`, `Node.entries_entryTokens` read it from the tokens;
* `Node.ofText_page` is the round trip of a document.
-/

namespace RegistryBundle.Yaml.Node

open Grammar

mutual

/-- The node that is read back from the layout of a node behind an indicator or a colon of the
collection at `indent`. -/
def reread (place : Place) (indent : Nat) : Node → Node
  | .scalar t s => .scalar t (readText false (indent + 2) t s)
  | .sequence t items => .sequence t (rereadItems (if place == .value then indent else indent + 2)
      items)
  | .mapping t entries => .mapping t (rereadEntries (indent + 2) entries)
  | .anchored l n => .anchored l n
  | .reference l => .reference l

/-- The items that are read back. -/
def rereadItems (indent : Nat) : List Node → List Node
  | [] => []
  | n :: rest => reread .item indent n :: rereadItems indent rest

/-- The entries that are read back; a key before its colon is never broken. -/
def rereadEntries (indent : Nat) : List (Node × Node) → List (Node × Node)
  | [] => []
  | (k, v) :: rest =>
    (if isSimpleKey 0 k then (k, reread .value indent v)
      else (reread .part indent k, reread .part indent v)) ::
      rereadEntries indent rest

end

/-! ## First tokens -/

/-- The tokens of a node begin with none that stands between nodes, and with a hyphen
only at the column of a key. -/
theorem tokens_cons {n : Node} (h : Bare n) (place : Place) (i : Nat) :
    ∃ t ts, tokens place i n = t :: ts ∧ t ∉ [.key, .value, .blockEnd] ∧
      (place ≠ .value → t ≠ .entry) ∧ (∀ a, t ≠ .reference a) ∧ (∀ a, t ≠ .anchor a) ∧
      ∀ a b, t ≠ .tag a b := by
  cases n with
  | scalar t s => exact ⟨_, _, by rw [tokens], by simp⟩
  | broken hletters => exact absurd hletters Alphabet.characters_ne_letters
  | sequence t items =>
      cases items with
      | nil => exact ⟨_, _, by rw [tokens], by simp⟩
      | cons n rest =>
          rw [tokens_sequence]
          by_cases hp : place = .value
          · exact ⟨_, _, by rw [if_pos hp, itemTokens], by simp [hp]⟩
          · exact ⟨_, _, by rw [if_neg hp], by simp⟩
  | mapping t entries =>
      cases entries with
      | nil => exact ⟨_, _, by rw [tokens], by simp⟩
      | cons e rest => exact ⟨_, _, by rw [tokens_mapping], by simp⟩
  | anchored l n => exact h.elim
  | reference l => exact h.elim

/-- A node has at least one token. -/
theorem tokens_length_pos {n : Node} (h : Bare n) (place : Place) (i : Nat) :
    0 < (tokens place i n).length := by
  obtain ⟨t, ts, heq, _⟩ := tokens_cons h place i
  rw [heq]
  exact Nat.succ_pos _

/-- A part that has a node is not missing. -/
theorem nextIs_tokens {n : Node} (h : Bare n) (place : Place) (i : Nat) (rest : List Token) :
    nextIs (tokens place i n ++ rest) [.key, .value, .blockEnd] = false ∧
      (place ≠ .value → nextIs (tokens place i n ++ rest) [.entry, .blockEnd] = false ∧
        nextIs (tokens place i n ++ rest) [.entry, .key, .value, .blockEnd] = false) := by
  obtain ⟨t, ts, heq, hbetween, hentry, _⟩ := tokens_cons h place i
  simp only [List.mem_cons, List.not_mem_nil, or_false, not_or] at hbetween
  rw [heq]
  refine ⟨by simp [nextIs, hbetween], ?_⟩
  intro hp
  simp [nextIs, hbetween, hentry hp]

/-! ## One step of the grammar -/

section Steps

variable {A : Alphabet} {r : Yaml.Reading} {block indentless : Bool} {fuel : Nat}
  {names : Names} {rest : List Token}

/-- A scalar without properties. -/
theorem node_scalar (text : List Char) (plain : Bool) :
    Grammar.node r block indentless (fuel + 1) names (.scalar text plain :: rest) =
      .ok ((.scalar (r.scalarTag none text plain) text : Node A), names, rest) := rfl

/-- Empty collections. -/
theorem node_brackets :
    Grammar.node r block indentless (fuel + 2) names (.flowSequence :: .flowSequenceEnd :: rest) =
        .ok ((.sequence .seq [] : Node A), names, rest) ∧
      Grammar.node r block indentless (fuel + 2) names (.flowMapping :: .flowMappingEnd :: rest) =
        .ok ((.mapping .map [] : Node A), names, rest) := ⟨rfl, rfl⟩

/-- A sequence at the column of its key. -/
theorem node_level {items : List (Node A)} {ts : List Token}
    (h : levelItems r fuel names (.entry :: ts) = .ok (items, names, rest)) :
    Grammar.node r block true (fuel + 1) names (.entry :: ts) =
      .ok (.sequence .seq items, names, rest) := by
  rw [Grammar.node]
  · simp [properties, register, nextIs, h, withAnchor, Yaml.Reading.collectionTag, pure,
      Except.pure]
  · simp

/-- A sequence of its own column. -/
theorem node_sequence {items : List (Node A)} {ts : List Token}
    (h : blockItems r fuel names ts = .ok (items, names, rest)) :
    Grammar.node r true indentless (fuel + 1) names (.blockSequence :: ts) =
      .ok (.sequence .seq items, names, rest) := by
  rw [Grammar.node]
  · simp [properties, register, nextIs, h, withAnchor, Yaml.Reading.collectionTag, pure,
      Except.pure]
  · simp

/-- A mapping. -/
theorem node_mapping {entries : List (Node A × Node A)} {ts : List Token}
    (h : blockEntries r fuel names ts = .ok (entries, names, rest)) :
    Grammar.node r true indentless (fuel + 1) names (.blockMapping :: ts) =
      .ok (.mapping .map entries, names, rest) := by
  rw [Grammar.node]
  · simp [properties, register, nextIs, h, withAnchor, Yaml.Reading.collectionTag, pure,
      Except.pure]
  · simp

/-- An item and those behind it. -/
theorem blockItems_entry {n : Node A} {items : List (Node A)} {ts us : List Token}
    (hn : nextIs ts [.entry, .blockEnd] = false)
    (h : Grammar.node r true false fuel names ts = .ok (n, names, us))
    (hi : blockItems r fuel names us = .ok (items, names, rest)) :
    blockItems r (fuel + 1) names (.entry :: ts) = .ok (n :: items, names, rest) := by
  simp [blockItems, hn, h, hi, pure, Except.pure]

/-- An item at the column of a key, and those behind it. -/
theorem levelItems_entry {n : Node A} {items : List (Node A)} {ts us : List Token}
    (hn : nextIs ts [.entry, .key, .value, .blockEnd] = false)
    (h : Grammar.node r true false fuel names ts = .ok (n, names, us))
    (hi : levelItems r fuel names us = .ok (items, names, rest)) :
    levelItems r (fuel + 1) names (.entry :: ts) = .ok (n :: items, names, rest) := by
  simp [levelItems, hn, h, hi, pure, Except.pure]

/-- The items at the column of a key end in front of anything but a hyphen. -/
theorem levelItems_end {ts : List Token} (h : nextIs ts [.entry] = false) :
    levelItems r (fuel + 1) names ts = .ok (([] : List (Node A)), names, ts) := by
  cases ts with
  | nil => rfl
  | cons t ts =>
      have ht : t ≠ .entry := by simpa [nextIs] using h
      rw [levelItems]
      simp [ht]

/-- An entry and those behind it. -/
theorem blockEntries_key {k v : Node A} {entries : List (Node A × Node A)} {ts us vs : List Token}
    (hk : nextIs ts [.key, .value, .blockEnd] = false)
    (h : Grammar.node r true true fuel names ts = .ok (k, names, .value :: us))
    (hv : nextIs us [.key, .value, .blockEnd] = false)
    (h' : Grammar.node r true true fuel names us = .ok (v, names, vs))
    (he : blockEntries r fuel names vs = .ok (entries, names, rest)) :
    blockEntries r (fuel + 1) names (.key :: ts) = .ok ((k, v) :: entries, names, rest) := by
  simp [blockEntries, hk, h, hv, h', he, pure, Except.pure]

end Steps

/-! ## Reading the tokens of a node -/

/-- The tokens of a node form what is read back from it. -/
def ParsesNode (n : Node) : Prop :=
  ∀ (r : Yaml.Reading) (place : Place) (i fuel : Nat) (names : Names) (rest : List Token),
    r.version = .older → 2 * (tokens place i n).length ≤ fuel →
    (place = .value → nextIs rest [.entry] = false) →
    Grammar.node r true (place != .item) fuel names (tokens place i n ++ rest) =
    .ok (reread place i n, names, rest)

/-- The same of items, at a column of their own or at that of a key. -/
def ParsesItems (items : List Node) : Prop :=
  ∀ (r : Yaml.Reading) (i fuel : Nat) (names : Names) (rest : List Token), r.version = .older →
    2 * (itemTokens i items).length ≤ fuel + 1 → 1 ≤ fuel →
    blockItems r fuel names (itemTokens i items ++ .blockEnd :: rest) =
      .ok (rereadItems i items, names, rest) ∧ (nextIs rest [.entry] = false →
        levelItems r fuel names (itemTokens i items ++ rest) =
          .ok (rereadItems i items, names, rest))

/-- The same of entries. -/
def ParsesEntries (entries : List (Node × Node)) : Prop :=
  ∀ (r : Yaml.Reading) (i fuel : Nat) (names : Names) (rest : List Token), r.version = .older →
    2 * (entryTokens i entries).length ≤ fuel + 1 → 1 ≤ fuel →
    blockEntries r fuel names (entryTokens i entries ++ .blockEnd :: rest) =
      .ok (rereadEntries i entries, names, rest)

theorem ParsesNode.scalar {t : Tag} {s : List Char} (h : ShowsTag t s) :
    ParsesNode (.scalar t s) := by
  intro r place i fuel names rest hr hf _
  obtain ⟨f, rfl⟩ : ∃ f, fuel = f + 1 := ⟨fuel - 1, by simp [tokens] at hf; omega⟩
  rw [tokens, List.singleton_append, node_scalar, reread, h.scalarTag_readText false (i + 2) hr]

theorem ParsesNode.nil : ParsesNode (.sequence .seq []) ∧ ParsesNode (.mapping .map []) := by
  constructor
  · intro r place i fuel names rest _ hf _
    obtain ⟨f, rfl⟩ : ∃ f, fuel = f + 2 := ⟨fuel - 2, by simp [tokens] at hf; omega⟩
    rw [tokens, reread, rereadItems]
    exact node_brackets.1
  · intro r place i fuel names rest _ hf _
    obtain ⟨f, rfl⟩ : ∃ f, fuel = f + 2 := ⟨fuel - 2, by simp [tokens] at hf; omega⟩
    rw [tokens, reread, rereadEntries]
    exact node_brackets.2

theorem ParsesNode.sequence {n : Node} {items : List Node} (hn : Bare n)
    (h : ParsesItems (n :: items)) :
    ParsesNode (.sequence .seq (n :: items)) := by
  intro r place i fuel names rest hr hf hrest
  have hpos := tokens_length_pos hn .item
  rw [tokens_sequence] at hf ⊢
  by_cases hp : place = .value
  · subst hp
    rw [if_pos rfl] at hf ⊢
    obtain ⟨f, rfl⟩ : ∃ f, fuel = f + 1 := ⟨fuel - 1, by simp [itemTokens] at hf; omega⟩
    have hlen : 2 ≤ (itemTokens i (n :: items)).length := by
      have := hpos i
      simp only [itemTokens, List.length_cons, List.length_append]
      omega
    have hitems := (h r i f names rest hr (by omega) (by omega)).2 (hrest rfl)
    rw [itemTokens, List.cons_append] at hitems ⊢
    exact node_level hitems
  · have hvalue : (place == .value) = false := by simpa using hp
    rw [if_neg hp] at hf ⊢
    obtain ⟨f, rfl⟩ : ∃ f, fuel = f + 1 := ⟨fuel - 1, by simp at hf; omega⟩
    have hitems := (h r (i + 2) f names rest hr (by simp at hf; omega) (by simp at hf; omega)).1
    rw [reread, hvalue, List.cons_append, List.append_assoc]
    exact node_sequence hitems

theorem ParsesNode.mapping {e : Node × Node} {entries : List (Node × Node)}
    (h : ParsesEntries (e :: entries)) :
    ParsesNode (.mapping .map (e :: entries)) := by
  intro r place i fuel names rest hr hf _
  rw [tokens_mapping] at hf ⊢
  obtain ⟨f, rfl⟩ : ∃ f, fuel = f + 1 := ⟨fuel - 1, by simp at hf; omega⟩
  have hentries := h r (i + 2) f names rest hr (by simp at hf; omega) (by simp at hf; omega)
  rw [reread, List.cons_append, List.append_assoc]
  exact node_mapping hentries

theorem ParsesItems.cons {n : Node} {items : List Node} (hn : Bare n) (h : ParsesNode n)
    (hi : ParsesItems items) :
    ParsesItems (n :: items) := by
  intro r i fuel names rest hr hf hpos
  obtain ⟨f, rfl⟩ : ∃ f, fuel = f + 1 := ⟨fuel - 1, by omega⟩
  have hlen := tokens_length_pos hn .item i
  have hf : 2 * (1 + (tokens .item i n).length + (itemTokens i items).length) ≤ f + 2 := by
    simp [itemTokens] at hf
    omega
  have hnode := fun rest => h r .item i f names rest hr (by omega) (by simp)
  have hitems := fun rest => hi r i f names rest hr (by omega) (by omega)
  rw [itemTokens, rereadItems, List.cons_append, List.append_assoc, List.cons_append,
    List.append_assoc]
  constructor
  · exact blockItems_entry ((nextIs_tokens hn .item i _).2 (by decide)).1 (hnode _) (hitems rest).1
  · intro hrest
    exact levelItems_entry ((nextIs_tokens hn .item i _).2 (by decide)).2 (hnode _)
      ((hitems rest).2 hrest)

/-- The tokens behind a value begin with no hyphen. -/
theorem nextIs_entryTokens (i : Nat) (entries : List (Node × Node)) (rest : List Token) :
    nextIs (entryTokens i entries ++ .blockEnd :: rest) [.entry] = false := by
  cases entries with
  | nil => rfl
  | cons e entries =>
      rw [entryTokens]
      split <;> rfl

/-- A key before its colon is read as it is. -/
theorem node_keyToken {r : Yaml.Reading} (hr : r.version = .older) (s : List Char) (fuel : Nat)
    (names : Names) (rest : List Token) :
    Grammar.node r true true (fuel + 1) names (keyToken (.scalar .str s) :: rest) =
      .ok ((.scalar .str s : Node), names, rest) := by
  have h : ShowsTag .str s := .inl rfl
  have htag := h.scalarTag_readText true 0 hr
  have htext : readText true 0 .str s = s := by
    unfold readText
    cases styleOf true .str s with
    | double => exact Scalar.reread_of_not_split 0 true s
    | plain => rfl
    | single => rfl
  rw [htext] at htag
  rw [keyToken, node_scalar, htag]

theorem ParsesEntries.cons {k v : Node} {entries : List (Node × Node)} (hk : BareKey k)
    (hv : Bare v)
    (h : ParsesNode v) (he : ParsesEntries entries) : ParsesEntries ((k, v) :: entries) := by
  intro r i fuel names rest hr hf hpos
  obtain ⟨f, rfl⟩ : ∃ f, fuel = f + 1 := ⟨fuel - 1, by omega⟩
  have hbehind := nextIs_entryTokens i entries rest
  have hentries : 2 * (entryTokens i entries).length ≤ f + 1 → 1 ≤ f → _ := he r i f names rest hr
  have hvalue := fun place hf =>
    h r place i f names (entryTokens i entries ++ .blockEnd :: rest) hr hf
    (fun _ => hbehind)
  cases k with
  | scalar t s =>
      obtain ⟨rfl, _⟩ := hk
      rw [entryTokens] at hf ⊢
      rw [rereadEntries]
      by_cases hsimple : isSimpleKey 0 (.scalar .str s) = true
      · rw [if_pos hsimple] at hf ⊢
        simp only [List.length_append, List.length_cons] at hf
        obtain ⟨g, rfl⟩ : ∃ g, f = g + 1 := ⟨f - 1, by omega⟩
        have hkey := node_keyToken hr s g names
          (.value :: (tokens .value i v ++ (entryTokens i entries ++ .blockEnd :: rest)))
        rw [if_pos hsimple, List.append_assoc, List.cons_append, List.cons_append, List.cons_append]
        exact blockEntries_key rfl hkey (nextIs_tokens hv .value i _).1 (hvalue .value (by omega))
          (hentries (by omega) (by omega))
      · have hs : Bare (.scalar .str s) := .inl rfl
        rw [if_neg hsimple] at hf ⊢
        simp only [List.length_append, List.length_cons] at hf
        have hkey := ParsesNode.scalar (t := .str) (s := s) (.inl rfl) r .part i f names
          (.value :: (tokens .part i v ++ (entryTokens i entries ++ .blockEnd :: rest))) hr
            (by omega) (by simp)
        rw [if_neg hsimple, List.append_assoc, List.cons_append, List.append_assoc,
          List.cons_append]
        exact blockEntries_key (nextIs_tokens hs .part i _).1 hkey (nextIs_tokens hv .part i _).1
          (hvalue .part (by omega)) (hentries (by omega) (by omega))
  | broken hletters => exact absurd hletters Alphabet.characters_ne_letters
  | sequence t items => exact hk.elim
  | mapping t entries => exact hk.elim
  | anchored l n => exact hk.elim
  | reference l => exact hk.elim

mutual

/-- **The tokens of a node form what is read back from it.** -/
theorem node_tokens : ∀ n : Node, Bare n → ParsesNode n
  | .scalar t s, h => ParsesNode.scalar h
  | .sequence t [], h => by
      obtain ⟨rfl, _⟩ := h
      exact ParsesNode.nil.1
  | .mapping t [], h => by
      obtain ⟨rfl, _⟩ := h
      exact ParsesNode.nil.2
  | .sequence t (n :: items), h => by
      obtain ⟨rfl, hitems⟩ := h
      exact ParsesNode.sequence hitems.1 (items_itemTokens (n :: items) hitems)
  | .mapping t (e :: entries), h => by
      obtain ⟨rfl, hentries⟩ := h
      exact ParsesNode.mapping (entries_entryTokens (e :: entries) hentries)
  | .anchored l n, h => h.elim
  | .reference l, h => h.elim

/-- The same of items. -/
theorem items_itemTokens : ∀ items : List Node, BareItems items → ParsesItems items
  | [], _ => by
      intro r i fuel names rest _ _ hpos
      obtain ⟨f, rfl⟩ : ∃ f, fuel = f + 1 := ⟨fuel - 1, by omega⟩
      exact ⟨rfl, levelItems_end⟩
  | n :: items, h => ParsesItems.cons h.1 (node_tokens n h.1) (items_itemTokens items h.2)

/-- The same of entries. -/
theorem entries_entryTokens : ∀ entries : List (Node × Node), BareEntries entries →
    ParsesEntries entries
  | [], _ => by
      intro r i fuel names rest _ _ hpos
      obtain ⟨f, rfl⟩ : ∃ f, fuel = f + 1 := ⟨fuel - 1, by omega⟩
      rfl
  | (_, v) :: entries, h => ParsesEntries.cons h.1 h.2.1 (node_tokens v h.2.1) (entries_entryTokens
      entries h.2.2)

end

/-! ## Labels and anchors -/

mutual

/-- A node without anchors gets no labels outside anchored mappings, and nothing is put into it. -/
theorem expand_label_reread : ∀ n : Node, Bare n → ∀ place i next anchors,
    label false next (reread place i n) = (reread place i n, next) ∧
      expand anchors (reread place i n) = (reread place i n, anchors)
  | .scalar t s, _, _, _, _, _ => ⟨rfl, rfl⟩
  | .sequence t items, h, place, i, next, anchors => by
      obtain ⟨hl, he⟩ := expand_label_rereadItems items h.2 (if place == .value then i else i + 2)
        next anchors
      rw [reread, label, expand, hl, he]
      exact ⟨rfl, rfl⟩
  | .mapping t entries, h, place, i, next, anchors => by
      obtain ⟨hl, he⟩ := expand_label_rereadEntries entries h.2 (i + 2) next anchors
      rw [reread, label, expand, hl, he]
      exact ⟨rfl, rfl⟩
  | .anchored l n, h, _, _, _, _ => h.elim
  | .reference l, h, _, _, _, _ => h.elim

/-- The same of items. -/
theorem expand_label_rereadItems : ∀ items : List Node, BareItems items → ∀ i next anchors,
    labelItems false next (rereadItems i items) = (rereadItems i items, next) ∧
      expandItems anchors (rereadItems i items) = (rereadItems i items, anchors)
  | [], _, _, _, _ => ⟨rfl, rfl⟩
  | n :: items, h, i, next, anchors => by
      obtain ⟨hl, he⟩ := expand_label_reread n h.1 .item i next anchors
      obtain ⟨hls, hes⟩ := expand_label_rereadItems items h.2 i next anchors
      rw [rereadItems, labelItems, expandItems, hl, he]
      simp only [hls, hes, and_self]

/-- The same of entries. -/
theorem expand_label_rereadEntries :
    ∀ entries : List (Node × Node), BareEntries entries →
    ∀ i next anchors, labelEntries false next (rereadEntries i entries) =
    (rereadEntries i entries, next) ∧
      expandEntries anchors (rereadEntries i entries) = (rereadEntries i entries, anchors)
  | [], _, _, _, _ => ⟨rfl, rfl⟩
  | (.scalar t s, v) :: entries, h, i, next, anchors => by
      obtain ⟨hls, hes⟩ := expand_label_rereadEntries entries h.2.2 i next anchors
      have hv := fun place => expand_label_reread v h.2.1 place i next anchors
      rw [rereadEntries]
      split
      · simp only [labelEntries, expandEntries, label, labelled, expand, (hv .value).1,
          (hv .value).2, hls, hes, Bool.false_and, Bool.false_eq_true, if_false, and_self]
      · simp only [reread, labelEntries, expandEntries, label, labelled, expand, (hv .part).1,
          (hv .part).2, hls, hes, Bool.false_and, Bool.false_eq_true, if_false, and_self]
  | (.sequence .., _) :: _, h, _, _, _ => h.1.elim
  | (.mapping .., _) :: _, h, _, _, _ => h.1.elim
  | (.anchored .., _) :: _, h, _, _, _ => h.1.elim
  | (.reference _, _) :: _, h, _, _, _ => h.1.elim

end

/-- **A document of a mapping is read back**, but for what was torn within double quotes. -/
theorem ofText_page {e : Node × Node} {entries : List (Node × Node)}
    (h : BareEntries (e :: entries)) :
    Node.ofText .older (page (.mapping .map (e :: entries))) =
      .ok (some (.mapping .map (rereadEntries 0 (e :: entries)))) := by
  obtain ⟨hlabel, hexpand⟩ := expand_label_rereadEntries (e :: entries) h 0
    (Token.ofText (page (.mapping .map (e :: entries)))).length []
  have hentries := entries_entryTokens (e :: entries) h { version := .older } 0
    (2 * (entryTokens 0 (e :: entries)).length + 5) [] [] rfl (by omega) (by omega)
  have hnode : Grammar.node { version := .older } true false
      (fuelFor (.blockMapping :: (entryTokens 0 (e :: entries) ++ [.blockEnd]))) []
      (.blockMapping :: (entryTokens 0 (e :: entries) ++ [.blockEnd])) =
      .ok (.mapping .map (rereadEntries 0 (e :: entries)), [], []) := by
    have hfuel : fuelFor (.blockMapping :: (entryTokens 0 (e :: entries) ++ [.blockEnd])) =
        2 * (entryTokens 0 (e :: entries)).length + 5 + 1 := by
      simp [fuelFor]
      omega
    rw [hfuel]
    exact node_mapping hentries
  have hdocument : Grammar.document .older
    (.blockMapping :: (entryTokens 0 (e :: entries) ++ [.blockEnd])) =
      .ok (some (.mapping .map (rereadEntries 0 (e :: entries)))) := by
    simp only [Grammar.document, hnode, Outcome.ok_bind]
    rfl
  rw [tokens_page h] at hlabel
  simp only [Node.ofText, tokens_page h, hdocument, Outcome.map_ok, Option.map_some, label,
    labelled, hlabel, expand, hexpand, Bool.false_and, Bool.false_eq_true, if_false]

end RegistryBundle.Yaml.Node
