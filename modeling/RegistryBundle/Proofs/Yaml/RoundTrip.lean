import RegistryBundle.Proofs.Value.Tree
import RegistryBundle.Proofs.Yaml.Grammar
import RegistryBundle.Proofs.Yaml.WholeNumbers
import RegistryBundle.Yaml.Node.OfValue

/-!
# The round trip of a document

A mapping that is a tree is written as a page, and the page is read as the mapping, its entries in
the order of their keys, but for what was torn within double quotes.

* `Node.ofTree` is the node of an ordered tree, `Node.ofValue_eq` the way to it;
* `Value.reread` is the value that is read back from its place on the page;
* `read_write` is the round trip.
-/

namespace RegistryBundle.Yaml

open Value Scalar

namespace Node

/-! ## The node of a tree -/

mutual

/-- The node of a tree whose entries are in order. -/
def ofTree : Value → Node
  | .bool b => word .bool (if b then "true" else "false")
  | .int n => .scalar .int (intText n)
  | .str s => .scalar .str s.toList
  | .list items => .sequence .seq (ofTrees items)
  | .map entries => .mapping .map (ofBranches entries)
  | _ => word .null "null"

/-- The nodes of items. -/
def ofTrees : List Value → List Node
  | [] => []
  | v :: rest => ofTree v :: ofTrees rest

/-- The nodes of entries. -/
def ofBranches : List (Value × Value) → List (Node × Node)
  | [] => []
  | (k, v) :: rest => (ofTree k, ofTree v) :: ofBranches rest

end

private theorem ofBranches_eq_map (entries : List (Value × Value)) :
    ofBranches entries = entries.map fun e => (ofTree e.1, ofTree e.2) := by
  induction entries with
  | nil => rfl
  | cons e rest ih => rw [ofBranches, ih, List.map_cons]

/-- Elements that are all nodes already. -/
theorem mapM_snd_ok {entries : List (Value × Value)} {f : Value × Value → Node × Node} :
    (entries.map fun e => (e.1, (Except.ok (f e) : Except WriteError (Node × Node)))).mapM Prod.snd
      = .ok (entries.map f) := by
  induction entries with
  | nil => rfl
  | cons e rest ih =>
      rw [List.map_cons, List.mapM_cons, ih]
      rfl

mutual

/-- A tree has a node. -/
theorem ofValue_eq : ∀ v : Value, IsTree v → ofValue v = .ok (ofTree (ordered v))
  | .null, _ => rfl
  | .bool _, _ => rfl
  | .int n, h => by
      have hn : intText? n = some (intText n) := if_pos h
      rw [ofValue, hn]
      rfl
  | .str _, _ => rfl
  | .list items, h => by
      rw [ofValue, ofItems_eq items h]
      rfl
  | .map entries, h => by
      have hkeys := h.2.textKeys
      rw [ofValue, ofEntries_eq entries h.2, sortByKey_map hkeys, mapM_snd_ok, ordered_map hkeys,
        ofTree, ofBranches_eq_map, List.map_map]
      rfl

/-- The same of items. -/
theorem ofItems_eq : ∀ items : List Value, AreTrees items →
    ofItems items = .ok (ofTrees (orderedItems items))
  | [], _ => rfl
  | v :: rest, h => by
      rw [ofItems, ofValue_eq v h.1, ofItems_eq rest h.2]
      rfl

/-- The same of entries, each with its key. -/
theorem ofEntries_eq : ∀ entries : List (Value × Value), AreBranches entries →
    ofEntries entries = entries.map fun e => (e.1, .ok (ofTree e.1, ofTree (ordered e.2)))
  | [], _ => rfl
  | (k, v) :: rest, h => by
      obtain ⟨⟨s, rfl, _⟩, hv, hrest⟩ := h
      rw [ofEntries, ofEntries_eq rest hrest, ofValue_eq v hv]
      rfl

end

/-! ## Nodes without tags and anchors -/

/-- A key of a tree is not too long to be read. -/
theorem bareKey_of_length {s : String} (h : s.length ≤ Value.maxKeyLength) :
    BareKey (.scalar .str s.toList) := by
  refine ⟨rfl, ?_⟩
  intro hs
  have hline : '\n' ∉ s.toList := by
    simp only [isSimpleKey, Bool.and_eq_true, Bool.not_eq_true'] at hs
    intro hm
    exact List.any_eq_false.mp hs.2 '\n' hm rfl
  obtain ⟨_, hlen, _⟩ := body_of_line
    (show styleOf true .str s.toList = .double ∨ '\n' ∉ s.toList from .inr hline) 0 0
  rw [keyText_eq]
  rw [String.length_toList] at hlen
  simp only [Scan.maxKeyLength, Value.maxKeyLength] at h ⊢
  omega

mutual

/-- The node of a tree is written without tags and anchors. -/
theorem bare_ofTree : ∀ v : Value, IsTree v → Bare (ofTree v)
  | .null, _ => .inr (by decide)
  | .bool b, _ => by cases b <;> exact .inr (by decide)
  | .int n, h => by
      obtain ⟨hplain, hne, htag, _⟩ := intText_reads n h
      exact .inr ⟨by decide, by simp [isImplicit, htag], hplain, hne⟩
  | .str _, _ => .inl rfl
  | .list items, h => ⟨rfl, bare_ofTrees items h⟩
  | .map entries, h => ⟨rfl, bare_ofBranches entries h.2⟩

/-- The same of items. -/
theorem bare_ofTrees : ∀ items : List Value, AreTrees items → BareItems (ofTrees items)
  | [], _ => trivial
  | v :: rest, h => ⟨bare_ofTree v h.1, bare_ofTrees rest h.2⟩

/-- The same of entries. -/
theorem bare_ofBranches : ∀ entries : List (Value × Value), AreBranches entries →
    BareEntries (ofBranches entries)
  | [], _ => trivial
  | (_, v) :: rest, h => by
      obtain ⟨⟨s, rfl, hs⟩, hv, hrest⟩ := h
      exact ⟨bareKey_of_length hs, bare_ofTree v hv, bare_ofBranches rest hrest⟩

end

end Node

end RegistryBundle.Yaml

namespace RegistryBundle.Value

open Yaml Yaml.Node

/-! ## The value that is read back -/

/-- Whether a key stands before its colon. -/
def beforeColon (k : Value) : Bool :=
  isSimpleKey 0 (ofTree k)

mutual

/-- The value that is read back behind an indicator or a colon of the collection at `indent`. -/
def reread (place : Node.Place) (indent : Nat) : Value → Value
  | .str s => .str (String.ofList (readText false (indent + 2) .str s.toList))
  | .list items => .list (rereadItems (if place == .value then indent else indent + 2) items)
  | .map entries => .map (ofList (rereadEntries (indent + 2) entries))
  | v => v

/-- The items that are read back. -/
def rereadItems (indent : Nat) : List Value → List Value
  | [] => []
  | v :: rest => reread .item indent v :: rereadItems indent rest

/-- The entries that are read back; keys that were different may be the same by now. -/
def rereadEntries (indent : Nat) : List (Value × Value) → List (Value × Value)
  | [] => []
  | (k, v) :: rest =>
    (if beforeColon k then (k, reread .value indent v)
      else (reread .part indent k, reread .part indent v)) ::
      rereadEntries indent rest

end

end RegistryBundle.Value

namespace RegistryBundle.Yaml

open Value

namespace Node

variable {A : Alphabet}

/-- The value of a scalar of one of the types that are written without a tag. -/
theorem construct_scalar {t : Tag} (ht : t ∈ [Tag.null, .bool, .int, .float, .timestamp, .str])
    {s : List Char} {v : Value A} (h : ScalarText.value .older t s = .ok v) (depth : Nat) :
    construct .older depth (.scalar t s) = .ok v := by
  simp only [List.mem_cons, List.not_mem_nil, or_false] at ht
  rcases ht with rfl | rfl | rfl | rfl | rfl | rfl <;>
    simp [construct, h, Except.mapError]

/-- An entry under a text. -/
theorem constructEntries_text {n : Node A} {rest : List (Node A × Node A)} {depth : Nat}
    {v : Value A} {es : Entries A}
    (hn : construct .older depth n = .ok v)
    (hrest : constructEntries .older depth rest = .ok ([], es))
    (cs : List Char) :
    constructEntries .older depth ((.scalar .str cs, n) :: rest) =
      .ok ([], (.str (String.ofList cs), v) :: es) := by
  have hkey : constructKey .older depth (.scalar .str cs) =
      .ok (.str (String.ofList cs) : Value A) := by
    rw [constructKey, construct_scalar (v := .str (String.ofList cs)) (by decide) rfl]
    · rfl
    all_goals simp
  have hmerge : (Node.scalar .str cs : Node A).isMergeKey = false := rfl
  rw [constructEntries, hmerge, hn, hrest, hkey]
  rfl

/-- A mapping without merge keys. -/
theorem construct_mapping {entries : List (Node A × Node A)} {depth : Nat} {es : Entries A}
    (hmergeable : mergeableEntries entries = true)
    (hmerges : (entries.any fun e => e.1.isMergeKey) = false)
    (hentries : constructEntries .older (depth + 1) entries = .ok ([], es)) :
    construct .older depth (.mapping .map entries) = .ok (.map (ofList es)) := by
  rw [construct, if_pos hmergeable, hmerges, hentries]
  rfl

/-- The text of a scalar that is no text is read back. -/
theorem reread_plain {t : Tag} {s : List Char} (h : ShowsTag t s) (ht : t ≠ .str)
    (place : Node.Place) (i : Nat) :
    reread place i (.scalar t s) = .scalar t s := by
  have hst : styleOf false t s = .plain := (h.plain_or_str false).resolve_right ht
  rw [reread, readText, hst]
  rfl

/-- Entries under texts bring in none of other mappings. -/
theorem mergeable_rereadEntries {entries : List (Node × Node)}
    (h : ∀ e ∈ entries, ∃ s, e.1 = .scalar .str s) (i : Nat) :
    mergeableEntries (rereadEntries i entries) = true ∧
      ((rereadEntries i entries).any fun e => e.1.isMergeKey) = false := by
  induction entries with
  | nil => exact ⟨rfl, rfl⟩
  | cons e rest ih =>
      obtain ⟨hmergeable, hany⟩ := ih fun f hf => h f (List.mem_cons_of_mem e hf)
      obtain ⟨s, hs⟩ := h e List.mem_cons_self
      obtain ⟨k, v⟩ := e
      obtain rfl : k = .scalar .str s := hs
      rw [rereadEntries]
      split <;>
        exact ⟨by rw [mergeableEntries, hmergeable]; rfl, by rw [List.any_cons, hany]; rfl⟩

private theorem rereadEntries_ofBranches {entries : List (Value × Value)} (h : AreBranches entries)
    (i : Nat) :
    mergeableEntries (rereadEntries i (ofBranches entries)) = true ∧
      ((rereadEntries i (ofBranches entries)).any fun e => e.1.isMergeKey) = false := by
  refine mergeable_rereadEntries (fun e he => ?_) i
  rw [ofBranches_eq_map] at he
  obtain ⟨f, hf, rfl⟩ := List.mem_map.mp he
  obtain ⟨s, hs⟩ := h.textKeys f hf
  exact ⟨s.toList, by rw [hs, ofTree]⟩

mutual

/-- **A tree is read back from its node.** -/
theorem construct_reread : ∀ v : Value, IsTree v → ∀ depth place i,
    construct .older depth (reread place i (ofTree v)) = .ok (Value.reread place i v)
  | .null, _, depth, place, i => by
      rw [ofTree, word, reread_plain (.inr (by decide)) (by decide), Value.reread]
      · exact construct_scalar (by decide) rfl depth
      all_goals intros; contradiction
  | .bool b, _, depth, place, i => by
      have hvalue : ScalarText.value .older .bool (if b then "true" else "false").toList =
          .ok (.bool b : Value) := by
        cases b <;> rfl
      have hshows : ShowsTag .bool (if b then "true" else "false").toList := by
        cases b <;> exact .inr (by decide)
      rw [ofTree, word, reread_plain hshows (by decide), Value.reread]
      · exact construct_scalar (by decide) hvalue depth
      all_goals intros; contradiction
  | .int n, h, depth, place, i => by
      obtain ⟨hplain, hne, htag, hvalue⟩ := intText_reads n h
      have hshows : ShowsTag .int (intText n) :=
        .inr ⟨by decide, by simp [isImplicit, htag], hplain, hne⟩
      rw [ofTree, reread_plain hshows (by decide), Value.reread]
      · exact construct_scalar (by decide) hvalue depth
      all_goals intros; contradiction
  | .str _, _, depth, place, i => by
      rw [ofTree, reread, Value.reread]
      exact construct_scalar (by decide) rfl depth
  | .list items, h, depth, place, i => by
      rw [ofTree, reread, construct, construct_rereadItems items h]
      rfl
  | .map entries, h, depth, place, i => by
      obtain ⟨hmergeable, hany⟩ := rereadEntries_ofBranches h.2 (i + 2)
      rw [ofTree, reread, Value.reread]
      exact construct_mapping hmergeable hany (construct_rereadEntries entries h.2 _ _)

/-- The same of items. -/
theorem construct_rereadItems : ∀ items : List Value, AreTrees items → ∀ depth i,
    constructItems .older depth (rereadItems i (ofTrees items)) = .ok (Value.rereadItems i items)
  | [], _, _, _ => by rw [ofTrees, rereadItems, constructItems, Value.rereadItems]
  | v :: rest, h, depth, i => by
      rw [ofTrees, rereadItems, constructItems, construct_reread v h.1,
        construct_rereadItems rest h.2]
      rfl

/-- The same of entries. -/
theorem construct_rereadEntries : ∀ entries : List (Value × Value), AreBranches entries → ∀ depth i,
    constructEntries .older depth (rereadEntries i (ofBranches entries)) =
      .ok ([], Value.rereadEntries i entries)
  | [], _, _, _ => by rw [ofBranches, rereadEntries, constructEntries, Value.rereadEntries]
  | (_, v) :: rest, h, depth, i => by
      obtain ⟨⟨s, rfl, _⟩, hv, hrest⟩ := h
      have hkey : ofTree (.str s) = .scalar .str s.toList := rfl
      have htail := construct_rereadEntries rest hrest depth i
      rw [ofBranches, rereadEntries, Value.rereadEntries, beforeColon, hkey]
      split
      · rw [constructEntries_text (construct_reread v hv depth .value i) htail,
          String.ofList_toList]
      · rw [reread, constructEntries_text (construct_reread v hv depth .part i) htail]
        simp only [Value.reread]

end

end Node

/-- The mapping that is read back from the page of a mapping. -/
def rereadPage (entries : List (Value × Value)) : List (Value × Value) :=
  ofList (rereadEntries 0 ((sortByKey entries).map fun e => (e.1, ordered e.2)))

/-- **A document of a mapping is written, and read back** but for what was
torn within double quotes. -/
theorem read_write {entries : List (Value × Value)} (h : IsTree (.map entries))
    (hne : entries ≠ []) :
    ∃ page, write (.map entries) = .ok page ∧ Printed page.toList ∧
      read page = .ok (.map (rereadPage entries)) := by
  have hkeys := h.2.textKeys
  have htree : IsTree (.map ((sortByKey entries).map fun e => (e.1, ordered e.2))) := by
    rw [← ordered_map hkeys]
    exact isTree_ordered _ h
  obtain ⟨e, rest, hbranches⟩ : ∃ e rest,
      Node.ofBranches ((sortByKey entries).map fun e => (e.1, ordered e.2)) = e :: rest := by
    refine List.exists_cons_of_ne_nil ?_
    rw [Node.ofBranches_eq_map, Ne, List.map_eq_nil_iff, List.map_eq_nil_iff]
    intro hnil
    exact hne (List.Perm.nil_eq (hnil ▸ sortByKey_perm _)).symm
  have hbare := Node.bare_ofBranches _ htree.2
  have hconstruct := Node.construct_rereadEntries _ htree.2 1 0
  obtain ⟨hmergeable, hany⟩ := Node.rereadEntries_ofBranches htree.2 0
  rw [hbranches] at hbare hconstruct hmergeable hany
  have hvalue : (Node.mapping .map (Node.rereadEntries 0 (e :: rest))).toValue .older =
      .ok (.map (rereadPage entries)) := by
    rw [Node.toValue, Node.construct_mapping hmergeable hany hconstruct]
    rfl
  have hnode : Node.ofValue (.map entries) = .ok (.mapping .map (e :: rest)) := by
    rw [Node.ofValue_eq _ h, ordered_map hkeys, Node.ofTree, hbranches]
  refine ⟨String.ofList (Node.page (.mapping .map (e :: rest))), by rw [write, hnode]; rfl, ?_, ?_⟩
  · rw [String.toList_ofList, Node.page_mapping hbare]
    exact Node.printed_entries _ hbare 0
  · rw [read, readAs, readOver, String.toList_ofList, Node.ofText_page hbare]
    exact hvalue

end RegistryBundle.Yaml
