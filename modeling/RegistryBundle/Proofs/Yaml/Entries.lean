import RegistryBundle.Document
import RegistryBundle.Proofs.Outcome
import RegistryBundle.Proofs.Value.Entries
import RegistryBundle.Proofs.Yaml.FirstFault
import RegistryBundle.Proofs.Yaml.Hyphenated
import RegistryBundle.Proofs.Yaml.SharedEntries

/-!
# Entries of a document

A text stands under another at some place of a document. If the first holds letters, digits and
hyphens only, it is on one line of the page, and if the second is one line that is not too long, the
two of them are on the same line.

* `Value.EntryAt` says where in a value a text stands under another, `Value.Coherent` that a label
  means one object, `Value.ShortLine` which texts stand before their colon (`Node.isSimpleKey_iff`);
* `Node.exists_ofValue_map`, `Node.exists_ofValue_set` and `Node.mem_ofItems` relate the parts
  of a value to those of its node, `Node.hasEntry_ofValue` its entries,
  `Node.coherent_ofValue` its labels;
* `Document.onLine_encode` is the main statement.
-/

namespace RegistryBundle

namespace Value

/-- Which part of a collection: what stands under a key, or an item. -/
inductive Part where
  | under (key : Value)
  | item (i : Nat)

/-- A text stands under another in the mapping at the end of a path. Neither the keys of a mapping
nor the members of a set are or hold mappings, so no path goes there; an object that stands at
several places is reached without a step. -/
inductive EntryAt (name text : String) : List Part → Value → Prop where
  | here {entries : Entries} (h : (.str name, .str text) ∈ entries) :
      EntryAt name text [] (.map entries)
  | under {entries : Entries} {key v : Value} {path : List Part} (h : (key, v) ∈ entries)
      (hv : EntryAt name text path v) : EntryAt name text (.under key :: path) (.map entries)
  | item {items : List Value} {i : Nat} {v : Value} {path : List Part} (h : items[i]? = some v)
      (hv : EntryAt name text path v) : EntryAt name text (.item i :: path) (.list items)
  | first {a b : Value} {path : List Part} (ha : EntryAt name text path a) :
      EntryAt name text (.item 0 :: path) (.pair a b)
  | second {a b : Value} {path : List Part} (hb : EntryAt name text path b) :
      EntryAt name text (.item 1 :: path) (.pair a b)
  | shared {l : Nat} {v : Value} {path : List Part} (hv : EntryAt name text path v) :
      EntryAt name text path (.shared l v)

mutual

/-- Every label means one object. -/
def Coherent (meaning : Nat → Value) : Value → Prop
  | .list items => CoherentItems meaning items
  | .pair a b => Coherent meaning a ∧ Coherent meaning b
  | .set items => CoherentItems meaning items
  | .map entries => CoherentEntries meaning entries
  | .shared l v => v = meaning l ∧ Coherent meaning v
  | _ => True

/-- The same in items. -/
def CoherentItems (meaning : Nat → Value) : List Value → Prop
  | [] => True
  | v :: rest => Coherent meaning v ∧ CoherentItems meaning rest

/-- The same in entries. -/
def CoherentEntries (meaning : Nat → Value) : List (Value × Value) → Prop
  | [] => True
  | (k, v) :: rest => Coherent meaning k ∧ Coherent meaning v ∧ CoherentEntries meaning rest

end

/-- A text of one line, neither empty nor longer than 122 characters. -/
structure ShortLine (s : String) : Prop where
  ne : s ≠ ""
  length : s.length ≤ 122
  line : ∀ c ∈ s.toList, Yaml.Scalar.isLineBreak c = false

end Value

namespace Yaml

open Value

variable {meaning : Nat → Value} {name text : String} {path : List Part} {v : Value}

namespace Node

/-- The texts that stand before their colon. -/
theorem isSimpleKey_iff {s : String} :
    isSimpleKey 0 (.scalar .str s.toList) = true ↔ ShortLine s := by
  have htag : Tag.str.text.length = 5 := rfl
  simp only [isSimpleKey, htag, Node.maxKeyLength, Bool.and_eq_true, decide_eq_true_eq,
    Bool.not_eq_true', List.isEmpty_eq_false_iff, List.any_eq_false, String.length_toList]
  constructor
  · rintro ⟨⟨hlen, hne⟩, hline⟩
    exact ⟨by simpa using hne, by omega, fun c hc => by simpa using hline c hc⟩
  · rintro ⟨hne, hlen, hline⟩
    exact ⟨⟨by omega, by simpa using hne⟩, fun c hc => by simp [hline c hc]⟩

theorem entryLine_of_shortLine {s : String} (h : ShortLine s) (shown : List Char) :
    entryLine s.toList shown = keyText [] (.scalar .str s.toList) ++ valueLine shown := by
  rw [entryLine, if_pos (isSimpleKey_iff.mpr h)]

theorem entryLine_of_not_shortLine {s : String} (h : ¬ ShortLine s) (shown : List Char) :
    entryLine s.toList shown = valueLine shown := by
  rw [entryLine, if_neg fun hs => h (isSimpleKey_iff.mp hs), List.nil_append]

/-! ## Nodes of collections -/

/-- Sorted attempts that all succeed give what each of them gives. -/
theorem mem_mapM_sortByKey {l : List (Value × Except WriteError (Node × Node))}
    {nodes : List (Node × Node)}
    (h : (sortByKey l).mapM Prod.snd = .ok nodes) :
    (∀ a ∈ l, ∃ e ∈ nodes, a.2 = .ok e) ∧ ∀ e ∈ nodes, ∃ a ∈ l, a.2 = .ok e := by
  have hmem : ∀ a, a ∈ sortByKey l ↔ a ∈ l := fun a => (sortByKey_perm l).mem_iff
  refine ⟨fun a ha => ?_, fun e he => ?_⟩
  · obtain ⟨e, he⟩ := Outcome.exists_of_mapM_eq_ok h ((hmem a).mpr ha)
    exact ⟨e, (Outcome.mem_of_mapM_eq_ok h).mpr ⟨a, (hmem a).mpr ha, he⟩, he⟩
  · obtain ⟨a, ha, hae⟩ := (Outcome.mem_of_mapM_eq_ok h).mp he
    exact ⟨a, (hmem a).mp ha, hae⟩

private theorem attempt_eq_ok {k v : Value} {x y : Node} (h : attempt (k, v) = .ok (x, y)) :
    ofValue k = .ok x ∧ ofValue v = .ok y := by
  obtain ⟨x', hx, h⟩ := Outcome.bind_eq_ok.mp h
  obtain ⟨y', hy, h⟩ := Outcome.bind_eq_ok.mp h
  obtain ⟨rfl, rfl⟩ := Prod.mk.inj (Except.ok.inj h)
  exact ⟨hx, hy⟩

/-- The node of a mapping has the nodes of its entries for entries, in some order. -/
theorem exists_ofValue_map {entries : Entries} {n : Node} (h : ofValue (.map entries) = .ok n) :
    ∃ nodes, n = .mapping .map nodes ∧
      (∀ k v, (k, v) ∈ entries → ∃ x y, (x, y) ∈ nodes ∧ ofValue k = .ok x ∧ ofValue v = .ok y) ∧
      ∀ x y, (x, y) ∈ nodes → ∃ k v, (k, v) ∈ entries ∧ ofValue k = .ok x ∧ ofValue v = .ok y := by
  rw [ofValue] at h
  obtain ⟨nodes, hnodes, h⟩ := Outcome.bind_eq_ok.mp h
  rw [ofEntries_eq_map] at hnodes
  obtain ⟨hof, hto⟩ := mem_mapM_sortByKey hnodes
  refine ⟨nodes, (Except.ok.inj h).symm, fun k v he => ?_, fun x y hxy => ?_⟩
  · obtain ⟨⟨x, y⟩, hxy, hattempt⟩ := hof _ (List.mem_map_of_mem he)
    exact ⟨x, y, hxy, attempt_eq_ok hattempt⟩
  · obtain ⟨a, ha, hattempt⟩ := hto _ hxy
    obtain ⟨⟨k, v⟩, he, rfl⟩ := List.mem_map.mp ha
    exact ⟨k, v, he, attempt_eq_ok hattempt⟩

/-- That of a set has the nodes of its members for keys, with null for a value. -/
theorem exists_ofValue_set {items : List Value} {n : Node} (h : ofValue (.set items) = .ok n) :
    ∃ nodes, n = .mapping .set nodes ∧ ∀ e ∈ nodes, ∃ v ∈ items, ofValue v = .ok e.1 ∧
      e.2 = word .null "null" := by
  have hmembers : ∀ {items : List Value} {a : Value × Except WriteError (Node × Node)},
    a ∈ ofMembers items →
      ∃ v ∈ items, a.2 = (ofValue v).map fun n => (n, word .null "null") := by
    intro items a ha
    induction items with
    | nil => exact absurd ha List.not_mem_nil
    | cons v rest ih =>
        rw [ofMembers] at ha
        rcases List.mem_cons.mp ha with rfl | ha
        · exact ⟨v, List.mem_cons_self, rfl⟩
        · obtain ⟨w, hw, heq⟩ := ih ha
          exact ⟨w, List.mem_cons_of_mem v hw, heq⟩
  rw [ofValue] at h
  obtain ⟨nodes, hnodes, h⟩ := Outcome.bind_eq_ok.mp h
  refine ⟨nodes, (Except.ok.inj h).symm, fun e he => ?_⟩
  obtain ⟨a, ha, hae⟩ := (mem_mapM_sortByKey hnodes).2 e he
  obtain ⟨v, hv, heq⟩ := hmembers ha
  obtain ⟨m, hm, rfl⟩ := Outcome.map_eq_ok.mp (heq.symm.trans hae)
  exact ⟨v, hv, hm, rfl⟩

/-- That of a list has the nodes of its items for items. -/
theorem mem_ofItems {items : List Value} {nodes : List Node} (h : ofItems items = .ok nodes) :
    (∀ v ∈ items, ∃ n ∈ nodes, ofValue v = .ok n) ∧
      ∀ n ∈ nodes, ∃ v ∈ items, ofValue v = .ok n := by
  induction items generalizing nodes with
  | nil =>
      obtain rfl := Except.ok.inj h
      exact ⟨nofun, nofun⟩
  | cons v rest ih =>
      rw [ofItems] at h
      obtain ⟨n, hn, h⟩ := Outcome.bind_eq_ok.mp h
      obtain ⟨ns, hns, h⟩ := Outcome.bind_eq_ok.mp h
      obtain rfl := Except.ok.inj h
      obtain ⟨hof, hto⟩ := ih hns
      refine ⟨List.forall_mem_cons.mpr ⟨⟨n, List.mem_cons_self, hn⟩, fun w hw => ?_⟩,
        List.forall_mem_cons.mpr ⟨⟨v, List.mem_cons_self, hn⟩, fun m hm => ?_⟩⟩
      · exact (hof w hw).imp fun m hm => ⟨List.mem_cons_of_mem n hm.1, hm.2⟩
      · exact (hto m hm).imp fun w hw => ⟨List.mem_cons_of_mem v hw.1, hw.2⟩

/-- **Entries of a value** are entries of its node. -/
theorem hasEntry_ofValue (h : EntryAt name text path v) {n : Node} (hn : ofValue v = .ok n) :
    HasEntry name.toList text.toList n := by
  induction h generalizing n with
  | here h =>
      obtain ⟨nodes, rfl, hnodes, -⟩ := exists_ofValue_map hn
      obtain ⟨x, y, hxy, hx, hy⟩ := hnodes _ _ h
      obtain rfl := Except.ok.inj hx
      obtain rfl := Except.ok.inj hy
      exact .here hxy
  | under h hv ih =>
      obtain ⟨nodes, rfl, hnodes, -⟩ := exists_ofValue_map hn
      obtain ⟨x, y, hxy, -, hy⟩ := hnodes _ _ h
      exact .under hxy (ih hy)
  | @item items i v path h hv ih =>
      obtain ⟨nodes, hnodes, rfl⟩ := Outcome.map_eq_ok.mp hn
      obtain ⟨m, hm, hvm⟩ := (mem_ofItems hnodes).1 v (List.mem_of_getElem? h)
      exact .item hm (ih hvm)
  | first ha ih =>
      obtain ⟨x, hx, hn⟩ := Outcome.bind_eq_ok.mp hn
      obtain ⟨y, hy, hn⟩ := Outcome.bind_eq_ok.mp hn
      obtain rfl := Except.ok.inj hn
      exact .item List.mem_cons_self (ih hx)
  | second hb ih =>
      obtain ⟨x, hx, hn⟩ := Outcome.bind_eq_ok.mp hn
      obtain ⟨y, hy, hn⟩ := Outcome.bind_eq_ok.mp hn
      obtain rfl := Except.ok.inj hn
      exact .item (List.mem_cons_of_mem x List.mem_cons_self) (ih hy)
  | shared hv ih =>
      obtain ⟨m, hm, rfl⟩ := Outcome.map_eq_ok.mp hn
      exact .anchored (ih hm)

/-! ## Labels -/

/-- The node of what a label means. -/
def meaningOf (meaning : Nat → Value) (l : Nat) : Node :=
  match ofValue (meaning l) with
  | .ok n => n
  | .error _ => word .null "null"

private theorem coherentItems_iff {meaning : Nat → Node} {items : List Node} :
    CoherentItems meaning items ↔ ∀ n ∈ items, Coherent meaning n := by
  induction items with
  | nil => simp [CoherentItems]
  | cons n rest ih => simp [CoherentItems, ih]

private theorem coherentEntries_iff {meaning : Nat → Node} {entries : List (Node × Node)} :
    CoherentEntries meaning entries ↔ ∀ e ∈ entries, Coherent meaning e.1 ∧
      Coherent meaning e.2 := by
  induction entries with
  | nil => simp [CoherentEntries]
  | cons e rest ih => simp [CoherentEntries, ih, and_assoc]

mutual

/-- A label that means one object means one node. -/
theorem coherent_ofValue : ∀ v : Value, Value.Coherent meaning v → ∀ n, ofValue v = .ok n →
    Coherent (meaningOf meaning) n
  | .null, _, _, hn | .bool _, _, _, hn | .float _, _, _, hn | .str _, _, _, hn | .bytes _, _, _,
      hn | .date _, _, _, hn
  | .moment _, _, _, hn | .cycle _, _, _, hn => by
      obtain rfl := Except.ok.inj hn
      trivial
  | .int i, _, n, hn => by
      rw [ofValue] at hn
      split at hn
      · obtain rfl := Except.ok.inj hn
        trivial
      · contradiction
  | .foreign, _, _, hn => by contradiction
  | .list items, h, n, hn => by
      obtain ⟨nodes, hnodes, rfl⟩ := Outcome.map_eq_ok.mp hn
      refine coherentItems_iff.mpr fun m hm => ?_
      obtain ⟨v, hv, hvm⟩ := (mem_ofItems hnodes).2 m hm
      exact coherent_ofItems items h v hv m hvm
  | .pair a b, h, n, hn => by
      obtain ⟨x, hx, hn⟩ := Outcome.bind_eq_ok.mp hn
      obtain ⟨y, hy, hn⟩ := Outcome.bind_eq_ok.mp hn
      obtain rfl := Except.ok.inj hn
      exact ⟨coherent_ofValue a h.1 x hx, coherent_ofValue b h.2 y hy, trivial⟩
  | .set items, h, n, hn => by
      obtain ⟨nodes, rfl, hnodes⟩ := exists_ofValue_set hn
      refine coherentEntries_iff.mpr fun e he => ?_
      obtain ⟨v, hv, hkey, hvalue⟩ := hnodes e he
      rw [hvalue]
      exact ⟨coherent_ofItems items h v hv _ hkey, trivial⟩
  | .map entries, h, n, hn => by
      obtain ⟨nodes, rfl, -, hnodes⟩ := exists_ofValue_map hn
      refine coherentEntries_iff.mpr fun e he => ?_
      obtain ⟨k, v, hkv, hkey, hvalue⟩ := hnodes e.1 e.2 he
      obtain ⟨hk, hv⟩ := coherent_ofEntries entries h (k, v) hkv
      exact ⟨hk _ hkey, hv _ hvalue⟩
  | .shared l v, h, n, hn => by
      obtain ⟨m, hm, rfl⟩ := Outcome.map_eq_ok.mp hn
      refine ⟨?_, coherent_ofValue v h.2 m hm⟩
      rw [meaningOf, ← h.1, hm]

/-- The same of items. -/
theorem coherent_ofItems : ∀ items : List Value, Value.CoherentItems meaning items →
    ∀ v ∈ items, ∀ n, ofValue v = .ok n → Coherent (meaningOf meaning) n
  | [], _ => nofun
  | v :: rest, h => List.forall_mem_cons.mpr ⟨coherent_ofValue v h.1, coherent_ofItems rest h.2⟩

/-- The same of entries. -/
theorem coherent_ofEntries : ∀ entries : List (Value × Value),
    Value.CoherentEntries meaning entries →
    ∀ e ∈ entries, (∀ n, ofValue e.1 = .ok n → Coherent (meaningOf meaning) n) ∧
      ∀ n, ofValue e.2 = .ok n → Coherent (meaningOf meaning) n
  | [], _ => nofun
  | (k, v) :: rest, h => List.forall_mem_cons.mpr
      ⟨⟨coherent_ofValue k h.1, coherent_ofValue v h.2.1⟩, coherent_ofEntries rest h.2.2⟩

end

end Node

end Yaml

namespace Document

open Value Yaml Node

variable {meaning : Nat → Value} {name text : String} {path : List Part} {v : Value}

/-- **A text of letters, digits and hyphens** stands on the line of its name, as it is and with the
quotes that it needs, wherever in a document the entry is. -/
theorem onLine_encode (hcoherent : Value.Coherent meaning v) (h : EntryAt name text path v)
    (htext : Hyphenated text.toList) (hne : text ≠ "") {page : String}
    (hpage : encode v = .ok page) :
    ∃ shown, StandsAs text.toList shown ∧
      OnLine true (entryLine name.toList shown) page.toList := by
  obtain ⟨n, hn, rfl⟩ := Outcome.map_eq_ok.mp (Outcome.mapError_eq_ok.mp hpage)
  obtain ⟨shown, hshown, hscalar⟩ := scalarText_of_hyphenated htext (by simpa using hne)
  have hfold := (hasEntry_ofValue h hn).fold (coherent_ofValue v hcoherent n hn)
  refine ⟨shown, hshown, ?_⟩
  rw [String.toList_ofList]
  exact hfold.onLine_root (fun column indent => hscalar column indent false) []

end Document

end RegistryBundle
