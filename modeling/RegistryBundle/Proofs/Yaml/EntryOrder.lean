import RegistryBundle.Proofs.Value.Reordered
import RegistryBundle.Proofs.Yaml.FirstFault

/-!
# Pages and the order of entries

The page of a value, or the reason why it has none, does not tell in which order the entries of its
mappings were made, if their keys are texts.

* `Yaml.carried` is what a writer sees of entries: each key with the attempt
  to write what it carries;
* `Yaml.Node.ofValue_map_eq_of_perm` says that a mapping is written alike
  whatever the order of these;
* `Yaml.Node.ofValue_eq_of_reordered` is the main statement.
-/

namespace RegistryBundle.Yaml

open Value

variable {es fs gs : Entries}

/-- Each key with the attempt to write what it carries. -/
def carried (es : Entries) : List (Value × Except WriteError Node) :=
  es.map fun e => (e.1, Node.ofValue e.2)

theorem textKeys_carried (h : TextKeys es) : TextKeys (carried es) :=
  List.forall_mem_map.mpr h

theorem distinctKeys_carried (h : DistinctKeys es) : DistinctKeys (carried es) :=
  List.pairwise_map.mpr h

namespace Node

/-- An attempt to write an entry is one to write its key and the attempt that it carries. -/
theorem ofEntries_eq_map_carried (es : Entries) :
    ofEntries es = (carried es).map fun e => (e.1, do
      let x ← ofValue e.1
      let y ← e.2
      return (x, y)) := by
  rw [ofEntries_eq_map, carried, List.map_map]
  rfl

/-- **A mapping** is written alike in whatever order its entries were made. -/
theorem ofValue_map_eq_of_perm (hkeys : TextKeys es) (hdistinct : DistinctKeys es)
    (h : (carried es).Perm (carried fs)) : ofValue (.map es) = ofValue (.map fs) := by
  have htexts : Texts (ofEntries es) := by
    rw [ofEntries_eq_map]
    exact List.forall_mem_map.mpr fun e he => (hkeys e he).imp fun _ hs => by rw [hs]; rfl
  have hkeysApart : DistinctKeys (ofEntries es) := by
    rw [ofEntries_eq_map]
    exact List.pairwise_map.mpr hdistinct
  have hperm : (ofEntries es).Perm (ofEntries fs) := by
    rw [ofEntries_eq_map_carried, ofEntries_eq_map_carried]
    exact h.map _
  rw [ofValue, ofValue, sortByKey_eq_of_perm htexts hkeysApart hperm]

mutual

/-- **The node of a value** is that of any reordering of it. By induction on the value: the parts of
a list keep their places, and what the keys of a mapping carry is the same before its entries are
put in another order. -/
theorem ofValue_eq_of_reordered : ∀ {v w : Value}, Keyed v → Reordered v w → ofValue v = ofValue w
  | _, _, _, .same _ => rfl
  | .list _, _, hv, .list h => by
      rw [Keyed] at hv
      rw [ofValue, ofValue, ofItems_eq_of_reordered hv h]
  | .pair _ _, _, hv, .pair hfirst hsecond => by
      rw [Keyed] at hv
      rw [ofValue, ofValue, ofValue_eq_of_reordered hv.1 hfirst,
        ofValue_eq_of_reordered hv.2 hsecond]
  | .map _, _, hv, .map h hperm => by
      rw [Keyed] at hv
      obtain ⟨hkeys, hdistinct, hcarry⟩ := hv
      apply ofValue_map_eq_of_perm hkeys hdistinct
      rw [carried_eq_of_reordered hcarry h]
      exact hperm.map _
  | .shared _ _, _, hv, .shared _ h => by
      rw [Keyed] at hv
      rw [ofValue, ofValue, ofValue_eq_of_reordered hv h]

/-- So are the nodes of items. -/
theorem ofItems_eq_of_reordered : ∀ {xs ys : List Value}, AreKeyed xs → ReorderedItems xs ys →
    ofItems xs = ofItems ys
  | [], _, _, .nil => rfl
  | _ :: _, _, hxs, .cons hv h => by
      rw [AreKeyed] at hxs
      rw [ofItems, ofItems, ofValue_eq_of_reordered hxs.1 hv, ofItems_eq_of_reordered hxs.2 h]

/-- So is what keys carry. -/
theorem carried_eq_of_reordered : ∀ {es fs : Entries}, CarryKeyed es → ReorderedEntries es fs →
    carried es = carried fs
  | [], _, _, .nil => rfl
  | (_, _) :: _, _, hes, .cons _ hv h => by
      rw [CarryKeyed] at hes
      have hrest := carried_eq_of_reordered hes.2 h
      rw [carried, carried] at hrest ⊢
      rw [List.map_cons, List.map_cons, ofValue_eq_of_reordered hes.1 hv, hrest]

end

end Node

end RegistryBundle.Yaml
