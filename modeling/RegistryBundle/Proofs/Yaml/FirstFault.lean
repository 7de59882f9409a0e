import RegistryBundle.Proofs.Run.Failures
import RegistryBundle.Proofs.Value.Overlaid
import RegistryBundle.Proofs.Value.Tables
import RegistryBundle.Proofs.Yaml.Writable

/-!
# The first entry that cannot be written

A mapping is refused for the first of its entries that cannot be written: in the order of their
texts if all keys are texts, and as they were made if only some of them are.

* `Value.sortByKey_eq_of_perm` and `Value.filter_sortByKey`: the order of texts;
* `Yaml.fault?` is why an entry cannot be written, `Yaml.firstFault?` the first of these reasons;
* `Document.failure?_encode_map` says that this is why a mapping is refused;
* `Yaml.firstFault?_perm` and `Yaml.firstFault?_eq_of_perm` take entries in another order,
  `Yaml.firstFault?_filter` leaves out entries that can be written.
-/

namespace RegistryBundle

open Outcome

namespace Value

variable {α β : Type} {es l : List (Value × α)}

/-! ## The order of texts -/

/-- The text that a key is. -/
def keyText (k : Value) : String :=
  match k.bare with
  | .str s => s
  | _ => ""

private theorem keyText_of_bare {k : Value} {s : String} (h : k.bare = .str s) : k.keyText = s := by
  rw [keyText, h]

/-- Entries whose keys are texts, with labels or without. -/
def Texts (es : List (Value × α)) : Prop :=
  ∀ e ∈ es, ∃ s, e.1.bare = .str s

/-- The entries by the texts of their keys. -/
def named (es : List (Value × α)) : Table (Value × α) :=
  es.map fun e => (e.1.keyText, e)

private theorem named_injective (h : named es = named l) : es = l :=
  List.map_injective_iff.mpr (fun _ _ heq => (Prod.mk.inj heq).2) h

private theorem nodup_named (htexts : Texts es) (h : DistinctKeys es) :
    ((named es).map Prod.fst).Nodup := by
  rw [named, List.map_map]
  refine List.pairwise_map.mpr (h.imp_of_mem fun {e f} he hf hapart heq => ?_)
  obtain ⟨s, hs⟩ := htexts e he
  obtain ⟨t, ht⟩ := htexts f hf
  simp only [Function.comp, keyText_of_bare hs, keyText_of_bare ht] at heq
  subst heq
  exact absurd (hapart.symm.trans ((sameKey_iff_of_bare hs f.1).mpr ht)) Bool.false_ne_true

/-- The order of keys is the order of their texts. -/
theorem named_sortByKey (h : Texts es) : named (sortByKey es) = Table.sorted (named es) := by
  rw [sortByKey_of_texts h, named, Table.sorted, named]
  refine List.map_mergeSort fun e he f hf => ?_
  obtain ⟨s, hs⟩ := h e he
  obtain ⟨t, ht⟩ := h f hf
  rw [before, before?, hs, ht, keyText_of_bare hs, keyText_of_bare ht]
  rfl

/-- **Entries with the same texts** come in the same order. -/
theorem sortByKey_eq_of_perm (htexts : Texts es) (hdistinct : DistinctKeys es) (h : es.Perm l) :
    sortByKey es = sortByKey l := by
  have hl : Texts l := fun e he => htexts e (h.mem_iff.mpr he)
  apply named_injective
  rw [named_sortByKey htexts, named_sortByKey hl]
  exact Table.sorted_eq_of_perm (nodup_named htexts hdistinct) (h.map _)

/-- Entries that are left out do not change the order of the others. -/
theorem filter_sortByKey (htexts : Texts es) (hdistinct : DistinctKeys es) (p : Value × α → Bool) :
    (sortByKey es).filter p = sortByKey (es.filter p) := by
  have hfilter : Texts (es.filter p) := fun e he => htexts e (List.mem_of_mem_filter he)
  have hnamed : ∀ l : List (Value × α), named (l.filter p) = (named l).filter fun e => p e.2 := by
    intro l
    rw [named, named, List.filter_map]
    rfl
  apply named_injective
  rw [hnamed, named_sortByKey htexts, named_sortByKey hfilter, hnamed]
  exact Table.filter_sorted (nodup_named htexts hdistinct) _

/-! ## Keys of several kinds -/

/-- Entries of which the first is under a text. -/
def StartsWithText (es : List (Value × α)) : Prop :=
  ∃ s v rest, es = (.str s, v) :: rest

/-- A write leaves the first key where it is. -/
theorem StartsWithText.put (h : StartsWithText es) (k : Value) (a : α) :
    StartsWithText (put es k a) := by
  obtain ⟨s, v, rest, rfl⟩ := h
  rw [Value.put]
  split
  · exact ⟨s, a, rest, rfl⟩
  · exact ⟨s, v, _, rfl⟩

/-- Behind a text, a key of another kind cannot be compared with it. -/
theorem sortByKey_of_mixed (h : StartsWithText es) (hmixed : ¬ Texts es) : sortByKey es = es := by
  obtain ⟨s, v, rest, rfl⟩ := h
  have hother : (rest.all fun f => (before? (.str s) f.1).isSome) = false := by
    rw [List.all_eq_false]
    simp only [Texts, List.mem_cons, not_forall] at hmixed
    obtain ⟨e, rfl | he, hkey⟩ := hmixed
    · exact absurd ⟨s, rfl⟩ hkey
    · refine ⟨e, he, ?_⟩
      rw [before?]
      cases hbare : e.1.bare with
      | str t => exact absurd ⟨t, hbare⟩ hkey
      | _ => exact Bool.false_ne_true
  cases rest with
  | nil => rfl
  | cons f rest =>
      rw [sortByKey]
      · rw [hother, if_neg Bool.false_ne_true]
      · simp

/-- The order does not depend on what the keys carry. -/
theorem sortByKey_map_of_startsWithText (h : StartsWithText es) (f : Value × α → β) :
    sortByKey (es.map fun e => (e.1, f e)) = (sortByKey es).map fun e => (e.1, f e) := by
  have hiff : Texts (es.map fun e => (e.1, f e)) ↔ Texts es := List.forall_mem_map
  by_cases htexts : Texts es
  · rw [sortByKey_of_texts htexts, sortByKey_of_texts (hiff.mpr htexts)]
    exact (List.map_mergeSort (f := fun e => (e.1, f e)) fun _ _ _ _ => rfl).symm
  · have hmap : StartsWithText (es.map fun e => (e.1, f e)) := by
      obtain ⟨s, v, rest, rfl⟩ := h
      exact ⟨s, _, _, rfl⟩
    rw [sortByKey_of_mixed h htexts, sortByKey_of_mixed hmap (htexts ∘ hiff.mp)]

end Value

/-! ## Faults -/

namespace Yaml

open Value

/-- An attempt to write an entry. -/
def attempt (e : Value × Value) : Except WriteError (Node × Node) := do
  let x ← Node.ofValue e.1
  let y ← Node.ofValue e.2
  return (x, y)

theorem ofEntries_eq_map (es : Entries) : Node.ofEntries es = es.map fun e => (e.1, attempt e) := by
  induction es with
  | nil => rfl
  | cons e rest ih => rw [Node.ofEntries, ih, List.map_cons, attempt]

/-- Why an entry cannot be written. -/
def fault? (e : Value × Value) : Option WriteError :=
  failure? (attempt e)

/-- An entry is at fault for a part that it has. -/
theorem holds_of_fault? {e : Value × Value} {f : WriteError} (h : fault? e = some f) :
    match f with
    | .longInteger => (e.1.holds isLong || e.2.holds isLong) = true
    | .foreignObject => (e.1.holds isForeign || e.2.holds isForeign) = true := by
  have hsettles : Settles (e.1.holds isLong || e.2.holds isLong)
    (e.1.holds isForeign || e.2.holds isForeign)
      (attempt e) := (Node.settles_ofValue e.1).bind fun x =>
        (Node.settles_ofValue e.2).map fun y => (x, y)
  rw [fault?, failure?_eq_some_iff] at h
  cases f with
  | longInteger => exact hsettles.longInteger h
  | foreignObject => exact hsettles.foreignObject h

/-- A text has a node, with a label or without. -/
theorem Node.exists_ofValue_of_bare {s : String} :
    ∀ {v : Value}, v.bare = .str s → ∃ n, ofValue v = .ok n
  | .str _, _ => ⟨_, rfl⟩
  | .shared _ v, h => by
      obtain ⟨n, hn⟩ := exists_ofValue_of_bare (v := v) h
      rw [ofValue, hn]
      exact ⟨_, rfl⟩

/-- A text under a text can be written. -/
theorem fault?_text {k v : Value} {s t : String} (hk : k.bare = .str s) (hv : v.bare = .str t) :
    fault? (k, v) = none := by
  obtain ⟨x, hx⟩ := Node.exists_ofValue_of_bare hk
  obtain ⟨y, hy⟩ := Node.exists_ofValue_of_bare hv
  rw [fault?, attempt, hx, hy]
  rfl

/-- Why entries cannot be written: what is wrong with the first that is at fault. -/
def firstFault? (es : Entries) : Option WriteError :=
  (sortByKey es).findSome? fault?

variable {es es' : Entries}

/-- Entries can be written if each of them can. -/
theorem firstFault?_eq_none_iff : firstFault? es = none ↔ ∀ e ∈ es, fault? e = none := by
  rw [firstFault?, List.findSome?_eq_none_iff]
  simp only [(sortByKey_perm es).mem_iff]

/-- Entries are at fault for a part that they have. -/
theorem firstFault?_cases (es : Entries) :
    firstFault? es = none ∨ firstFault? es = some .longInteger ∧ holdsEntries isLong es = true ∨
      firstFault? es = some .foreignObject ∧ holdsEntries isForeign es = true := by
  cases hfault : firstFault? es with
  | none => exact .inl rfl
  | some f =>
      obtain ⟨e, he, hef⟩ := List.exists_of_findSome?_eq_some hfault
      rw [(sortByKey_perm es).mem_iff] at he
      have hpart := holds_of_fault? hef
      simp only [holdsEntries_eq_any, List.any_eq_true]
      cases f with
      | longInteger => exact .inr (.inl ⟨rfl, e, he, hpart⟩)
      | foreignObject => exact .inr (.inr ⟨rfl, e, he, hpart⟩)

/-- **The order of entries** makes no difference to whether there is a fault, nor to the first if
there are faults of one kind only. -/
theorem firstFault?_perm (h : es.Perm es') :
    (firstFault? es = none ↔ firstFault? es' = none) ∧
      (¬ (holdsEntries isLong es = true ∧ holdsEntries isForeign es = true) →
        firstFault? es = firstFault? es') := by
  have hnone : firstFault? es = none ↔ firstFault? es' = none := by
    rw [firstFault?_eq_none_iff, firstFault?_eq_none_iff]
    simp only [h.mem_iff]
  have hholds : ∀ p, holdsEntries p es' = holdsEntries p es := by
    intro p
    rw [holdsEntries_eq_any, holdsEntries_eq_any, h.any_eq]
  refine ⟨hnone, fun hone => ?_⟩
  obtain hes | ⟨hes, hlong⟩ | ⟨hes, hforeign⟩ := firstFault?_cases es
  · rw [hes, hnone.mp hes]
  · obtain hes' | ⟨hes', -⟩ | ⟨-, hforeign⟩ := firstFault?_cases es'
    · rw [hes', hnone.mpr hes']
    · rw [hes, hes']
    · exact absurd ⟨hlong, (hholds isForeign).symm.trans hforeign⟩ hone
  · obtain hes' | ⟨-, hlong⟩ | ⟨hes', -⟩ := firstFault?_cases es'
    · rw [hes', hnone.mpr hes']
    · exact absurd ⟨(hholds isLong).symm.trans hlong, hforeign⟩ hone
    · rw [hes, hes']

/-- **The order of entries under texts** makes no difference to the first fault. -/
theorem firstFault?_eq_of_perm (htexts : Texts es) (hdistinct : DistinctKeys es) (h : es.Perm es') :
    firstFault? es = firstFault? es' := by
  rw [firstFault?, sortByKey_eq_of_perm htexts hdistinct h, firstFault?]

/-- What is found among some of the items is found among all, if there is nothing in the others. -/
theorem findSome?_filter {α β : Type} {f : α → Option β} {p : α → Bool} {l : List α}
    (h : ∀ a ∈ l, p a = false → f a = none) : (l.filter p).findSome? f = l.findSome? f := by
  induction l with
  | nil => rfl
  | cons a l ih =>
      have hl := ih fun b hb => h b (List.mem_cons_of_mem a hb)
      cases hp : p a with
      | true => rw [List.filter_cons_of_pos hp, List.findSome?_cons, List.findSome?_cons, hl]
      | false =>
          rw [List.filter_cons_of_neg (by rw [hp]; exact Bool.false_ne_true), List.findSome?_cons,
            h a List.mem_cons_self hp, hl]

/-- **Entries under texts that can be written** make no difference to the first fault. -/
theorem firstFault?_filter {p : Value × Value → Bool} (hdistinct : DistinctKeys es)
    (hes : StartsWithText es)
    (hfilter : StartsWithText (es.filter p))
    (h : ∀ e ∈ es, p e = false → (∃ s, e.1.bare = .str s) ∧ fault? e = none) :
    firstFault? (es.filter p) = firstFault? es := by
  have hwritten : ∀ e ∈ es, p e = false → fault? e = none := fun e he hp => (h e he hp).2
  -- Only texts are left out, so the rest is put in order if and only if all was.
  by_cases htexts : Texts es
  · rw [firstFault?, ← filter_sortByKey htexts hdistinct]
    exact findSome?_filter fun e he => hwritten e ((sortByKey_perm es).mem_iff.mp he)
  · have hmixed : ¬ Texts (es.filter p) := by
      intro hall
      refine htexts fun e he => ?_
      cases hp : p e with
      | true => exact hall e (List.mem_filter.mpr ⟨he, hp⟩)
      | false => exact (h e he hp).1
    rw [firstFault?, firstFault?, sortByKey_of_mixed hes htexts, sortByKey_of_mixed hfilter hmixed]
    exact findSome?_filter hwritten

end Yaml

/-- **A mapping is refused for its first fault.** -/
theorem Document.failure?_encode_map {es : Entries} (h : Value.StartsWithText es) :
    failure? (encode (.map es)) = (Yaml.firstFault? es).map (writeFailure (.map [])) := by
  have hnode : failure? (Yaml.Node.ofValue (.map es)) = Yaml.firstFault? es := by
    have hfirst : failure? ((Value.sortByKey es).mapM Yaml.attempt) = Yaml.firstFault? es :=
      failure?_mapM _ _
    rw [Yaml.Node.ofValue, Yaml.ofEntries_eq_map, Value.sortByKey_map_of_startsWithText h,
      List.mapM_map, ← hfirst]
    change failure? ((Value.sortByKey es).mapM Yaml.attempt >>=
      fun entries => pure (Yaml.Node.mapping .map entries)) = _
    cases (Value.sortByKey es).mapM Yaml.attempt <;> rfl
  rw [← hnode, encode, Yaml.write]
  cases Yaml.Node.ofValue (.map es) with
  | ok n => rfl
  | error f => cases f <;> rfl

end RegistryBundle
