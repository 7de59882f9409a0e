import Mathlib.Data.List.Nodup
import RegistryBundle.Proofs.Value.Entries
import RegistryBundle.Table

/-!
# Tables as entries

A table is entries under texts, so what holds of entries holds of tables.

* `Table.entries` are the entries of a table; `Table.entries_put`, `Table.entries_ofList` and
  `Table.get?_entries` say that tables are written and read as entries are;
* `Table.mem_put`, `Table.ofList_eq_self` and `Table.perm_of_lookup` follow;
* `Table.names_update` says that names are written alike, whatever stands under them;
* `Table.sorted` is a table in the order of its names, the same for all tables with the same entries
  (`Table.sorted_eq_of_perm`), from which entries can be left out before or after
  (`Table.filter_sorted`).
-/

namespace RegistryBundle.Table

open Value

variable {α : Type} {t u : Table α}

/-- The entries of a table. -/
def entries (t : Table α) : List (Value × α) :=
  t.map fun e => (.str e.1, e.2)

theorem entries_cons (e : String × α) (t : Table α) :
    entries (e :: t) = (.str e.1, e.2) :: entries t := rfl

theorem textKeys_entries (t : Table α) : TextKeys (entries t) := by
  intro e he
  obtain ⟨f, -, rfl⟩ := List.mem_map.mp he
  exact ⟨f.1, rfl⟩

theorem mem_entries {name : String} {a : α} : (.str name, a) ∈ entries t ↔ (name, a) ∈ t := by
  simp [entries]

private theorem keys_entries (t : Table α) :
    (entries t).map Prod.fst = (t.map Prod.fst).map .str := by
  rw [entries, List.map_map, List.map_map]
  rfl

theorem nodup_entries_iff : ((entries t).map Prod.fst).Nodup ↔ (t.map Prod.fst).Nodup := by
  rw [keys_entries]
  exact List.nodup_map_iff fun _ _ => Value.str.inj

/-- A table is written as entries are. -/
theorem entries_put (name : String) (a : α) (t : Table α) :
    entries (put name a t) = Value.put (entries t) (.str name) a := by
  induction t with
  | nil => rfl
  | cons e rest ih =>
      rw [put, entries_cons, Value.put, sameKey_str_str]
      by_cases h : e.1 = name
      · rw [if_pos h, h, beq_self_eq_true, if_pos rfl, entries_cons]
      · rw [if_neg h, if_neg (by simpa using h), entries_cons, ih]

theorem entries_ofList (l : Table α) : entries (ofList l) = Value.ofList (entries l) := by
  have hfold : ∀ acc : Table α, entries (l.foldl (fun t e => put e.1 e.2 t) acc) =
      (entries l).foldl (fun acc e => Value.put acc e.1 e.2) (entries acc) := by
    induction l with
    | nil => exact fun _ => rfl
    | cons e rest ih =>
        intro acc
        rw [List.foldl_cons, ih, entries_put, entries_cons, List.foldl_cons]
  exact hfold []

/-- A table is read as entries are. -/
theorem get?_entries (t : Table α) (name : String) : get? (entries t) name = t.lookup name := by
  induction t with
  | nil => rfl
  | cons e rest ih =>
      obtain ⟨n, a⟩ := e
      rw [entries_cons, get?_cons, ih, sameKey_str_str, List.lookup_cons, Bool.beq_comm]
      cases name == n <;> rfl

/-- After a write there are the entry that was written and others of before. -/
theorem mem_put {name : String} {a : α} {e : String × α} (h : e ∈ put name a t) :
    e = (name, a) ∨ e ∈ t := by
  rw [← mem_entries, entries_put] at h
  exact (Value.mem_put (textKeys_entries t) h).imp (fun he => by simpa [Prod.ext_iff] using he)
    mem_entries.mp

theorem mem_update {files : Table α} {e : String × α} (h : e ∈ update t files) :
    e ∈ files ∨ e ∈ t := by
  induction files generalizing t with
  | nil => exact .inr h
  | cons f rest ih =>
      rcases ih h with h | h
      · exact .inl (List.mem_cons_of_mem f h)
      · rcases mem_put h with rfl | h
        · exact .inl List.mem_cons_self
        · exact .inr h

/-- What stands under names makes no difference to the names after a write. -/
theorem names_put {t' : Table α} (h : t.map Prod.fst = t'.map Prod.fst) (name : String) (a b : α) :
    (put name a t).map Prod.fst = (put name b t').map Prod.fst := by
  induction t generalizing t' with
  | nil =>
      obtain rfl := List.map_eq_nil_iff.mp h.symm
      rfl
  | cons e rest ih =>
      obtain ⟨e', rest', rfl, he, hrest⟩ := List.map_eq_cons_iff.mp h.symm
      rw [put, put, he]
      split
      · rw [List.map_cons, List.map_cons, hrest]
      · rw [List.map_cons, List.map_cons, he, ih hrest.symm]

/-- Nor does it after several. -/
theorem names_update {t' l l' : Table α} (h : t.map Prod.fst = t'.map Prod.fst)
    (hl : l.map Prod.fst = l'.map Prod.fst) :
    (update t l).map Prod.fst = (update t' l').map Prod.fst := by
  induction l generalizing t t' l' with
  | nil =>
      obtain rfl := List.map_eq_nil_iff.mp hl.symm
      exact h
  | cons e rest ih =>
      obtain ⟨e', rest', rfl, he, hrest⟩ := List.map_eq_cons_iff.mp hl.symm
      rw [update, List.foldl_cons, update, List.foldl_cons, he]
      exact ih (names_put h e.1 e.2 e'.2) hrest.symm

section Names

variable {κ : Type} [DecidableEq κ]

/-- A write under a new name stands at the end. -/
private theorem put_of_new {t : Table α κ} {name : κ} (h : name ∉ t.map Prod.fst) (a : α) :
    put name a t = t ++ [(name, a)] := by
  induction t with
  | nil => rfl
  | cons e rest ih =>
      obtain ⟨hfirst, hrest⟩ := not_or.mp (mt List.mem_cons.mpr h)
      rw [put, if_neg (Ne.symm hfirst), ih hrest, List.cons_append]

/-- Entries under new names stand behind those that were there. -/
theorem update_of_nodup {t l : Table α κ} (h : ((t ++ l).map Prod.fst).Nodup) :
    update t l = t ++ l := by
  induction l generalizing t with
  | nil => exact (List.append_nil t).symm
  | cons e rest ih =>
      have hmoved : t ++ [e] ++ rest = t ++ e :: rest := by
        rw [List.append_assoc, List.singleton_append]
      have hnew : e.1 ∉ t.map Prod.fst := by
        rw [List.map_append, List.map_cons] at h
        exact fun he => (List.nodup_append.mp h).2.2 _ he _ List.mem_cons_self rfl
      rw [update, List.foldl_cons, put_of_new hnew, ← update, ih (by rwa [hmoved]), hmoved]

/-- A table whose names differ is made by writing its entries one after another. -/
theorem ofList_eq_self {t : Table α κ} (h : (t.map Prod.fst).Nodup) : ofList t = t :=
  update_of_nodup h

end Names

theorem lookup_eq_some_iff (h : (t.map Prod.fst).Nodup) {name : String} {a : α} :
    t.lookup name = some a ↔ (name, a) ∈ t := by
  rw [← get?_entries, get?_eq_some_iff (textKeys_entries t) (nodup_entries_iff.mpr h), mem_entries]

/-- Under a name stands what was written last under it, or what stood there. -/
theorem lookup_update (t l : Table α) (name : String) :
    (update t l).lookup name = (l.reverse.lookup name).or (t.lookup name) := by
  induction l generalizing t with
  | nil => rfl
  | cons e rest ih =>
      have hput : (put e.1 e.2 t).lookup name = ([e].lookup name).or (t.lookup name) := by
        by_cases h : e.1 = name
        · rw [h, lookup_put_self, List.lookup_cons, h, beq_self_eq_true]
          rfl
        · rw [lookup_put_other h, List.lookup_cons, beq_eq_false_iff_ne.mpr (Ne.symm h)]
          rfl
      rw [update, List.foldl_cons, ← update, ih, hput, List.reverse_cons, List.lookup_append,
        Option.or_assoc]

/-- In a table that entries make the last entry of a name counts. -/
theorem lookup_ofList (l : Table α) (name : String) :
    (ofList l).lookup name = l.reverse.lookup name := by
  rw [ofList, lookup_update]
  exact Option.or_none

/-- Of entries that are read as a table the last under a name counts, and
stands there as it is read. -/
theorem rel_lookup_ofList {R : Value → α → Prop} (read : Value → Option String) {es : Entries}
    {l : Table α}
    (h : List.Forall₂ (fun e f => read e.1 = some f.1 ∧ R e.2 f.2) es l) (name : String) :
    Option.Rel R ((es.reverse.find? fun e => read e.1 == some name).map Prod.snd)
      ((ofList l).lookup name) := by
  rw [lookup_ofList]
  replace h := List.forall₂_reverse_iff.mpr h
  generalize es.reverse = es, l.reverse = l at h
  induction h with
  | nil => exact .none
  | @cons e f _ _ hfirst _ ih =>
      rw [List.find?_cons, List.lookup_cons, hfirst.1]
      by_cases heq : f.1 = name
      · rw [heq, beq_self_eq_true, beq_self_eq_true]
        exact .some hfirst.2
      · rw [beq_eq_false_iff_ne.mpr (heq ∘ Option.some.inj), beq_eq_false_iff_ne.mpr (Ne.symm heq)]
        exact ih

/-- **Tables that hold the same under every name** hold the same entries. -/
theorem perm_of_lookup (ht : (t.map Prod.fst).Nodup) (hu : (u.map Prod.fst).Nodup)
    (h : ∀ name, t.lookup name = u.lookup name) : t.Perm u := by
  apply (List.perm_ext_iff_of_nodup ht.of_map hu.of_map).mpr
  intro e
  rw [← lookup_eq_some_iff ht, ← lookup_eq_some_iff hu, h]

/-- The order of the entries does not matter where names differ. -/
theorem lookup_of_perm (ht : (t.map Prod.fst).Nodup) (h : t.Perm u) (name : String) :
    t.lookup name = u.lookup name := by
  have hu : (u.map Prod.fst).Nodup := (h.map Prod.fst).nodup_iff.mp ht
  apply Option.ext
  intro a
  rw [lookup_eq_some_iff ht, lookup_eq_some_iff hu, h.mem_iff]

/-! ## The order of names -/

/-- The table with its entries in the order of their names. -/
def sorted (t : Table α) : Table α :=
  t.mergeSort fun e f => !decide (f.1 < e.1)

theorem sorted_perm (t : Table α) : (sorted t).Perm t :=
  List.mergeSort_perm t _

theorem nodup_sorted (h : (t.map Prod.fst).Nodup) : ((sorted t).map Prod.fst).Nodup :=
  ((sorted_perm t).map Prod.fst).nodup_iff.mpr h

theorem lookup_sorted (h : (t.map Prod.fst).Nodup) (name : String) :
    (sorted t).lookup name = t.lookup name :=
  (lookup_of_perm h (sorted_perm t).symm name).symm

/-- The order of names is that of keys. -/
theorem entries_sorted (t : Table α) : entries (sorted t) = sortByKey (entries t) := by
  rw [sortByKey_of_textKeys (textKeys_entries t), entries, sorted, List.map_mergeSort]
  · rfl
  · exact fun _ _ _ _ => rfl

/-- The order does not depend on what stands under the names. -/
theorem sorted_map {β : Type} (t : Table α) (f : String × α → β) :
    sorted (t.map fun e => (e.1, f e)) = (sorted t).map fun e => (e.1, f e) :=
  (List.map_mergeSort (f := fun e : String × α => (e.1, f e)) fun _ _ _ _ => rfl).symm

/-- No name stands behind a later one. -/
def Ordered (t : Table α) : Prop :=
  t.Pairwise fun e f => ¬ f.1 < e.1

private theorem ordered_sorted (t : Table α) : Ordered (sorted t) := by
  refine (List.pairwise_mergeSort (fun a b c hab hbc => ?_) (fun a b => ?_) t).imp
    fun h => by simpa using h
  · simp only [Bool.not_eq_true', decide_eq_false_iff_not, String.not_lt] at hab hbc ⊢
    exact String.le_trans hab hbc
  · simp only [Bool.or_eq_true, Bool.not_eq_true', decide_eq_false_iff_not, String.not_lt]
    exact String.le_total a.1 b.1

/-- There is one order of entries whose names differ. -/
theorem eq_sorted_of_ordered (hnodup : (t.map Prod.fst).Nodup) (h : Ordered u) (hperm : u.Perm t) :
    u = sorted t := by
  refine (hperm.trans (sorted_perm t).symm).eq_of_pairwise (fun a b ha hb hab hba => ?_) h
    (ordered_sorted t)
  rw [String.not_lt] at hab hba
  exact List.inj_on_of_nodup_map hnodup (hperm.mem_iff.mp ha) ((sorted_perm t).mem_iff.mp hb)
    (String.le_antisymm hab hba)

/-- **Tables with the same entries are the same in order** if names differ. -/
theorem sorted_eq_of_perm (h : (t.map Prod.fst).Nodup) (htu : t.Perm u) : sorted t = sorted u :=
  (eq_sorted_of_ordered h (ordered_sorted u) ((sorted_perm u).trans htu.symm)).symm

/-- What is left out makes no difference to the order. -/
theorem filter_sorted (h : (t.map Prod.fst).Nodup) (p : String × α → Bool) :
    (sorted t).filter p = sorted (t.filter p) :=
  eq_sorted_of_ordered (h.sublist (List.filter_sublist.map Prod.fst))
    ((ordered_sorted t).sublist List.filter_sublist) ((sorted_perm t).filter p)

end RegistryBundle.Table
