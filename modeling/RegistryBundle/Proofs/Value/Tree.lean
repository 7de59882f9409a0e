import Mathlib.Data.List.Perm.Subperm
import RegistryBundle.Proofs.Value.Entries
import RegistryBundle.Value.Text

/-!
# Trees of plain values

The values that any document format knows: nulls, truth values, whole numbers and texts, in lists
and in mappings from texts, no part of which occurs twice.

* `Value.IsTree` are these values, `Value.IsTree.induction` is induction on them;
* `Value.Alike` is equality of them, the entries of a mapping in any order;
* `Value.ordered` puts the entries of every mapping in the order of their keys;
  `Value.alike_ordered` says that this changes nothing;
* `Value.plain_eq_self` says that no part of a tree has a label.
-/

namespace RegistryBundle.Value

/-! ## Trees -/

/-- The longest key of a tree. -/
def maxKeyLength : Nat := 100

mutual

/-- A value that every document format knows, no part of it shared. -/
def IsTree : Value → Prop
  | .null => True
  | .bool _ => True
  | .int n => (Nat.toDigits 10 n.natAbs).length ≤ maxDigits
  | .str _ => True
  | .list items => AreTrees items
  | .map entries => (entries.map Prod.fst).Nodup ∧ AreBranches entries
  | _ => False

/-- Items that are trees. -/
def AreTrees : List Value → Prop
  | [] => True
  | v :: rest => IsTree v ∧ AreTrees rest

/-- Entries from short texts to trees. -/
def AreBranches : List (Value × Value) → Prop
  | [] => True
  | (k, v) :: rest => (∃ s : String, k = .str s ∧
      s.length ≤ maxKeyLength) ∧ IsTree v ∧ AreBranches rest

end

theorem areBranches_iff {entries : List (Value × Value)} :
    AreBranches entries ↔
      ∀ e ∈ entries, (∃ s : String, e.1 = .str s ∧ s.length ≤ maxKeyLength) ∧ IsTree e.2 := by
  induction entries with
  | nil => simp [AreBranches]
  | cons e rest ih => simp [AreBranches, ih, and_assoc]

theorem AreBranches.textKeys {entries : List (Value × Value)} (h : AreBranches entries) :
    TextKeys entries := by
  intro e he
  obtain ⟨⟨s, hs, _⟩, _⟩ := areBranches_iff.mp h e he
  exact ⟨s, hs⟩

theorem areTrees_iff {items : List Value} : AreTrees items ↔ ∀ v ∈ items, IsTree v := by
  induction items with
  | nil => simp [AreTrees]
  | cons v rest ih => simp [AreTrees, ih]

/-- **Induction on a tree**: what holds of a list or a mapping if it holds of its
parts holds of every tree. -/
@[elab_as_elim]
theorem IsTree.induction {motive : (v : Value) → IsTree v → Prop}
    (null : motive .null trivial)
    (bool : ∀ b, motive (.bool b) trivial)
    (int : ∀ n (h : IsTree (.int n)), motive (.int n) h)
    (str : ∀ s, motive (.str s) trivial)
    (list : ∀ items (h : IsTree (.list items)), (∀ v ∈ items, ∀ hv : IsTree v, motive v hv) →
      motive (.list items) h)
    (map : ∀ entries (h : IsTree (.map entries)),
      (∀ e ∈ entries, ∀ he : IsTree e.2, motive e.2 he) → motive (.map entries) h) :
      ∀ (v : Value) (h : IsTree v), motive v h
  | .null, _ => null
  | .bool b, _ => bool b
  | .int n, h => int n h
  | .str s, _ => str s
  | .list items, h => list items h fun v _ hv => IsTree.induction null bool int str list map v hv
  | .map entries, h => map entries h fun e _ he =>
      IsTree.induction null bool int str list map e.2 he
termination_by v => sizeOf v
decreasing_by
  · have := List.sizeOf_lt_of_mem ‹v ∈ items›
    simp only [Value.list.sizeOf_spec]
    omega
  · have := List.sizeOf_lt_of_mem ‹e ∈ entries›
    have : sizeOf e.2 < sizeOf e := by
      cases e
      simp only [Prod.mk.sizeOf_spec]
      omega
    simp only [Value.map.sizeOf_spec]
    omega

mutual

/-- The value with the entries of every mapping in the order of their keys. -/
def ordered : Value → Value
  | .list items => .list (orderedItems items)
  | .map entries => .map (sortByKey (orderedEntries entries))
  | v => v

/-- Each item ordered. -/
def orderedItems : List Value → List Value
  | [] => []
  | v :: rest => ordered v :: orderedItems rest

/-- Each entry ordered, the entries where they stand. -/
def orderedEntries : List (Value × Value) → List (Value × Value)
  | [] => []
  | (k, v) :: rest => (k, ordered v) :: orderedEntries rest

end

@[simp] theorem ordered_bool (b : Bool) : ordered (.bool b) = .bool b := rfl

@[simp] theorem ordered_int (n : Int) : ordered (.int n) = .int n := rfl

@[simp] theorem ordered_str (s : String) : ordered (.str s) = .str s := rfl

private theorem orderedEntries_eq_map (entries : List (Value × Value)) :
    orderedEntries entries = entries.map fun e => (e.1, ordered e.2) := by
  induction entries with
  | nil => rfl
  | cons e rest ih => rw [orderedEntries, ih, List.map_cons]

/-- The order of the whole is the order of the entries. -/
theorem ordered_map {entries : List (Value × Value)} (h : TextKeys entries) :
    ordered (.map entries) = .map ((sortByKey entries).map fun e => (e.1, ordered e.2)) := by
  rw [ordered, orderedEntries_eq_map, sortByKey_map h]

mutual

/-- Two values are equal, the entries of a mapping in any order. -/
def Alike : Value → Value → Prop
  | .list xs, w => ∃ ys, w = .list ys ∧ AlikeItems xs ys
  | .map es, w => ∃ fs, w = .map fs ∧ es.length = fs.length ∧ AlikeEntries es fs
  | v, w => w = v

/-- As many items, each equal to the one in its place. -/
def AlikeItems : List Value → List Value → Prop
  | [], ys => ys = []
  | x :: xs, ys => ∃ y zs, ys = y :: zs ∧ Alike x y ∧ AlikeItems xs zs

/-- Each entry has an equal one under its key. -/
def AlikeEntries : List (Value × Value) → List (Value × Value) → Prop
  | [], _ => True
  | (k, v) :: rest, fs => (∃ w, (k, w) ∈ fs ∧ Alike v w) ∧ AlikeEntries rest fs

end

theorem alikeEntries_iff {es fs : List (Value × Value)} :
    AlikeEntries es fs ↔ ∀ e ∈ es, ∃ w, (e.1, w) ∈ fs ∧ Alike e.2 w := by
  induction es with
  | nil => simp [AlikeEntries]
  | cons e es ih => simp [AlikeEntries, ih]

/-- Equal mappings have the same keys. -/
theorem AlikeEntries.keys_perm {es fs : List (Value × Value)} (h : AlikeEntries es fs)
    (hlen : fs.length ≤ es.length) (nes : (es.map Prod.fst).Nodup) :
      (es.map Prod.fst).Perm (fs.map Prod.fst) := by
  rw [alikeEntries_iff] at h
  refine (List.subperm_of_subset nes fun k hk => ?_).perm_of_length_le (by simpa using hlen)
  obtain ⟨e, he, rfl⟩ := List.mem_map.mp hk
  obtain ⟨w, hw, _⟩ := h e he
  exact List.mem_map.mpr ⟨_, hw, rfl⟩

/-- So do mappings in which the same texts are found. -/
theorem keys_perm_of_get? {es fs : List (Value × Value)} (hes : TextKeys es) (hfs : TextKeys fs)
    (nes : (es.map Prod.fst).Nodup) (nfs : (fs.map Prod.fst).Nodup)
    (h : ∀ name, get? es name = none ↔ get? fs name = none) :
      (es.map Prod.fst).Perm (fs.map Prod.fst) := by
  have htext : ∀ name, .str name ∈ es.map Prod.fst ↔ .str name ∈ fs.map Prod.fst := by
    intro name
    rw [← not_iff_not, ← get?_eq_none_iff hes, ← get?_eq_none_iff hfs]
    exact h name
  refine (List.perm_ext_iff_of_nodup nes nfs).mpr fun k => ⟨fun hk => ?_, fun hk => ?_⟩
  · obtain ⟨s, rfl⟩ := hes.exists_str hk
    exact (htext s).mp hk
  · obtain ⟨s, rfl⟩ := hfs.exists_str hk
    exact (htext s).mpr hk

/-- **Mappings are equal exactly if the same texts hold equal values.** -/
theorem alike_map_iff {es fs : List (Value × Value)} (hes : TextKeys es) (hfs : TextKeys fs)
    (nes : (es.map Prod.fst).Nodup) (nfs : (fs.map Prod.fst).Nodup) :
    Alike (.map es) (.map fs) ↔ ∀ name, Option.Rel Alike (get? es name) (get? fs name) := by
  constructor
  · intro hparts name
    obtain ⟨gs, hgs, hlen, halike⟩ := hparts
    obtain rfl := Value.map.inj hgs
    have hperm := halike.keys_perm (Nat.le_of_eq hlen.symm) nes
    rw [alikeEntries_iff] at halike
    cases he : get? es name with
    | none =>
        rw [get?_eq_none_iff hes, hperm.mem_iff, ← get?_eq_none_iff hfs] at he
        rw [he]
        exact .none
    | some v =>
        obtain ⟨w, hw, hvw⟩ := halike _ (mem_of_get? hes he)
        rw [(get?_eq_some_iff hfs nfs).mpr hw]
        exact .some hvw
  · intro h
    have hperm : (es.map Prod.fst).Perm (fs.map Prod.fst) := by
      apply keys_perm_of_get? hes hfs nes nfs
      intro name
      generalize get? es name = x, get? fs name = y, h name = hxy
      cases hxy <;> simp
    refine ⟨fs, rfl, by simpa using hperm.length_eq, ?_⟩
    rw [alikeEntries_iff]
    intro e he
    obtain ⟨s, hs⟩ := hes e he
    have hget : get? es s = some e.2 := (get?_eq_some_iff hes nes).mpr (hs ▸ he)
    have hrel := h s
    rw [hget] at hrel
    cases hfound : get? fs s with
    | none =>
        rw [hfound] at hrel
        cases hrel
    | some w =>
        rw [hfound] at hrel
        cases hrel with
        | some hvw => exact ⟨w, hs ▸ mem_of_get? hfs hfound, hvw⟩

theorem orderedItems_eq_map (items : List Value) : orderedItems items = items.map ordered := by
  induction items with
  | nil => rfl
  | cons v rest ih => rw [orderedItems, ih, List.map_cons]

theorem alikeItems_map {items : List Value} {f : Value → Value} :
    AlikeItems items (items.map f) ↔ ∀ v ∈ items, Alike v (f v) := by
  induction items with
  | nil => simp [AlikeItems]
  | cons v rest ih =>
      rw [List.map_cons, AlikeItems, List.forall_mem_cons, ← ih]
      constructor
      · intro hparts
        obtain ⟨w, ws, heq, hw, hws⟩ := hparts
        obtain ⟨rfl, rfl⟩ := List.cons.inj heq
        exact ⟨hw, hws⟩
      · intro hparts
        obtain ⟨hw, hws⟩ := hparts
        exact ⟨_, _, rfl, hw, hws⟩

/-- **Putting entries in order changes nothing.** -/
theorem alike_ordered (v : Value) (h : IsTree v) : Alike v (ordered v) := by
  induction v, h using IsTree.induction with
  | null => rfl
  | bool b => rfl
  | int n h => rfl
  | str s => rfl
  | list items h ih =>
      refine ⟨_, by rw [ordered], ?_⟩
      rw [orderedItems_eq_map]
      exact alikeItems_map.mpr fun v hv => ih v hv (areTrees_iff.mp h v hv)
  | map entries h ih =>
      have hkeys := h.2.textKeys
      have hperm := sortByKey_perm entries
      rw [ordered_map hkeys]
      refine ⟨_, rfl, by rw [List.length_map, hperm.length_eq], ?_⟩
      rw [alikeEntries_iff]
      intro e he
      exact ⟨ordered e.2, List.mem_map.mpr ⟨e, hperm.mem_iff.mpr he, rfl⟩,
        ih e he (areBranches_iff.mp h.2 e he).2⟩

/-- The keys of ordered entries. -/
theorem keys_sorted_perm {entries : List (Value × Value)} (f : Value × Value → Value) :
    (((sortByKey entries).map fun e => (e.1, f e)).map Prod.fst).Perm (entries.map Prod.fst) := by
  rw [List.map_map]
  exact (sortByKey_perm _).map Prod.fst

/-- An ordered tree is a tree. -/
theorem isTree_ordered (v : Value) (h : IsTree v) : IsTree (ordered v) := by
  induction v, h using IsTree.induction with
  | null => exact trivial
  | bool b => exact trivial
  | int n h => exact h
  | str s => exact trivial
  | list items h ih =>
      rw [ordered, orderedItems_eq_map]
      apply areTrees_iff.mpr
      intro w hw
      obtain ⟨v, hv, rfl⟩ := List.mem_map.mp hw
      exact ih v hv (areTrees_iff.mp h v hv)
  | map entries h ih =>
      have hkeys := h.2.textKeys
      rw [ordered_map hkeys]
      refine ⟨(keys_sorted_perm _).nodup_iff.mpr h.1, areBranches_iff.mpr fun f hf => ?_⟩
      obtain ⟨e, he, rfl⟩ := List.mem_map.mp hf
      have hmem : e ∈ entries := (sortByKey_perm _).mem_iff.mp he
      obtain ⟨hkey, hvalue⟩ := areBranches_iff.mp h.2 e hmem
      exact ⟨hkey, ih e hmem hvalue⟩

/-! ## Labels -/

private theorem plainItems_eq_map (items : List Value) : plainItems items = items.map plain := by
  induction items with
  | nil => rfl
  | cons v rest ih => rw [plainItems, ih, List.map_cons]

private theorem plainEntries_eq_map (entries : List (Value × Value)) :
    plainEntries entries = entries.map fun e => (e.1.plain, e.2.plain) := by
  induction entries with
  | nil => rfl
  | cons e rest ih => rw [plainEntries, ih, List.map_cons]

/-- No part of a tree has a label. -/
theorem plain_eq_self (v : Value) (h : IsTree v) : v.plain = v := by
  induction v, h using IsTree.induction with
  | null => rfl
  | bool => rfl
  | int => rfl
  | str => rfl
  | list items h ih =>
      rw [plain, plainItems_eq_map, List.map_congr_left fun v hv =>
        ih v hv (areTrees_iff.mp h v hv), List.map_id']
  | map entries h ih =>
      have hentry : ∀ e ∈ entries, (e.1.plain, e.2.plain) = e := by
        intro e he
        obtain ⟨⟨s, hs, -⟩, hv⟩ := areBranches_iff.mp h.2 e he
        rw [ih e he hv, hs]
        exact Prod.ext hs.symm rfl
      rw [plain, plainEntries_eq_map, List.map_congr_left hentry, List.map_id']

end RegistryBundle.Value
