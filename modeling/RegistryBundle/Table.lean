/-!
# Tables

Things by name, in the order in which their names came.

* `Table.put` replaces what stands under a name and leaves it in its place; `lookup_put_self` and
  `lookup_put_other` say what stands where after that;
* `Table.ofList` writes entries one after another; their names differ then
  (`Table.nodup_ofList`).
-/

namespace RegistryBundle

/-- Things by name. -/
abbrev Table (α : Type) (κ : Type := String) := List (κ × α)

namespace Table

section Names

variable {κ : Type} [DecidableEq κ]

/-- The table with `a` under a name: in the place of an entry of that name, else at the end. -/
def put (name : κ) (a : α) : Table α κ → Table α κ
  | [] => [(name, a)]
  | e :: rest => if e.1 = name then (name, a) :: rest else e :: put name a rest

/-- The table with the entries of another written into it. -/
def update (t entries : Table α κ) : Table α κ :=
  entries.foldl (fun t e => put e.1 e.2 t) t

/-- The table that entries make when they are written one after another. -/
def ofList (entries : Table α κ) : Table α κ :=
  update [] entries

/-- The names after a write are that of the write and those of before. -/
theorem mem_names_put {name n : κ} {a : α} {t : Table α κ} (h : n ∈ (put name a t).map Prod.fst) :
    n = name ∨ n ∈ t.map Prod.fst := by
  induction t with
  | nil => exact .inl (List.mem_singleton.mp h)
  | cons e rest ih =>
    rw [put] at h
    split at h
    · next he => exact .inr (by rwa [List.map_cons, he])
    · rcases List.mem_cons.mp h with rfl | h
      · exact .inr List.mem_cons_self
      · exact (ih h).imp_right (List.mem_cons_of_mem _)

/-- A write leaves names that differ. -/
theorem nodup_put {t : Table α κ} (h : (t.map Prod.fst).Nodup) (name : κ) (a : α) :
    ((put name a t).map Prod.fst).Nodup := by
  induction t with
  | nil => exact List.pairwise_singleton _ name
  | cons e rest ih =>
    obtain ⟨hnew, hrest⟩ := List.nodup_cons.mp h
    rw [put]
    split
    · next he => exact he ▸ h
    · next he =>
      refine List.nodup_cons.mpr ⟨fun hmem => ?_, ih hrest⟩
      exact (mem_names_put hmem).elim he hnew

/-- So do several. -/
theorem nodup_update {t : Table α κ} (h : (t.map Prod.fst).Nodup) (entries : Table α κ) :
    ((update t entries).map Prod.fst).Nodup := by
  induction entries generalizing t with
  | nil => exact h
  | cons e rest ih => exact ih (nodup_put h e.1 e.2)

/-- A table that entries make has different names. -/
theorem nodup_ofList (entries : Table α κ) : ((ofList entries).map Prod.fst).Nodup :=
  nodup_update (t := []) List.Pairwise.nil entries

end Names

/-- The table without a name. -/
def erase (name : String) (t : Table α) : Table α :=
  t.filter fun e => e.1 != name

/-- Under the name just written stands what was written. -/
theorem lookup_put_self (name : String) (a : α) (t : Table α) :
    (put name a t).lookup name = some a := by
  induction t with
  | nil => simp [put]
  | cons e rest ih =>
    obtain ⟨n, b⟩ := e
    by_cases h : n = name
    · simp [put, h]
    · have h' : (name == n) = false := by simpa using Ne.symm h
      simp [put, h, List.lookup_cons, h', ih]

/-- Nothing stands under a name that was erased. -/
theorem lookup_erase_self (name : String) (t : Table α) : (erase name t).lookup name = none := by
  induction t with
  | nil => rfl
  | cons e rest ih =>
    by_cases h : e.1 = name
    · simpa [erase, List.filter_cons, h] using ih
    · have h' : (name == e.1) = false := by simpa using Ne.symm h
      have hcons : erase name (e :: rest) = e :: erase name rest := by simp [erase, h]
      rw [hcons, List.lookup_cons, h']
      exact ih

/-- A write under one name changes nothing under another. -/
theorem lookup_put_other {name other : String} (h : name ≠ other) (a : α) (t : Table α) :
    (put name a t).lookup other = t.lookup other := by
  have ho : (other == name) = false := by simpa using Ne.symm h
  induction t with
  | nil => simp [put, List.lookup_cons, ho]
  | cons e rest ih =>
    obtain ⟨n, b⟩ := e
    by_cases hn : n = name
    · subst hn
      simp [put, List.lookup_cons, ho]
    · by_cases hm : (other == n) = true
      · simp [put, hn, List.lookup_cons, hm]
      · simp [put, hn, List.lookup_cons, hm, ih]

end Table

end RegistryBundle
