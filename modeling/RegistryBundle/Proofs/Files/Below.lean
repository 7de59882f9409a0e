import RegistryBundle.Proofs.Files.Tree

/-!
# What a directory holds

A directory that holds certain files, the directories that lead to them, and nothing else.

* `Tree.HoldsBelow` says so, by the names that lead to the files from there;
  `Tree.EmptyAt` is the empty directory;
* `Tree.HoldsBelow.lookup` finds a file again;
* `Tree.HoldsBelow.gain` is one file more, apart from those that are there.
-/

namespace RegistryBundle

/-- The path of names below a path. -/
def FilePath.below (p : FilePath) (names : List String) : FilePath :=
  { p with names := p.names ++ names }

namespace Tree

variable {t t' : Tree} {p : FilePath} {place here : Place} {names : List String} {c : Content}

/-! ## Ways through directories -/

/-- Names are followed one part after another. -/
theorem walk_append (t : Tree) (here : Place) (names more : List String) :
    t.walk here (names ++ more) = t.walk here names >>= fun there => t.walk there more := by
  induction names generalizing here with
  | nil => rfl
  | cons name rest ih =>
      rw [List.cons_append, walk, walk]
      split
      · exact ih _
      · rfl
      · rfl

theorem resolve_below (h : t.resolve p = .ok here) (names : List String) :
    t.resolve (p.below names) = t.walk here names := by
  have hwalk : t.resolve (p.below names) = t.resolve p >>= fun there => t.walk there names :=
    t.walk_append _ p.names names
  rw [hwalk, h, Outcome.ok_bind]

/-- Names lead down if every place before the last is a directory. -/
theorem walk_of_directories (hdown : ".." ∉ names)
    (h : ∀ before, before <+: names → before ≠ names →
      t.occupant? (here ++ before) = some .directory) :
    t.walk here names = .ok (here ++ names) := by
  induction names generalizing here with
  | nil => rw [walk, List.append_nil]
  | cons name rest ih =>
      rw [List.mem_cons, not_or] at hdown
      have hhere : t.occupant? here = some .directory := by
        have := h [] List.nil_prefix (List.cons_ne_nil name rest).symm
        rwa [List.append_nil] at this
      rw [walk, hhere, if_neg (Ne.symm hdown.1)]
      simp only
      rw [ih hdown.2, List.append_assoc, List.singleton_append]
      intro before hbefore hne
      rw [List.append_assoc, List.singleton_append]
      exact h (name :: before) (List.cons_prefix_cons.mpr ⟨rfl, hbefore⟩) fun heq =>
        hne (List.cons.inj heq).2

/-! ## What is at the end of a path -/

/-- A path to a directory leads to its place. -/
theorem resolve_of_lookup {o : Occupant} (h : t.lookup p = .ok o) :
    t.resolve p = .ok (p.place t.home) := by
  rw [lookup] at h
  obtain ⟨place, hplace, -⟩ := Outcome.bind_eq_ok.mp h
  rw [hplace, resolve_ok hplace]

/-- A directory that is there need not be made. -/
theorem ensureDirectory_of_lookup (h : t.lookup p = .ok .directory) :
    t.ensureDirectory p = .ok t := by
  have hmake : t.makeDirectory p = .error .occupied := by
    rw [makeDirectory, resolve_of_lookup h, Outcome.ok_bind, lookup_ok h]
    rfl
  have hdirectory : t.isDirectory p = true := by rw [isDirectory, h]
  rw [ensureDirectory, hmake, hdirectory]
  rfl

/-- Where nothing is a directory can be made. -/
theorem ensureDirectory_of_free (h : t.resolve p = .ok place) (hfree : t.occupant? place = none) :
    t.ensureDirectory p = .ok { t with directories := t.directories ++ [place] } := by
  have hmake : t.makeDirectory p = .ok { t with directories := t.directories ++ [place] } := by
    rw [makeDirectory, h, Outcome.ok_bind, hfree]
    rfl
  rw [ensureDirectory, hmake]

theorem makeDirectories_of_ensure (h : t.ensureDirectory p = .ok t') (depth : Nat) :
    makeDirectories depth t p = (.ok (), t') := by
  cases depth <;> rw [makeDirectories, h]

/-- A file can be written where no directory is. -/
theorem write_of_resolve (h : t.resolve p = .ok place) (hfree : t.occupant? place ≠ some .directory)
    (c : Content) :
    t.write p c = .ok { t with files := putFile place c t.files } := by
  rw [write, h, Outcome.ok_bind]
  split
  · next hdirectory => exact absurd hdirectory hfree
  · rfl

/-! ## Files below a directory -/

/-- Neither of two files lies on the way to the other. -/
def Apart (names other : List String) : Prop :=
  ¬ names <+: other ∧ ¬ other <+: names

/-- A directory holds files by the names that lead to them, the directories on
the way, and nothing else. -/
structure HoldsBelow (t : Tree) (place : Place) (files : List (List String × Content)) : Prop where
  directory : t.occupant? place = some .directory
  there : ∀ f ∈ files, t.occupant? (place ++ f.1) = some (.file f.2)
  way : ∀ f ∈ files, ∀ names, names <+: f.1 → names ≠ f.1 →
    t.occupant? (place ++ names) = some .directory
  free : ∀ names, names ≠ [] → (∀ f ∈ files, ¬ names <+: f.1) → t.occupant? (place ++ names) = none

/-- A path leads to a directory with nothing below it. -/
structure EmptyAt (t : Tree) (p : FilePath) : Prop where
  directory : t.lookup p = .ok .directory
  free : ∀ names, names ≠ [] → t.occupant? (p.place t.home ++ names) = none

theorem EmptyAt.holdsBelow (h : t.EmptyAt p) : t.HoldsBelow (p.place t.home) [] where
  directory := lookup_ok h.directory
  there _ hf := absurd hf List.not_mem_nil
  way _ hf := absurd hf List.not_mem_nil
  free names hne _ := h.free names hne

variable {files : List (List String × Content)} {f : List String × Content}

/-- A file that is held is found. -/
theorem HoldsBelow.lookup (h : t.HoldsBelow place files) (hp : t.resolve p = .ok place)
    (hf : f ∈ files)
    (hdown : ".." ∉ f.1) : t.lookup (p.below f.1) = .ok (.file f.2) := by
  refine lookup_of_resolve ?_ (h.there f hf)
  rw [resolve_below hp]
  exact walk_of_directories hdown (h.way f hf)

/-- A tree has one file more, and the directory that it is in. -/
def Gains (t t' : Tree) (here : Place) (name : String) (c : Content) : Prop :=
  ∀ other, t'.occupant? other =
    if other = here ++ [name] then some (.file c) else if other = here then some .directory
      else t.occupant? other

variable {before : List String} {name : String}

/-- What is where a file that is apart from the others has its directory:
nothing, or a directory. -/
theorem HoldsBelow.directory_or_free (h : t.HoldsBelow place files)
    (hapart : ∀ f ∈ files, Apart f.1 (before ++ [name])) :
    t.occupant? (place ++ before) = some .directory ∨ t.occupant? (place ++ before) = none := by
  by_cases hon : ∃ f ∈ files, before <+: f.1
  · obtain ⟨f, hf, hbefore⟩ := hon
    refine .inl (h.way f hf before hbefore fun heq => ?_)
    exact (hapart f hf).1 (heq ▸ List.prefix_append before [name])
  · by_cases hnil : before = []
    · rw [hnil, List.append_nil]
      exact .inl h.directory
    · exact .inr (h.free before hnil fun f hf hbefore => hon ⟨f, hf, hbefore⟩)

/-- Nothing is where a file that is apart from the others goes. -/
theorem HoldsBelow.free_of_apart (h : t.HoldsBelow place files) (hne : names ≠ [])
    (hapart : ∀ f ∈ files, Apart f.1 names) : t.occupant? (place ++ names) = none :=
  h.free names hne fun f hf => (hapart f hf).2

/-- **One file more** that is apart from the others, in the directory itself or in one below it. -/
theorem HoldsBelow.gain (h : t.HoldsBelow place files) (hbefore : before.length ≤ 1)
    (hapart : ∀ f ∈ files, Apart f.1 (before ++ [name]))
    (hgains : t.Gains t' (place ++ before) name c) :
    t'.HoldsBelow place (files ++ [(before ++ [name], c)]) := by
  have hcases : ∀ names, t'.occupant? (place ++ names) =
      if names = before ++ [name] then some (.file c) else if names = before then some .directory
      else t.occupant? (place ++ names) := by
    intro names
    rw [hgains, List.append_assoc]
    simp only [List.append_cancel_left_eq]
  have hdirectory : ∀ names, names ≠ before ++ [name] →
    t.occupant? (place ++ names) = some .directory →
      t'.occupant? (place ++ names) = some .directory := by
    intro names hne hwas
    rw [hcases, if_neg hne, hwas, ite_self]
  constructor
  · have := hdirectory [] (List.append_ne_nil_of_right_ne_nil before
      (List.cons_ne_nil name [])).symm
    rw [List.append_nil] at this
    exact this h.directory
  · intro f hf
    rcases List.mem_append.mp hf with hf | hf
    · have hne : f.1 ≠ before ++ [name] := fun heq => (hapart f hf).1 (heq ▸ List.prefix_rfl)
      have hnot : f.1 ≠ before := fun heq => (hapart f hf).1 (heq ▸ List.prefix_append f.1 [name])
      rw [hcases, if_neg hne, if_neg hnot, h.there f hf]
    · rw [List.mem_singleton.mp hf, hcases, if_pos rfl]
  · intro f hf names hway hne
    rcases List.mem_append.mp hf with hf | hf
    · exact hdirectory names (fun heq => (hapart f hf).2 (heq ▸ hway)) (h.way f hf names hway hne)
    · rw [List.mem_singleton.mp hf] at hway hne
      by_cases hlast : names = before
      · rw [hcases, if_neg hne, if_pos hlast]
      · -- The directory is at most one name deep, so what leads to it is the place itself.
        have hinside := (List.prefix_concat_iff.mp hway).resolve_left hne
        have hshort : names.length < before.length :=
          Nat.lt_of_le_of_ne hinside.length_le fun heq => hlast (hinside.eq_of_length heq)
        have hnil : names = [] := List.length_eq_zero_iff.mp (by omega)
        refine hdirectory names hne ?_
        rw [hnil, List.append_nil]
        exact h.directory
  · intro names hne hfree
    have hself := hfree _ (List.mem_append_right files (List.mem_singleton.mpr rfl))
    have hnot : names ≠ before ++ [name] := fun heq => hself (heq ▸ List.prefix_rfl)
    have hnotBefore : names ≠ before := fun heq => hself (heq ▸ List.prefix_append names [name])
    rw [hcases, if_neg hnot, if_neg hnotBefore]
    exact h.free names hne fun f hf => hfree f (List.mem_append_left _ hf)

end Tree

end RegistryBundle
