import RegistryBundle.Files.Tree
import RegistryBundle.Proofs.Outcome

/-!
# What changes of a tree leave as it is

Directories that are there stay there, and no file changes but the one that is written.

* `FilePath.place` is the place of a path by its names alone; a path that leads anywhere leads there
  (`Tree.resolve_ok`);
* `Tree.Spares` says that a later tree has all directories of an earlier one and, at
  some places, the same files;
* `Tree.spares_makeDirectories` and `Tree.spares_write` say it of the changes there are,
  `Tree.lookup_write` that what was written is found.
-/

namespace RegistryBundle

namespace Tree

/-! ## Places of paths -/

/-- The place to which names lead from another if every place on the way is a directory. -/
def destination : Place → List String → Place
  | here, [] => here
  | here, name :: rest => destination (if name = ".." then here.dropLast else here ++ [name]) rest

/-- Names that lead on from where others lead. -/
theorem destination_append (here : Place) (names more : List String) :
    destination here (names ++ more) = destination (destination here names) more := by
  induction names generalizing here with
  | nil => rfl
  | cons name rest ih => rw [List.cons_append, destination, ih, destination]

/-- Names that never lead back are those of the place. -/
theorem destination_of_notMem {names : List String} (h : ".." ∉ names) (here : Place) :
    destination here names = here ++ names := by
  induction names generalizing here with
  | nil => rw [destination, List.append_nil]
  | cons name rest ih =>
      rw [List.mem_cons, not_or] at h
      rw [destination, if_neg (Ne.symm h.1), ih h.2, List.append_assoc, List.singleton_append]

end Tree

/-- The place of a path by its names alone, from the working directory `home`. -/
def FilePath.place (home : Place) (p : FilePath) : Place :=
  Tree.destination (if p.absolute then [] else home) p.names

/-- Different names below a directory lead to different places. -/
theorem FilePath.place_ne {directory : FilePath} {names other : List String} (hnames : ".." ∉ names)
    (hother : ".." ∉ other) (h : names ≠ other) (home : Place) :
    FilePath.place home { directory with names := directory.names ++ names } ≠
      FilePath.place home { directory with names := directory.names ++ other } := by
  simp only [place, Tree.destination_append, Tree.destination_of_notMem hnames,
    Tree.destination_of_notMem hother]
  exact fun heq => h (List.append_cancel_left heq)

namespace Tree

variable {t t' : Tree} {p : FilePath} {c : Content} {place other : Place} {kept : Place → Prop}

private theorem walk_ok {here : Place} {names : List String} (h : t.walk here names = .ok place) :
    place = destination here names := by
  induction names generalizing here with
  | nil => exact (Except.ok.inj h).symm
  | cons name rest ih =>
      rw [walk] at h
      split at h
      · exact ih h
      · exact absurd h (by simp)
      · exact absurd h (by simp)

/-- A path that leads anywhere leads to its place. -/
theorem resolve_ok (h : t.resolve p = .ok place) : place = p.place t.home :=
  walk_ok h

/-- What the file at a place holds. -/
def content? (t : Tree) (place : Place) : Option Content :=
  match t.occupant? place with
  | some (.file c) => some c
  | _ => none

theorem content?_of_occupant (h : t.occupant? place = some (.file c)) :
    t.content? place = some c := by
  rw [content?, h]

/-- At the end of a path stands what its place holds. -/
theorem lookup_ok {o : Occupant} (h : t.lookup p = .ok o) :
    t.occupant? (p.place t.home) = some o := by
  rw [lookup] at h
  obtain ⟨place, hplace, h⟩ := Outcome.bind_eq_ok.mp h
  rw [← resolve_ok hplace]
  split at h
  · next hsome => rw [hsome, Except.ok.inj h]
  · exact absurd h (by simp)

theorem lookup_of_resolve {o : Occupant} (h : t.resolve p = .ok place)
    (ho : t.occupant? place = some o) :
    t.lookup p = .ok o := by
  rw [lookup, h, Outcome.ok_bind, ho]
  rfl

/-! ## Later trees -/

/-- A later tree: the working directory is the same, directories are still there, and the files at
the places `kept` are as they were. -/
structure Spares (kept : Place → Prop) (t t' : Tree) : Prop where
  home : t'.home = t.home
  directory : ∀ place, t.occupant? place = some .directory → t'.occupant? place = some .directory
  content : ∀ place, kept place → t'.content? place = t.content? place

theorem Spares.refl (kept : Place → Prop) (t : Tree) : t.Spares kept t where
  home := rfl
  directory _ h := h
  content _ _ := rfl

theorem Spares.trans {t'' : Tree} (h : t.Spares kept t') (h' : t'.Spares kept t'') :
    t.Spares kept t'' where
  home := h'.home.trans h.home
  directory place hplace := h'.directory place (h.directory place hplace)
  content place hplace := (h'.content place hplace).trans (h.content place hplace)

/-- A way through directories stays open. -/
theorem Spares.walk (h : t.Spares kept t') {here : Place} {names : List String}
    (hw : t.walk here names = .ok place) : t'.walk here names = .ok place := by
  induction names generalizing here with
  | nil => exact hw
  | cons name rest ih =>
      rw [Tree.walk] at hw ⊢
      split at hw
      · next hdirectory =>
          rw [h.directory here hdirectory]
          exact ih hw
      · exact absurd hw (by simp)
      · exact absurd hw (by simp)

theorem Spares.resolve (h : t.Spares kept t') (hp : t.resolve p = .ok place) :
    t'.resolve p = .ok place := by
  rw [Tree.resolve, h.home]
  exact h.walk hp

/-! ## Directories -/

/-- What is at a place after a directory was made. -/
theorem occupant?_addDirectory (t : Tree) (place other : Place) :
    ({ t with directories := t.directories ++ [place] } : Tree).occupant? other =
      if other = place then some .directory else t.occupant? other := by
  by_cases h : other = place
  · simp [occupant?, h]
  · simp [occupant?, h]

/-- A new directory takes the place of nothing. -/
theorem spares_makeDirectory (h : t.makeDirectory p = .ok t') : t.Spares kept t' := by
  rw [makeDirectory] at h
  obtain ⟨place, -, h⟩ := Outcome.bind_eq_ok.mp h
  split at h
  · exact absurd h (by simp)
  · next hfree =>
      obtain rfl := Except.ok.inj h
      refine ⟨rfl, fun other hother => ?_, fun other _ => ?_⟩
      · rw [occupant?_addDirectory, hother, ite_self]
      · rw [content?, content?, occupant?_addDirectory]
        by_cases heq : other = place
        · rw [if_pos heq, heq, hfree]
        · rw [if_neg heq]

theorem spares_ensureDirectory (h : t.ensureDirectory p = .ok t') : t.Spares kept t' := by
  rw [ensureDirectory] at h
  split at h
  · next hmade =>
      obtain rfl := Except.ok.inj h
      exact spares_makeDirectory hmade
  · split at h
    · obtain rfl := Except.ok.inj h
      exact .refl kept t
    · exact absurd h (by simp)

/-- **Making directories changes no file**, whether it succeeds or not. -/
theorem spares_makeDirectories (kept : Place → Prop) (depth : Nat) (t : Tree) (p : FilePath) :
    t.Spares kept (makeDirectories depth t p).2 := by
  induction depth generalizing t p with
  | zero =>
      rw [makeDirectories]
      split
      · next h => exact spares_ensureDirectory h
      · exact .refl kept t
  | succ depth ih =>
      rw [makeDirectories]
      split
      · next h => exact spares_ensureDirectory h
      · have hparent := ih t p.parent
        split
        · next h => exact h ▸ hparent
        · next h =>
            replace hparent := h ▸ hparent
            split
            · next hmade => exact hparent.trans (spares_ensureDirectory hmade)
            · exact hparent
      · exact .refl kept t

/-! ## Files -/

/-- A write says where it goes. -/
theorem write_ok (h : t.write p c = .ok t') :
    ∃ place, t.resolve p = .ok place ∧ t.occupant? place ≠ some .directory ∧
      t' = { t with files := putFile place c t.files } := by
  rw [write] at h
  obtain ⟨place, hplace, h⟩ := Outcome.bind_eq_ok.mp h
  split at h
  · exact absurd h (by simp)
  · next hfile => exact ⟨place, hplace, hfile, (Except.ok.inj h).symm⟩

/-- What is at the place of a file that was written. -/
theorem occupant?_putFile_self (h : t.occupant? place ≠ some .directory) (c : Content) :
    ({ t with files := putFile place c t.files } : Tree).occupant? place = some (.file c) := by
  rw [occupant?] at h ⊢
  split
  · next hdirectory => exact absurd (if_pos hdirectory) h
  · rw [find?_putFile_self]
    rfl

/-- What is at another place. -/
theorem occupant?_putFile_other (t : Tree) (h : place ≠ other) (c : Content) :
    ({ t with files := putFile place c t.files } : Tree).occupant? other = t.occupant? other := by
  rw [occupant?, occupant?, find?_putFile_other h]

/-- **A write changes no file but its own.** -/
theorem spares_write (h : t.write p c = .ok t') (hkept : ¬ kept (p.place t.home)) :
    t.Spares kept t' := by
  obtain ⟨place, hplace, hfile, rfl⟩ := write_ok h
  rw [← resolve_ok hplace] at hkept
  refine ⟨rfl, fun other hother => ?_, fun other hother => ?_⟩
  · have hne : place ≠ other := by
      intro heq
      subst heq
      exact hfile hother
    rw [occupant?_putFile_other t hne, hother]
  · have hne : place ≠ other := by
      intro heq
      subst heq
      exact hkept hother
    rw [content?, content?, occupant?_putFile_other t hne]

/-- **What was written is found.** -/
theorem lookup_write (h : t.write p c = .ok t') : t'.lookup p = .ok (.file c) := by
  have hspares : t.Spares (fun _ => False) t' := spares_write h id
  obtain ⟨place, hplace, hfile, rfl⟩ := write_ok h
  exact lookup_of_resolve (hspares.resolve hplace) (occupant?_putFile_self hfile c)

end Tree

end RegistryBundle
