import RegistryBundle.Proofs.Files.Below
import RegistryBundle.Proofs.Output.Failures
import RegistryBundle.Proofs.Pass.Series

/-!
# Writing all of a pass or nothing

Into an empty directory every file of a pass can be written but one: the secret keys come
last, and their page cannot be made if some octets of the snapshot encode no text. What was
written until then stays.

* `Writing.writeFile_gains` is one file, `Writing.holdsBelow_mapM` any number of them that are apart
  from one another;
* `Artifacts.Distinct` says that the files of a pass have different names (`Pass.distinct_of_run`),
  so that they are apart (`Artifacts.apart_files`);
* `Artifacts.write_of_legible` and `Artifacts.write_of_not_legible` are the files of a pass;
* `Pass.write_all_or_nothing_iff` is the main statement.
-/

namespace RegistryBundle

open RegistryBundle.Action RegistryBundle.Tree

/-! ## Files in a directory -/

namespace Writing

variable {t t' : Tree} {p directory : FilePath} {place here : Place} {c : Content} {name : String}
  {before files : List (List String × Content)}

/-- A file is written once its directory is there. -/
theorem run_writeFile (hmade : Tree.makeDirectories p.parent.names.length t p.parent = (.ok (), t'))
    {after : Tree} (hwrite : t'.write p c = .ok after) :
      (writeFile p c).run.run t = (.ok p, after) := by
  have hdirectory : (makeDirectories p.parent).run.run t = (.ok (), t') := by
    rw [makeDirectories, run_change, hmade]
  rw [writeFile, Outcome.run_bind, hdirectory]
  simp only
  rw [Outcome.run_bind, run_change, hwrite]
  rfl

/-- **One file**, where nothing is, in a directory that is there or can be made. -/
theorem writeFile_gains (hp : t.resolve p = .ok here)
    (hhere : t.occupant? here = some .directory ∨ t.occupant? here = none) (hname : name ≠ "..")
    (hfree : t.occupant? (here ++ [name]) = none) (c : Content) :
    ∃ t', (writeFile (p.child name) c).run.run t = (.ok (p.child name), t') ∧
      t.Gains t' here name c := by
  have hparent : (p.child name).parent = p := by
    rw [FilePath.parent, FilePath.child, List.dropLast_concat]
  have hnot : here ++ [name] ≠ here := by simp
  obtain ⟨made, hmade, hoccupant⟩ : ∃ made, t.ensureDirectory p = .ok made ∧
      ∀ other, made.occupant? other = if other = here then some .directory
        else t.occupant? other := by
    rcases hhere with hthere | hnone
    · refine ⟨t, ensureDirectory_of_lookup (lookup_of_resolve hp hthere), fun other => ?_⟩
      by_cases heq : other = here
      · rw [if_pos heq, heq, hthere]
      · rw [if_neg heq]
    · exact ⟨_, ensureDirectory_of_free hp hnone, t.occupant?_addDirectory here⟩
  have hresolve : made.resolve (p.child name) = .ok (here ++ [name]) := by
    have hspares : t.Spares (fun _ => False) made := spares_ensureDirectory hmade
    have hstays : made.resolve p = .ok here := hspares.resolve hp
    have hdirectory : made.occupant? here = some .directory := by rw [hoccupant, if_pos rfl]
    have hwalk : made.resolve (p.child name) = made.walk here [name] := resolve_below hstays [name]
    rw [hwalk, walk, hdirectory, if_neg hname]
    rfl
  have hnone : made.occupant? (here ++ [name]) = none := by rw [hoccupant, if_neg hnot, hfree]
  have hnotDirectory : made.occupant? (here ++ [name]) ≠ some .directory := by
    rw [hnone]
    exact Option.some_ne_none _ ∘ Eq.symm
  refine ⟨_, run_writeFile ?_ (write_of_resolve hresolve hnotDirectory c), fun other => ?_⟩
  · rw [hparent]
    exact makeDirectories_of_ensure hmade _
  · by_cases hself : other = here ++ [name]
    · rw [if_pos hself, hself, occupant?_putFile_self hnotDirectory]
    · rw [if_neg hself, occupant?_putFile_other _ (Ne.symm hself), hoccupant]

/-- Names that lead to a file in a directory or in one below it. -/
def Near (names : List String) : Prop :=
  ∃ before name, names = before ++ [name] ∧ before.length ≤ 1 ∧ ".." ∉ names

/-- One file more below a directory. -/
theorem holdsBelow_writeFile (hp : t.resolve directory = .ok place) (h : t.HoldsBelow place before)
    {names : List String} (hnear : Near names) (hapart : ∀ f ∈ before, Apart f.1 names)
    (c : Content) :
    ∃ t', (writeFile (directory.below names) c).run.run t = (.ok (directory.below names), t') ∧
      t'.resolve directory = .ok place ∧ t'.HoldsBelow place (before ++ [(names, c)]) := by
  obtain ⟨way, name, rfl, hway, hdown⟩ := hnear
  have hchild : directory.below (way ++ [name]) = (directory.below way).child name := by
    rw [FilePath.below, FilePath.child, FilePath.below, List.append_assoc]
  have hdirectory : t.resolve (directory.below way) = .ok (place ++ way) := by
    rw [resolve_below hp]
    refine walk_of_directories (fun hmem => hdown (List.mem_append_left _ hmem))
      fun others hothers hne => ?_
    have hnil : others = [] := by
      have hshort : others.length < way.length :=
        Nat.lt_of_le_of_ne hothers.length_le fun heq => hne (hothers.eq_of_length heq)
      exact List.length_eq_zero_iff.mp (by omega)
    rw [hnil, List.append_nil]
    exact h.directory
  have hfree : t.occupant? (place ++ way ++ [name]) = none := by
    rw [List.append_assoc]
    exact h.free_of_apart (List.append_ne_nil_of_right_ne_nil way (List.cons_ne_nil name [])) hapart
  obtain ⟨t', hrun, hgains⟩ := writeFile_gains hdirectory (h.directory_or_free hapart)
    (fun heq => hdown (heq ▸ List.mem_append_right way (List.mem_singleton.mpr rfl))) hfree c
  rw [← hchild] at hrun
  have hspares : t.Spares (fun _ => False) t' := (spares_writeFile id c).after rfl hrun
  exact ⟨t', hrun, hspares.resolve hp, h.gain hway hapart hgains⟩

/-- **Any number of files** that are apart from one another. -/
theorem holdsBelow_mapM (hp : t.resolve directory = .ok place) (h : t.HoldsBelow place before)
    (hnear : ∀ f ∈ files, Near f.1) (hapart : ((before ++ files).map Prod.fst).Pairwise Apart) :
    ∃ paths t', (files.mapM fun f => writeFile (directory.below f.1) f.2).run.run t =
      (.ok paths, t') ∧ t'.resolve directory = .ok place ∧
      t'.HoldsBelow place (before ++ files) := by
  induction files generalizing before t with
  | nil =>
      refine ⟨[], t, rfl, hp, ?_⟩
      rwa [List.append_nil]
  | cons f files ih =>
      have hothers : ∀ g ∈ before, Apart g.1 f.1 := by
        rw [List.map_append] at hapart
        intro g hg
        exact (List.pairwise_append.mp hapart).2.2 _ (List.mem_map_of_mem hg) _
          (List.mem_map_of_mem (List.mem_cons_self (l := files)))
      obtain ⟨first, hrun, hplace, hholds⟩ :=
        holdsBelow_writeFile hp h (hnear f List.mem_cons_self) hothers f.2
      rw [List.append_cons] at hapart ⊢
      obtain ⟨paths, t', hrest, hdone⟩ :=
        ih hplace hholds (fun g hg => hnear g (List.mem_cons_of_mem f hg)) hapart
      refine ⟨directory.below f.1 :: paths, t', ?_, hdone⟩
      rw [List.mapM_cons, Outcome.run_bind, hrun]
      simp only
      rw [Outcome.run_bind, hrest]
      rfl

end Writing

/-! ## The files of a pass -/

/-- The files of a pass have different names. -/
structure Artifacts.Distinct (made : Artifacts) : Prop where
  config : (made.configFiles.map Prod.fst).Nodup
  components : (made.serviceFiles.map Prod.fst).Nodup
  service : ∀ e ∈ made.serviceFiles, (e.2.map Prod.fst).Nodup

namespace Pass

variable {settings : Settings} {now : Moment} {r : Request} {s s' : Session} {made : Artifacts}

private theorem nodup_putService {services : List (Component × Table String)}
    (h : (services.map Prod.fst).Nodup)
    (c : Component) (files : Table String) :
      ((putService c files services).map Prod.fst).Nodup := by
  induction services with
  | nil => exact List.nodup_cons.mpr ⟨List.not_mem_nil, List.nodup_nil⟩
  | cons e rest ih =>
      rw [List.map_cons, List.nodup_cons] at h
      rw [putService]
      split
      · next heq => exact List.nodup_cons.mpr ⟨heq ▸ h.1, h.2⟩
      · next hne =>
          refine List.nodup_cons.mpr ⟨fun hmem => ?_, ih h.2⟩
          obtain ⟨g, hg, heq⟩ := List.mem_map.mp hmem
          rcases mem_putService hg with rfl | hg
          · exact hne heq.symm
          · exact h.1 (heq ▸ List.mem_map_of_mem hg)

/-- One component more. -/
theorem distinct_addComponent {later : Artifacts} {c : Component} (h : made.Distinct)
    (hadd : (addComponent settings r made c).perform s = (.ok later, s')) : later.Distinct := by
  obtain ⟨overlay, service, _, -, -, rfl⟩ := addComponent_ok hadd
  refine ⟨Table.nodup_update h.config overlay, ?_, ?_⟩
  · cases service with
    | none => exact h.components
    | some file => exact nodup_putService h.components c [file]
  · cases service with
    | none => exact h.service
    | some file =>
        intro e he
        rcases mem_putService he with rfl | he
        · exact List.nodup_cons.mpr ⟨List.not_mem_nil, List.nodup_nil⟩
        · exact h.service e he

/-- **A pass gives its files different names.** -/
theorem distinct_of_run (h : (run settings now r).perform s = (.ok made, s')) : made.Distinct := by
  obtain ⟨kinds, keys, t, -, -, hfinish⟩ := run_steps h
  obtain ⟨base, rendered, _, _, certificate, -, hrendered, -, rfl⟩ := finish_steps hfinish
  have hstart : (start keys base).Distinct :=
    ⟨List.nodup_cons.mpr ⟨List.not_mem_nil, List.nodup_nil⟩, List.nodup_nil,
      fun _ he => absurd he List.not_mem_nil⟩
  have hrendered := perform_foldlM_ok (fun h hadd => distinct_addComponent h hadd) hstart hrendered
  exact ⟨hrendered.config, hrendered.components, hrendered.service⟩

end Pass

namespace Tree

private theorem apart_of_ne {name other : String} (h : name ≠ other) : Apart [name] [other] := by
  simp [Apart, h, Ne.symm h]

private theorem apart_of_ne_first {name first : String} (h : name ≠ first) (last : String) :
    Apart [name] [first, last] := by
  simp [Apart, h, Ne.symm h]

theorem Apart.symm {names other : List String} (h : Apart names other) : Apart other names :=
  ⟨h.2, h.1⟩

end Tree

namespace Artifacts

variable {made : Artifacts} {directory : FilePath} {t : Tree}

/-- A file is in the output directory, or in the directory of a component. -/
theorem Named.near (h : made.Named) : ∀ f ∈ made.files, Writing.Near f.1 := by
  intro f hf
  have hdown := (h.files f hf).1
  rcases mem_files hf with ⟨g, -, rfl⟩ | ⟨e, -, g, -, rfl⟩ | ⟨c, rfl | rfl⟩
  · exact ⟨[], g.1, rfl, Nat.zero_le 1, hdown⟩
  · exact ⟨[e.1.name], g.1, rfl, Nat.le_refl 1, hdown⟩
  · exact ⟨[], certificateFile, rfl, Nat.zero_le 1, hdown⟩
  · exact ⟨[], privateKeyFile, rfl, Nat.zero_le 1, hdown⟩

/-- The names of the last files of a pass: the certificate, its key, and the secret keys. -/
def lastNames (made : Artifacts) : List String :=
  (if made.certificate.isSome then [certificateFile, privateKeyFile] else []) ++ [secretKeysFile]

private theorem mem_lastNames {name : String} (h : name ∈ made.lastNames) :
    name = certificateFile ∨ name = privateKeyFile ∨ name = secretKeysFile := by
  rw [lastNames] at h
  split at h <;> simp at h <;> simp [h]

private theorem nodup_lastNames (made : Artifacts) : made.lastNames.Nodup := by
  rw [lastNames]
  split <;> decide

/-- The names of the files of a pass, with that of the secret keys. -/
theorem map_files (made : Artifacts) : made.files.map Prod.fst ++ [[secretKeysFile]] =
    made.configFiles.map (fun f => [f.1]) ++
      (made.serviceFiles.flatMap (fun s => s.2.map fun f => [s.1.name, f.1]) ++
        made.lastNames.map fun n => [n]) := by
  rw [files, lastNames, List.map_append, List.map_append, List.map_flatMap, List.append_assoc,
    List.append_assoc]
  cases made.certificate <;> simp [Function.comp_def]

/-- **The files of a pass are apart**, that of the secret keys among them. -/
theorem apart_files (hnamed : made.Named) (hdistinct : made.Distinct) :
    (made.files.map Prod.fst ++ [[secretKeysFile]]).Pairwise Apart := by
  have hconfig : ∀ f ∈ made.configFiles, (∀ c : Component, f.1 ≠ c.name) ∧
      f.1 ≠ certificateFile ∧ f.1 ≠ privateKeyFile ∧ f.1 ≠ secretKeysFile := by
    intro f hf
    rcases hnamed.config f hf with hname | ⟨c, hname⟩ <;> rw [hname]
    · exact ⟨fun c => by cases c <;> decide, by decide⟩
    · exact ⟨fun d => by cases c <;> cases d <;> decide, by cases c <;> decide⟩
  rw [map_files, List.pairwise_append, List.pairwise_append]
  refine ⟨?_, ⟨?_, ?_, ?_⟩, ?_⟩
  · rw [List.pairwise_map]
    exact (List.pairwise_map.mp hdistinct.config).imp apart_of_ne
  · rw [List.pairwise_flatMap]
    refine ⟨fun e he => ?_, ?_⟩
    · rw [List.pairwise_map]
      exact (List.pairwise_map.mp (hdistinct.service e he)).imp
        fun hne => by simp [Apart, hne, Ne.symm hne]
    · refine (List.pairwise_map.mp hdistinct.components).imp fun {e d} hne => ?_
      have hname : e.1.name ≠ d.1.name := by
        intro heq
        exact hne (Option.some.inj ((Component.ofName?_name e.1).symm.trans
          (heq ▸ Component.ofName?_name d.1)))
      intro x hx y hy
      obtain ⟨f, -, rfl⟩ := List.mem_map.mp hx
      obtain ⟨g, -, rfl⟩ := List.mem_map.mp hy
      simp [Apart, hname, Ne.symm hname]
  · rw [List.pairwise_map]
    exact made.nodup_lastNames.imp apart_of_ne
  · intro x hx y hy
    obtain ⟨e, -, hx⟩ := List.mem_flatMap.mp hx
    obtain ⟨f, -, rfl⟩ := List.mem_map.mp hx
    obtain ⟨name, hname, rfl⟩ := List.mem_map.mp hy
    refine (apart_of_ne_first ?_ f.1).symm
    rcases mem_lastNames hname with rfl | rfl | rfl <;> cases e.1 <;> decide
  · intro x hx y hy
    obtain ⟨f, hf, rfl⟩ := List.mem_map.mp hx
    obtain ⟨hcomponents, hothers⟩ := hconfig f hf
    rcases List.mem_append.mp hy with hy | hy
    · obtain ⟨e, -, hy⟩ := List.mem_flatMap.mp hy
      obtain ⟨g, -, rfl⟩ := List.mem_map.mp hy
      exact apart_of_ne_first (hcomponents e.1) g.1
    · obtain ⟨name, hname, rfl⟩ := List.mem_map.mp hy
      rcases mem_lastNames hname with rfl | rfl | rfl
      · exact apart_of_ne hothers.1
      · exact apart_of_ne hothers.2.1
      · exact apart_of_ne hothers.2.2

/-- The secret keys are apart from the other files. -/
theorem apart_secretKeysFile (hnamed : made.Named) (hdistinct : made.Distinct) :
    ∀ f ∈ made.files, Apart f.1 [secretKeysFile] :=
  fun f hf => (List.pairwise_append.mp (apart_files hnamed hdistinct)).2.2 f.1
    (List.mem_map_of_mem hf) _
    (List.mem_singleton.mpr rfl)

/-! ## All or nothing -/

/-- Everything that a pass made stands in a directory. -/
structure AllWritten (made : Artifacts) (directory : FilePath) (t : Tree) : Prop where
  files : ∀ f ∈ made.files, t.lookup (directory.below f.1) = .ok (.file f.2)
  secretKeys : ∀ u, made.snapshot = some u → ∃ page, manifestPage u = .ok page ∧
    t.lookup (directory.child secretKeysFile) = .ok (.file (.ofText page))

/-- Nothing that a pass made stands in a directory. -/
structure NoneWritten (made : Artifacts) (directory : FilePath) (t : Tree) : Prop where
  files : ∀ f ∈ made.files, t.hasPath (directory.below f.1) = false
  secretKeys : t.hasPath (directory.child secretKeysFile) = false

/-- Writing what a pass made either succeeds and leaves all of it, or fails and leaves nothing. -/
def AllOrNothing (made : Artifacts) (directory : FilePath) (t : Tree) : Prop :=
  match made.write directory t with
  | (.ok _, after) => made.AllWritten directory after
  | (.error _, after) => made.NoneWritten directory after

/-- **The files of a pass but the secret keys** are all written into an empty directory. -/
theorem write_of_emptyAt (hnamed : made.Named) (hdistinct : made.Distinct)
    (hempty : t.EmptyAt directory) :
    ∃ written t', t'.resolve directory = .ok (directory.place t.home) ∧
      t'.HoldsBelow (directory.place t.home) made.files ∧
      made.write directory t =
        match made.snapshot with
        | none => (.ok written, t')
        | some u =>
          match manifestPage u with
          | .error f => (.error f, t')
          | .ok page => (do
              let last ← Writing.writeFile (directory.child secretKeysFile) (Content.ofText page)
              return written ++ [last] : Writing (List FilePath)).run.run t' := by
  have hdirectory : (Writing.makeDirectories directory).run.run t = (.ok (), t) := by
    rw [Writing.makeDirectories, Writing.run_change,
      makeDirectories_of_ensure (ensureDirectory_of_lookup hempty.directory)]
  have hapart : (([] ++ made.files).map Prod.fst).Pairwise Apart :=
    (List.pairwise_append.mp (apart_files hnamed hdistinct)).1
  obtain ⟨written, t', hrun, hplace, hholds⟩ :=
    Writing.holdsBelow_mapM (resolve_of_lookup hempty.directory)
    hempty.holdsBelow hnamed.near hapart
  refine ⟨written, t', hplace, hholds, ?_⟩
  rw [write, writeAll, Outcome.run_bind, hdirectory]
  simp only
  rw [Outcome.run_bind]
  have hfiles : (made.files.mapM fun f =>
      Writing.writeFile { directory with names := directory.names ++ f.1 } f.2).run.run t =
        (.ok written, t') := hrun
  rw [hfiles]
  cases made.snapshot with
  | none => rfl
  | some u =>
      simp only
      cases manifestPage u <;> rfl

private theorem allWritten_of_holdsBelow {place : Place} (hnamed : made.Named)
    (hplace : t.resolve directory = .ok place)
    (h : t.HoldsBelow place made.files) :
    ∀ f ∈ made.files, t.lookup (directory.below f.1) = .ok (.file f.2) :=
  fun f hf => h.lookup hplace hf (hnamed.files f hf).1

/-- **With a legible snapshot** everything is written. -/
theorem write_of_legible (hnamed : made.Named) (hdistinct : made.Distinct)
    (hempty : t.EmptyAt directory)
    (hlegible : ∀ u, made.snapshot = some u → u.Legible) :
    ∃ paths t', made.write directory t = (.ok paths, t') ∧ made.AllWritten directory t' := by
  obtain ⟨written, t', hplace, hholds, hwrite⟩ := write_of_emptyAt hnamed hdistinct hempty
  cases hsnapshot : made.snapshot with
  | none =>
      rw [hsnapshot] at hwrite
      refine ⟨written, t', hwrite, allWritten_of_holdsBelow hnamed hplace hholds, fun u hu => ?_⟩
      exact absurd (hsnapshot.symm.trans hu) (by simp)
  | some u =>
      obtain ⟨page, hpage⟩ := manifestPage_of_legible (hlegible u hsnapshot)
      obtain ⟨t'', hrun, hplace', hall⟩ := Writing.holdsBelow_writeFile hplace hholds
        ⟨[], secretKeysFile, rfl, Nat.zero_le 1, by decide⟩ (apart_secretKeysFile hnamed hdistinct)
          (Content.ofText page)
      have hkeys :
        (Writing.writeFile (directory.child secretKeysFile) (Content.ofText page)).run.run t' =
          (.ok (directory.child secretKeysFile), t'') := hrun
      rw [hsnapshot] at hwrite
      simp only [hpage] at hwrite
      rw [Outcome.run_bind, hkeys] at hwrite
      have hdown : ".." ∉ [secretKeysFile] := by decide
      refine ⟨_, t'', hwrite, fun f hf => ?_, fun v hv => ⟨page, ?_, ?_⟩⟩
      · exact hall.lookup hplace' (List.mem_append_left _ hf) (hnamed.files f hf).1
      · rwa [← Option.some.inj (hsnapshot.symm.trans hv)]
      · exact hall.lookup hplace' (List.mem_append_right _ (List.mem_singleton.mpr rfl)) hdown

/-- **With any other snapshot** writing fails when all other files are written. -/
theorem write_of_not_legible (hnamed : made.Named) (hdistinct : made.Distinct)
    (hempty : t.EmptyAt directory)
    {u : Snapshot} (hu : made.snapshot = some u) (hlegible : ¬ u.Legible) :
    ∃ t', made.write directory t = (.error (.breach .encoding), t') ∧
      (∀ f ∈ made.files, t'.lookup (directory.below f.1) = .ok (.file f.2)) ∧
      t'.hasPath (directory.child secretKeysFile) = false := by
  obtain ⟨written, t', hplace, hholds, hwrite⟩ := write_of_emptyAt hnamed hdistinct hempty
  rw [hu] at hwrite
  simp only [manifestPage_of_not_legible hlegible] at hwrite
  refine ⟨t', hwrite, allWritten_of_holdsBelow hnamed hplace hholds, ?_⟩
  have hresolve : t'.resolve (directory.child secretKeysFile) =
      t'.walk (directory.place t.home) [secretKeysFile] :=
    resolve_below hplace [secretKeysFile]
  have habsent : t'.lookup (directory.child secretKeysFile) = .error .absent := by
    rw [Tree.lookup, hresolve, walk, hholds.directory, if_neg (by decide)]
    simp only [walk, Outcome.ok_bind]
    rw [hholds.free_of_apart (List.cons_ne_nil _ _) (apart_secretKeysFile hnamed hdistinct)]
    rfl
  rw [hasPath, habsent]

end Artifacts

namespace Pass

variable {settings : Settings} {now : Moment} {r : Request} {s s' : Session} {made : Artifacts}
  {directory : FilePath}
  {t : Tree}

/-- The octets of a snapshot are those that the pass was given. -/
theorem legible_iff (hrun : (run settings now r).perform s = (.ok made, s')) :
    (∀ u, made.snapshot = some u → u.Legible) ↔ ∀ u, r.snapshot = some u → u.Legible := by
  obtain ⟨hgrows, -, -⟩ := Order.pass_ok (o := ⟨settings, now, r⟩) hrun
  cases hgiven : r.snapshot with
  | none =>
      rw [hgiven] at hgrows
      refine ⟨fun _ _ hu => absurd hu (by simp), fun _ u hu => ?_⟩
      rw [Snapshot.Legible, (hgrows u hu).octets]
      exact fun _ he => absurd he List.not_mem_nil
  | some v =>
      rw [hgiven] at hgrows
      obtain ⟨u, hu, hextends⟩ := hgrows
      rw [hu]
      simp only [Option.some.injEq, forall_eq', Snapshot.Legible, hextends.octets]

/-- The base document is among the files. -/
theorem exists_baseFile (hrun : (run settings now r).perform s = (.ok made, s')) :
    ∃ base, ([baseFile], Content.ofText base) ∈ made.files := by
  obtain ⟨_, _, base, -, -, -, -, -, -, hbase⟩ := run_ok hrun
  have hmem := (Table.lookup_eq_some_iff (distinct_of_run hrun).config).mp hbase
  refine ⟨base, List.mem_append_left _ (List.mem_append_left _ ?_)⟩
  exact List.mem_map_of_mem (f := fun f : String × String => ([f.1], Content.ofText f.2)) hmem

/-- A key stands in the file of the secret keys of a directory. -/
def KeptIn (directory : FilePath) (t : Tree) (k : ManagedKey) (key : String) : Prop :=
  ∃ u page, u.lookup k.name = .ok (some key) ∧ Artifacts.manifestPage u = .ok page ∧
    t.lookup (directory.child secretKeysFile) = .ok (.file (.ofText page))

/-- **Writing a pass into an empty directory is all or nothing** exactly if all octets of the
snapshot that the pass was given encode texts. Then everything is written, and every key that the
user does not give stands in the file of the secret keys. -/
theorem write_all_or_nothing_iff (hrun : (run settings now r).perform s = (.ok made, s'))
    (hempty : t.EmptyAt directory) :
    (made.AllOrNothing directory t ↔ ∀ u, r.snapshot = some u → u.Legible) ∧
      ((∀ u, r.snapshot = some u → u.Legible) → (∃ paths, (made.write directory t).1 = .ok paths) ∧
        ∀ k : ManagedKey, Value.get? r.config k.name = none →
          KeptIn directory (made.write directory t).2 k (made.key k)) := by
  have hnamed := named_of_run hrun
  have hdistinct := distinct_of_run hrun
  rw [← legible_iff hrun]
  refine ⟨⟨fun hall => ?_, fun hlegible => ?_⟩, fun hlegible => ?_⟩
  · intro u hu
    by_contra hlegible
    obtain ⟨t', hwrite, hfiles, -⟩ :=
      Artifacts.write_of_not_legible hnamed hdistinct hempty hu hlegible
    rw [Artifacts.AllOrNothing, hwrite] at hall
    obtain ⟨base, hbase⟩ := exists_baseFile hrun
    have hthere := hfiles _ hbase
    have habsent := hall.files _ hbase
    rw [Tree.hasPath, hthere] at habsent
    exact absurd habsent (by simp)
  · obtain ⟨paths, t', hwrite, hall⟩ := Artifacts.write_of_legible hnamed hdistinct hempty hlegible
    rw [Artifacts.AllOrNothing, hwrite]
    exact hall
  · obtain ⟨paths, t', hwrite, hall⟩ := Artifacts.write_of_legible hnamed hdistinct hempty hlegible
    rw [hwrite]
    refine ⟨⟨paths, rfl⟩, fun k hk => ?_⟩
    obtain ⟨-, -, hfound⟩ := Order.pass_ok (o := ⟨settings, now, r⟩) hrun
    obtain ⟨u, hu, hlookup⟩ := hfound k hk
    obtain ⟨page, hpage, hfile⟩ := hall.secretKeys u hu
    exact ⟨u, page, hlookup, hpage, hfile⟩

/-- A pass over no component, for a user who gives no key. -/
def unkeyedRequest (kept : Option Snapshot) : Request :=
  { descriptor := { name := "r" }, snapshot := kept, components := [], issueCertificate := false }

/-- A snapshot with an octet that encodes no text, under a name that is no key's. -/
def binary : Snapshot :=
  .ofEntries "kept" defaultSpace [] [("OTHER", ⟨#[0xff]⟩)]

private theorem not_legible_binary : ¬ binary.Legible := by
  intro h
  obtain ⟨text, htext⟩ := h ("OTHER", ⟨#[0xff]⟩) (List.mem_singleton.mpr rfl)
  have hdecode : Snapshot.decode ⟨#[0xff]⟩ = .ok text := Snapshot.decode_eq_ok_iff.mpr htext
  exact absurd hdecode (by simp [show Snapshot.decode ⟨#[0xff]⟩ = .error (.breach .encoding)
    from rfl])

/-- Without a snapshot, and with that one, the pass makes its keys. -/
theorem run_unkeyedRequest {kept : Option Snapshot} (h : kept = none ∨ kept = some binary) :
    ∃ made s', (run {} noon (unkeyedRequest kept)).perform .fresh = (.ok made, s') ∧
      made.generated = true := by
  obtain ⟨keys, t, hkeys, hgenerated⟩ : ∃ keys t,
      (SecretKey.resolvePair { name := "r" } SecretKey.usualLength [] kept).perform .fresh =
        (.ok keys, t) ∧ keys.generated = true := by
    rcases h with rfl | rfl <;> exact ⟨_, _, rfl, rfl⟩
  obtain ⟨base, hbase⟩ : ∃ base, Document.encode (.map (document [] keys.secret keys.database)) =
    .ok base := Document.encode_of_not_holds rfl rfl
  have hfinish : ((finish {} noon (unkeyedRequest kept) [] keys).perform t).1 =
      .ok (start keys base) := by
    rw [finish, unkeyedRequest, hbase]
    rfl
  refine ⟨start keys base, ((finish {} noon (unkeyedRequest kept) [] keys).perform t).2, ?_,
    hgenerated⟩
  rw [run_eq]
  exact (perform_bind_of_ok hkeys).trans (Prod.ext hfinish rfl)

/-- A tree with an empty directory. -/
def emptyOut : Tree :=
  { directories := [["out"]] }

private theorem emptyAt_emptyOut : emptyOut.EmptyAt ⟨false, ["out"]⟩ where
  directory := rfl
  free names hne := by
    cases names with
    | nil => exact absurd rfl hne
    | cons name rest => rfl

/-- Without a snapshot all is written, the new keys too. -/
theorem write_all_or_nothing_new : emptyOut.EmptyAt ⟨false, ["out"]⟩ ∧
    ∃ made s', (run {} noon (unkeyedRequest none)).perform .fresh = (.ok made, s') ∧
      made.generated = true ∧ made.AllOrNothing ⟨false, ["out"]⟩ emptyOut ∧
      ∀ k, KeptIn ⟨false, ["out"]⟩ (made.write ⟨false, ["out"]⟩ emptyOut).2 k (made.key k) := by
  obtain ⟨made, s', hrun, hgenerated⟩ := run_unkeyedRequest (.inl rfl)
  obtain ⟨hiff, hkept⟩ := write_all_or_nothing_iff hrun emptyAt_emptyOut
  have hlegible : ∀ u, (unkeyedRequest none).snapshot = some u → u.Legible := fun _ hu => nomatch hu
  exact ⟨emptyAt_emptyOut, made, s', hrun, hgenerated, hiff.mpr hlegible,
    fun k => (hkept hlegible).2 k rfl⟩

/-- **With octets that encode no text** the base document with new keys is left, and
the secret keys are not. -/
theorem base_document_without_keys :
    ∃ made s', (run {} noon (unkeyedRequest (some binary))).perform .fresh = (.ok made, s') ∧
      made.generated = true ∧ emptyOut.EmptyAt ⟨false, ["out"]⟩ ∧
      ¬ made.AllOrNothing ⟨false, ["out"]⟩ emptyOut ∧
      (made.write ⟨false, ["out"]⟩ emptyOut).2.hasPath ⟨false, ["out", "config.yaml"]⟩ = true ∧
      (made.write ⟨false, ["out"]⟩ emptyOut).2.hasPath ⟨false, ["out", "secret-keys.yaml"]⟩ =
      false := by
  obtain ⟨made, s', hrun, hgenerated⟩ := run_unkeyedRequest (.inr rfl)
  have hmade : ∃ u, made.snapshot = some u ∧ ¬ u.Legible := by
    by_contra hall
    refine not_legible_binary ((legible_iff hrun).mp (fun u hu => ?_) binary rfl)
    by_contra hnot
    exact hall ⟨u, hu, hnot⟩
  obtain ⟨u, hu, hlegible⟩ := hmade
  obtain ⟨after, hwrite, hfiles, hkeys⟩ :=
    Artifacts.write_of_not_legible (named_of_run hrun) (distinct_of_run hrun) emptyAt_emptyOut hu
      hlegible
  obtain ⟨base, hbase⟩ := exists_baseFile hrun
  have hthere : after.hasPath ⟨false, ["out", "config.yaml"]⟩ = true := by
    have hlookup : after.lookup ⟨false, ["out", "config.yaml"]⟩ = _ := hfiles _ hbase
    rw [Tree.hasPath, hlookup]
  refine ⟨made, s', hrun, hgenerated, emptyAt_emptyOut, ?_, ?_, ?_⟩
  · intro hall
    rw [Artifacts.AllOrNothing, hwrite] at hall
    have habsent : after.hasPath ⟨false, ["out", "config.yaml"]⟩ = false := hall.files _ hbase
    rw [hthere] at habsent
    exact absurd habsent (by decide)
  · rw [hwrite]
    exact hthere
  · rw [hwrite]
    exact hkeys

end Pass

end RegistryBundle
