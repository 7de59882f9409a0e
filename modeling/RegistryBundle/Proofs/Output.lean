import RegistryBundle.Output
import RegistryBundle.Proofs.Files.Tree
import RegistryBundle.Proofs.Pass.Run

/-!
# What writing a pass does to the tree

The files of a pass go below the output directory under names of their own. None of them is the file
of the secret keys, which is written last, and only if there is a snapshot.

* `Writing.Spares` says that writing leaves the files at some places as they are, whether it
  succeeds or fails;
* `Writing.spares_writeFile` is one file, `Writing.writeFile_ok` says that it is found;
* `Artifacts.write_ok` is a whole pass.
-/

namespace RegistryBundle

namespace Writing

variable {α β : Type} {home : Place} {kept : Place → Prop} {m : Writing α} {f : α → Writing β}
  {t t' : Tree}
  {p q : FilePath} {c : Content}

/-- Whatever comes of it, what is written from a working directory leaves the files at the places
`kept` as they are. -/
def Spares (home : Place) (kept : Place → Prop) (m : Writing α) : Prop :=
  ∀ t : Tree, t.home = home → t.Spares kept (m.run.run t).2

private theorem spares_pure (x : α) : Spares home kept (pure x) :=
  fun t _ => .refl kept t

theorem Spares.after (hm : Spares home kept m) (ht : t.home = home) {x : Except Failure α}
    (h : m.run.run t = (x, t')) : t.Spares kept t' := by
  have := hm t ht
  rwa [h] at this

/-- Two steps. -/
theorem spares_bind (hm : Spares home kept m) (hf : ∀ x, Spares home kept (f x)) :
    Spares home kept (m >>= f) := by
  intro t ht
  rw [Outcome.run_bind]
  split
  · next x t' h =>
      have hfirst := hm.after ht h
      exact hfirst.trans (hf x t' (hfirst.home.trans ht))
  · next e t' h => exact hm.after ht h

/-- A step for each item of a list. -/
theorem spares_mapM {g : β → Writing α} {l : List β} (hg : ∀ x ∈ l, Spares home kept (g x)) :
    Spares home kept (l.mapM g) := by
  induction l with
  | nil => exact spares_pure []
  | cons x l ih =>
      rw [List.mapM_cons]
      apply spares_bind (hg x List.mem_cons_self)
      intro y
      exact spares_bind (ih fun z hz => hg z (List.mem_cons_of_mem x hz)) fun ys =>
        spares_pure (y :: ys)

/-- A change of the tree gives the tree that it makes. -/
theorem run_change (g : Tree → Except Trouble Unit × Tree) (t : Tree) :
    (change g).run.run t =
      (match (g t).1 with
        | .ok () => .ok ()
        | .error trouble => .error (.trouble trouble), (g t).2) := by
  change ((match (g t).1 with
    | .ok () => pure ()
    | .error trouble => throw (.trouble trouble) : Writing Unit).run).run (g t).2 = _
  cases (g t).1 <;> rfl

theorem spares_makeDirectories (p : FilePath) : Spares home kept (makeDirectories p) := by
  intro t _
  rw [makeDirectories, run_change]
  exact Tree.spares_makeDirectories kept _ t p

/-- **One file** changes no other. -/
theorem spares_writeFile (h : ¬ kept (p.place home)) (c : Content) :
    Spares home kept (writeFile p c) := by
  rw [writeFile]
  refine spares_bind (spares_makeDirectories p.parent) fun _ => spares_bind ?_ fun _ =>
    spares_pure p
  intro t ht
  rw [run_change]
  cases hwrite : t.write p c with
  | error e => exact .refl kept t
  | ok t' => exact Tree.spares_write hwrite (ht ▸ h)

/-- A file that was written is found. -/
theorem writeFile_ok (h : (writeFile p c).run.run t = (.ok q, t')) :
    q = p ∧ t'.lookup p = .ok (.file c) := by
  rw [writeFile] at h
  obtain ⟨_, t₁, -, h⟩ := Outcome.run_bind_eq_ok.mp h
  obtain ⟨_, t₂, hchange, h⟩ := Outcome.run_bind_eq_ok.mp h
  obtain ⟨hq, rfl⟩ := Prod.mk.inj h
  refine ⟨(Except.ok.inj hq).symm, ?_⟩
  rw [run_change] at hchange
  cases hwrite : t₁.write p c with
  | error e =>
      rw [hwrite] at hchange
      exact absurd (congrArg Prod.fst hchange) (by simp)
  | ok t₃ =>
      rw [hwrite] at hchange
      obtain rfl : t₃ = t₂ := congrArg Prod.snd hchange
      exact Tree.lookup_write hwrite

end Writing

namespace Artifacts

variable {made : Artifacts} {directory : FilePath} {t t' : Tree} {paths : List FilePath}

/-- The files of a pass are those of its configuration, those of its services, and the
certificate with its key. -/
theorem mem_files {f : List String × Content} (h : f ∈ made.files) :
    (∃ g ∈ made.configFiles, f = ([g.1], .ofText g.2)) ∨
      (∃ e ∈ made.serviceFiles, ∃ g ∈ e.2, f = ([e.1.name, g.1], .ofText g.2)) ∨
      ∃ c, f = ([certificateFile], .certificate c) ∨ f = ([privateKeyFile], .privateKey c) := by
  simp only [Artifacts.files, List.mem_append, List.mem_map, List.mem_flatMap] at h
  rcases h with (⟨g, hg, rfl⟩ | ⟨e, he, g, hg, rfl⟩) | h
  · exact .inl ⟨g, hg, rfl⟩
  · exact .inr (.inl ⟨e, he, g, hg, rfl⟩)
  · cases hc : made.certificate with
    | none => simp [hc] at h
    | some c =>
        simp only [hc, List.mem_cons, List.not_mem_nil, or_false] at h
        exact .inr (.inr ⟨c, h⟩)

/-- The names of the files of a pass lead down, and none is the name of the secret keys. -/
theorem Named.files (h : made.Named) : ∀ f ∈ made.files, ".." ∉ f.1 ∧ f.1 ≠ [secretKeysFile] := by
  intro f hf
  rcases mem_files hf with ⟨g, hg, rfl⟩ | ⟨e, he, g, hg, rfl⟩ | ⟨c, rfl | rfl⟩
  · rcases h.config g hg with hname | ⟨c, hname⟩
    · simp only [hname]
      decide
    · simp only [hname]
      cases c <;> decide
  · simp only [h.service e he g hg]
    cases e.1 <;> decide
  · simp [certificateFile, secretKeysFile]
  · simp [privateKeyFile, secretKeysFile]

/-- What stands in the file of the secret keys after a pass was written: what stood there before if
there is no snapshot, else the page of the snapshot. -/
theorem write_ok (hnamed : made.Named) (h : made.write directory t = (.ok paths, t')) :
    t'.home = t.home ∧
      match made.snapshot with
      | none => t'.content? ((directory.child secretKeysFile).place t.home) =
          t.content? ((directory.child secretKeysFile).place t.home)
      | some s => ∃ page, manifestPage s = .ok page ∧
          t'.lookup (directory.child secretKeysFile) = .ok (.file (.ofText page)) := by
  rw [write, writeAll] at h
  obtain ⟨_, t₁, hdirectory, h⟩ := Outcome.run_bind_eq_ok.mp h
  obtain ⟨written, t₂, hfiles, h⟩ := Outcome.run_bind_eq_ok.mp h
  have hspares : t.Spares (· = (directory.child secretKeysFile).place t.home) t₂ := by
    have hfirst : t.Spares (· = (directory.child secretKeysFile).place t.home) t₁ :=
      (Writing.spares_makeDirectories directory).after rfl hdirectory
    refine hfirst.trans ((Writing.spares_mapM fun f hf => ?_).after hfirst.home hfiles)
    obtain ⟨hdown, hname⟩ := hnamed.files f hf
    refine Writing.spares_writeFile ?_ f.2
    exact FilePath.place_ne hdown (by decide) hname t.home
  cases hsnapshot : made.snapshot with
  | none =>
      rw [hsnapshot] at h
      obtain ⟨-, rfl⟩ := Prod.mk.inj h
      exact ⟨hspares.home, hspares.content _ rfl⟩
  | some s =>
      rw [hsnapshot] at h
      cases hpage : manifestPage s with
      | error f =>
          simp only [hpage] at h
          exact absurd (congrArg Prod.fst h) (by simp [throw, throwThe, MonadExceptOf.throw])
      | ok page =>
          simp only [hpage] at h
          obtain ⟨last, t₃, hlast, h⟩ := Outcome.run_bind_eq_ok.mp h
          obtain ⟨-, rfl⟩ := Prod.mk.inj h
          have hwritten : t₂.Spares (fun _ => False) t₃ :=
            (Writing.spares_writeFile id _).after hspares.home hlast
          exact ⟨hwritten.home.trans hspares.home, page, hpage, (Writing.writeFile_ok hlast).2⟩

end Artifacts

end RegistryBundle
