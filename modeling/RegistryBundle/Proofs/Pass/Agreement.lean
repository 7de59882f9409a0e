import RegistryBundle.Proofs.Keys.Snapshot
import RegistryBundle.Proofs.Pass.Run
import RegistryBundle.Proofs.Run.Agreement

/-!
# Passes over equal snapshots

A pass does the same with equal snapshots: it finds the same keys, draws the same octets, reports
the same and makes the same files, and the snapshots to keep are equal again.

* `SecretKey.agree_resolve`, `SecretKey.agree_resolvePair` say it of keys,
  `Pass.agree_run` of a whole pass.
-/

namespace RegistryBundle

open RegistryBundle.Action

namespace SecretKey

variable {given other : Option Snapshot} {s t : Snapshot}

/-- The same key, found or made alike, with equal snapshots. -/
def Resolved.Same (r r' : Resolved) : Prop :=
  ∃ kept, r' = { r with snapshot := kept } ∧ Option.Rel Snapshot.Same r.snapshot kept

/-- Making a key. -/
theorem agree_make (length : Int) (name : String) (h : s.Same t) :
    Agree Resolved.Same (resolve.make length name s) (resolve.make length name t) := by
  rw [resolve.make, resolve.make]
  refine agree_bind_self _ fun _ => agree_bind_self _ fun key => agree_pure ?_
  exact ⟨_, rfl, .some (h.withValue name key)⟩

/-- **One key.** -/
theorem agree_resolve (d : Descriptor) (length : Int) (config : Entries) (name : String)
    (h : Option.Rel Snapshot.Same given other) :
    Agree Resolved.Same (resolve d length config given name)
      (resolve d length config other name) := by
  unfold resolve
  apply agree_bind_self
  intro provided
  cases provided with
  | some key => exact agree_bind_self _ fun _ => agree_pure ⟨other, rfl, h⟩
  | none =>
      cases h with
      | none => exact agree_bind_self _ fun _ => agree_make length name (.refl _)
      | some hst =>
          simp only [hst.lookup, hst.name]
          apply agree_bind_self
          intro found
          cases found with
          | some key => exact agree_bind_self _ fun _ => agree_pure ⟨_, rfl, .some hst⟩
          | none => exact agree_make length name hst

/-- The same keys, with equal snapshots. -/
def ResolvedPair.Same (keys keys' : ResolvedPair) : Prop :=
  ∃ kept, keys' = { keys with snapshot := kept } ∧ Option.Rel Snapshot.Same keys.snapshot kept

/-- **Both keys.** -/
theorem agree_resolvePair (d : Descriptor) (length : Int) (config : Entries)
    (h : Option.Rel Snapshot.Same given other) :
    Agree ResolvedPair.Same (resolvePair d length config given)
      (resolvePair d length config other) := by
  rw [resolvePair, resolvePair]
  refine agree_bind (agree_resolve d length config _ h) ?_
  intro first _ hparts
  obtain ⟨kept, rfl, hkept⟩ := hparts
  refine agree_bind (agree_resolve d length config _ hkept) ?_
  intro second _ hparts
  obtain ⟨last, rfl, hlast⟩ := hparts
  exact agree_pure ⟨last, rfl, hlast⟩

end SecretKey

/-- Passes made the same, with equal snapshots. -/
def Artifacts.Same (made made' : Artifacts) : Prop :=
  ∃ kept, made' = { made with snapshot := kept } ∧ Option.Rel Snapshot.Same made.snapshot kept

namespace Pass

variable {made made' : Artifacts} {given other : Option Snapshot}

/-- One component more. -/
theorem agree_addComponent (settings : Settings) (r : Request) (c : Component)
    (h : made.Same made') :
    Agree Artifacts.Same (addComponent settings { r with snapshot := given } made c)
      (addComponent settings { r with snapshot := other } made' c) := by
  obtain ⟨kept, rfl, hkept⟩ := h
  rw [addComponent, addComponent]
  refine agree_bind_self _ fun overlay => agree_bind_self _ fun service => agree_pure ?_
  exact ⟨kept, rfl, hkept⟩

/-- **A pass does the same with equal snapshots.** -/
theorem agree_run (settings : Settings) (now : Moment) (r : Request)
    (h : Option.Rel Snapshot.Same given other) :
    Agree Artifacts.Same (run settings now { r with snapshot := given })
      (run settings now { r with snapshot := other }) := by
  rw [run, run]
  apply agree_bind_self
  intro kinds
  refine agree_bind (SecretKey.agree_resolvePair r.descriptor _ r.config h) ?_
  intro keys _ hparts
  obtain ⟨kept, rfl, hkept⟩ := hparts
  apply agree_bind_self
  intro base
  have hstart : (start keys base).Same (start { keys with snapshot := kept } base) :=
    ⟨kept, rfl, hkept⟩
  refine agree_bind (agree_foldlM (fun _ _ c hmade => agree_addComponent settings r c hmade) kinds
    hstart) ?_
  intro made _ hparts
  obtain ⟨last, rfl, hlast⟩ := hparts
  dsimp only
  split <;> exact agree_bind_self _ fun certificate => agree_bind_self _ fun _ =>
    agree_pure ⟨last, rfl, hlast⟩

end Pass

end RegistryBundle
