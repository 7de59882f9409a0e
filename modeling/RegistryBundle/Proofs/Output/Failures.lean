import RegistryBundle.Proofs.Keys.Reloading
import RegistryBundle.Proofs.Output
import RegistryBundle.Proofs.Yaml.Writable

/-!
# What ends writing

Writing what a pass made ends early for two reasons: a trouble with a file or a directory, or a
snapshot some of whose octets encode no text. Neither is a fault of what the operator provides.

* `Writing.EndsFor` says for which reasons a piece of writing ends early, `Writing.EndsFor.bind` and
  `Writing.endsFor_mapM` are the rules for two pieces and for several;
* `Artifacts.manifestPage_of_legible` and `Artifacts.manifestPage_of_not_legible` say which
  snapshots have a page;
* `Artifacts.write_error` is a whole pass.
-/

namespace RegistryBundle

namespace Writing

variable {α β : Type} {reason : Failure → Prop} {m : Writing α} {f : α → Writing β}

/-- Whatever the tree, writing ends early for these reasons only. -/
def EndsFor (reason : Failure → Prop) (m : Writing α) : Prop :=
  ∀ t e, (m.run.run t).1 = .error e → reason e

private theorem endsFor_pure (x : α) : EndsFor reason (pure x) :=
  fun _ _ h => nomatch h

private theorem endsFor_throw {e : Failure} (h : reason e) :
    EndsFor reason (throw e : Writing α) := by
  intro _ e' heq
  obtain rfl : e = e' := Except.error.inj heq
  exact h

/-- **Two pieces.** -/
theorem EndsFor.bind (h : EndsFor reason m) (hf : ∀ x, EndsFor reason (f x)) :
    EndsFor reason (m >>= f) := by
  intro t e he
  rw [Outcome.run_bind] at he
  generalize hfirst : m.run.run t = first at he
  obtain ⟨e' | x, t'⟩ := first
  · have heq : e' = e := Except.error.inj he
    exact h t e (heq ▸ congrArg Prod.fst hfirst)
  · exact hf x t' e he

/-- **A piece for each item of a list.** -/
theorem endsFor_mapM {g : β → Writing α} (h : ∀ x, EndsFor reason (g x)) (l : List β) :
    EndsFor reason (l.mapM g) := by
  induction l with
  | nil => exact endsFor_pure []
  | cons x l ih =>
      rw [List.mapM_cons]
      exact (h x).bind fun y => ih.bind fun ys => endsFor_pure (y :: ys)

/-- A trouble with a file or a directory. -/
def IsTrouble (e : Failure) : Prop :=
  ∃ trouble, e = .trouble trouble

private theorem endsFor_change (g : Tree → Except Trouble Unit × Tree) :
    EndsFor IsTrouble (change g) := by
  intro t e he
  rw [run_change] at he
  cases hg : (g t).1 with
  | ok done =>
      rw [hg] at he
      contradiction
  | error trouble =>
      rw [hg] at he
      exact ⟨trouble, (Except.error.inj he).symm⟩

/-- A directory with those that lead to it. -/
theorem endsFor_makeDirectories (p : FilePath) : EndsFor IsTrouble (makeDirectories p) :=
  endsFor_change _

/-- One file. -/
theorem endsFor_writeFile (p : FilePath) (c : Content) : EndsFor IsTrouble (writeFile p c) :=
  (endsFor_change _).bind fun _ => (endsFor_change _).bind fun _ => endsFor_pure p

theorem EndsFor.mono {other : Failure → Prop} (h : EndsFor reason m)
    (himp : ∀ e, reason e → other e) :
    EndsFor other m :=
  fun t e he => himp e (h t e he)

end Writing

namespace Artifacts

open Value

/-- Entries of texts hold nothing but texts. -/
theorem holdsEntries_textEntries {p : Value → Bool} (h : ∀ s, p (.str s) = false)
    (texts : Table String) :
    holdsEntries p (Snapshot.textEntries texts) = false := by
  rw [holdsEntries_eq_any, List.any_eq_false]
  intro e he
  obtain ⟨f, hf, rfl⟩ := List.mem_map.mp he
  obtain ⟨g, -, rfl⟩ := List.mem_map.mp hf
  simp [holds, h]

/-- **A legible snapshot has a page.** -/
theorem manifestPage_of_legible {s : Snapshot} (h : s.Legible) :
    ∃ page, manifestPage s = .ok page := by
  obtain ⟨decoded, hdecoded⟩ := h.exists_texts
  have hholds : ∀ p : Value → Bool, (∀ t, p (.str t) = false) → (∀ es, p (.map es) = false) →
      (Value.map (s.entriesWith decoded)).holds p = false := by
    intro p hstr hmap
    have htexts := holdsEntries_textEntries hstr
    unfold Snapshot.entriesWith Snapshot.entries
    split <;> simp [holds, holdsEntries, hstr, hmap, htexts]
  obtain ⟨page, hpage⟩ := Document.encode_of_not_holds (hholds isLong (fun _ => rfl) fun _ => rfl)
    (hholds isForeign (fun _ => rfl) fun _ => rfl)
  exact ⟨page, by rw [manifestPage, Snapshot.manifest_of_legible hdecoded, Outcome.ok_bind, hpage]⟩

/-- Any other has none. -/
theorem manifestPage_of_not_legible {s : Snapshot} (h : ¬ s.Legible) :
    manifestPage s = .error (.breach .encoding) := by
  rw [manifestPage, Snapshot.manifest_of_not_legible h, Outcome.error_bind]

variable {made : Artifacts} {directory : FilePath} {t : Tree} {f : Failure}

/-- **What ends writing a pass**: a trouble with a file or a directory, or a
snapshot that has no page. -/
theorem write_error (h : (made.write directory t).1 = .error f) :
    Writing.IsTrouble f ∨ f = .breach .encoding ∧ ∃ s, made.snapshot = some s ∧ ¬ s.Legible := by
  let reason : Failure → Prop := fun f =>
    Writing.IsTrouble f ∨ f = .breach .encoding ∧ ∃ s, made.snapshot = some s ∧ ¬ s.Legible
  suffices hends : Writing.EndsFor reason (made.writeAll directory) by
    rw [write] at h
    exact hends t f h
  have hdirectory : Writing.EndsFor reason (Writing.makeDirectories directory) :=
    (Writing.endsFor_makeDirectories directory).mono fun _ => .inl
  have hfile : ∀ p c, Writing.EndsFor reason (Writing.writeFile p c) :=
    fun p c => (Writing.endsFor_writeFile p c).mono fun _ => .inl
  rw [writeAll]
  apply hdirectory.bind
  intro
  apply Writing.EndsFor.bind
  · apply Writing.endsFor_mapM
    exact fun g => hfile _ g.2
  intro written
  split
  · exact Writing.endsFor_pure written
  · rename_i s hsnapshot
    by_cases hlegible : s.Legible
    · obtain ⟨page, hpage⟩ := manifestPage_of_legible hlegible
      rw [hpage]
      exact (hfile _ _).bind fun last => Writing.endsFor_pure _
    · rw [manifestPage_of_not_legible hlegible]
      exact Writing.endsFor_throw (.inr ⟨rfl, s, hsnapshot, hlegible⟩)

/-- It is never a fault of what the operator provides. -/
theorem isConfiguration_of_write_error (h : (made.write directory t).1 = .error f) :
    f.isConfiguration = false := by
  rcases write_error h with ⟨trouble, rfl⟩ | ⟨rfl, -⟩ <;> rfl

end Artifacts

end RegistryBundle
