import RegistryBundle.Proofs.Run.Failures

/-!
# Actions that look alike

Two actions look alike if they report the same and fail together, whatever octets their sources
deliver and whatever they give.

* `Session.Alike` are sessions with the same records, whose sources deliver what they are asked for;
* `Outcome.Alike` are two results that are related, or two failures; `Outcome.alike_of_failure?` and
  `Outcome.Alike.failure?_eq` say so of the failures;
* `Action.Alike` says that two actions keep sessions alike, and that their results are related or
  both fail; if `exact` holds, both fail for the same reason;
* `Action.alike_bind` and `Action.alike_foldlM` are the rules for two steps and for several.
-/

namespace RegistryBundle

/-- Sessions with the same records, whose sources deliver what they are asked for. -/
structure Session.Alike (s t : Session) : Prop where
  log : t.log = s.log
  first : s.random.source.Faithful
  second : t.random.source.Faithful

/-- Two results, or two failures; if `exact` holds, these are the same. -/
inductive Outcome.Alike {α β : Type} (exact : Prop) (R : α → β → Prop) :
    Except Failure α → Except Failure β → Prop
  | ok {x : α} {y : β} (h : R x y) : Alike exact R (.ok x) (.ok y)
  | error {e e' : Failure} (h : exact → e = e') : Alike exact R (.error e) (.error e')

/-- Results that say nothing are alike if there is a failure for both or
neither, under `exact` the same. -/
theorem Outcome.alike_of_failure? {α β : Type} {exact : Prop} {x : Except Failure α}
    {y : Except Failure β}
    (hnone : failure? x = none ↔ failure? y = none) (hsame : exact → failure? x = failure? y) :
    Alike exact (fun _ _ => True) x y := by
  cases x with
  | ok a =>
      cases y with
      | ok b => exact .ok trivial
      | error f => exact nomatch hnone.mp rfl
  | error e =>
      cases y with
      | ok b => exact nomatch hnone.mpr rfl
      | error f => exact .error fun h => Option.some.inj (hsame h)

/-- Alike results are failures together, and under `exact` the same ones. -/
theorem Outcome.Alike.failure?_eq {α β : Type} {exact : Prop} {R : α → β → Prop}
    {x : Except Failure α}
    {y : Except Failure β} (h : Outcome.Alike exact R x y) :
    (failure? x = none ↔ failure? y = none) ∧ (exact → failure? x = failure? y) := by
  cases h with
  | ok h => exact ⟨Iff.rfl, fun _ => rfl⟩
  | error h => exact ⟨⟨nofun, nofun⟩, fun hexact => congrArg some (h hexact)⟩

namespace Action

open Outcome

variable {α β γ δ : Type} {exact : Prop} {R : α → β → Prop} {Q : γ → δ → Prop} {a : Action α}
  {b : Action β}
  {f : α → Action γ} {g : β → Action δ}

/-- Two actions report the same and fail together in sessions that are alike. -/
def Alike (exact : Prop) (R : α → β → Prop) (a : Action α) (b : Action β) : Prop :=
  ∀ s t : Session, s.Alike t →
    Outcome.Alike exact R (a.perform s).1 (b.perform t).1 ∧ (a.perform s).2.Alike (b.perform t).2

theorem alike_pure {x : α} {y : β} (h : R x y) : Alike exact R (pure x) (pure y) :=
  fun _ _ hst => ⟨.ok h, hst⟩

theorem alike_ofExcept {x : Except Failure α} {y : Except Failure β}
    (h : Outcome.Alike exact R x y) :
    Alike exact R (ofExcept x) (ofExcept y) := by
  intro s t hst
  rw [perform_ofExcept, perform_ofExcept]
  exact ⟨h, hst⟩

/-- A first step that has a result. -/
theorem ofExcept_ok_bind (x : α) (f : α → Action γ) : (ofExcept (.ok x) >>= f) = f x := rfl

/-- A first step that fails for the same reason. -/
theorem alike_error_bind (e : Failure) (f : α → Action γ) (g : β → Action δ) :
    Alike exact Q (ofExcept (.error e) >>= f) (ofExcept (.error e) >>= g) :=
  fun _ _ hst => ⟨.error fun _ => rfl, hst⟩

/-- The same result. -/
theorem alike_ofExcept_self (x : Except Failure α) : Alike exact Eq (ofExcept x) (ofExcept x) := by
  refine alike_ofExcept ?_
  cases x with
  | ok a => exact .ok rfl
  | error e => exact .error fun _ => rfl

/-- The same record. -/
theorem alike_report (level : Level) (speaker : Speaker) (message : String) :
    Alike exact Eq (report level speaker message) (report level speaker message) := by
  intro s t hst
  rw [perform_report, perform_report]
  exact ⟨.ok rfl, congrArg (· ++ [_]) hst.log, hst.first, hst.second⟩

/-- Any octets, as many as asked for. -/
theorem alike_draw (count : Nat) :
    Alike exact (fun these those : List UInt8 => these.length = count ∧ those.length = count)
      (draw count)
      (draw count) := by
  intro s t hst
  rw [perform_draw, perform_draw, Randomness.draw_faithful hst.first,
    Randomness.draw_faithful hst.second]
  refine ⟨.ok ⟨?_, ?_⟩, hst.log, hst.first, hst.second⟩ <;> simp [RandomSource.octets]

/-- **Two steps** look alike if both do. -/
theorem alike_bind (h : Alike exact R a b) (hf : ∀ x y, R x y → Alike exact Q (f x) (g y)) :
    Alike exact Q (a >>= f) (b >>= g) := by
  intro s t hst
  rw [perform_bind, perform_bind]
  obtain ⟨houtcome, hsessions⟩ := h s t hst
  generalize a.perform s = first, b.perform t = second at houtcome hsessions
  obtain ⟨x, s'⟩ := first
  obtain ⟨y, t'⟩ := second
  cases houtcome with
  | ok hxy => exact hf _ _ hxy s' t' hsessions
  | error he => exact ⟨.error he, hsessions⟩

/-- **Several steps** look alike if each does. -/
theorem alike_foldlM {f : α → γ → Action α} {g : β → γ → Action β} {l : List γ}
    (step : ∀ c ∈ l, ∀ x y, R x y → Alike exact R (f x c) (g y c)) {x : α} {y : β} (h : R x y) :
    Alike exact R (l.foldlM f x) (l.foldlM g y) := by
  induction l generalizing x y with
  | nil => exact alike_pure h
  | cons c l ih =>
      rw [List.foldlM_cons, List.foldlM_cons]
      refine alike_bind (step c List.mem_cons_self x y h) fun _ _ => ?_
      exact ih fun c hc => step c (List.mem_cons_of_mem _ hc)

end Action

end RegistryBundle
