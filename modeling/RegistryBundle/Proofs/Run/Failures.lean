import RegistryBundle.Proofs.Run.Action

/-!
# The first failure

Steps that are taken one after another fail with the failure of the first step that fails.

* `Outcome.failure?` is the failure of a computation, if it fails;
* `Outcome.failure?_mapM` is the rule for the items of a list, `Action.failure?_bind` and
  `Action.failure?_foldlM` the rules for actions.
-/

namespace RegistryBundle

namespace Outcome

variable {ε α β : Type}

/-- The failure of a computation that fails. -/
def failure? : Except ε α → Option ε
  | .ok _ => none
  | .error e => some e

theorem failure?_eq_some_iff {x : Except ε α} {e : ε} : failure? x = some e ↔ x = .error e := by
  cases x <;> simp [failure?]

/-- A list of computations fails with the first failure in it. -/
theorem failure?_mapM (f : α → Except ε β) (l : List α) :
    failure? (l.mapM f) = l.findSome? fun a => failure? (f a) := by
  induction l with
  | nil => rfl
  | cons a l ih =>
      rw [List.mapM_cons, List.findSome?_cons, ← ih]
      cases f a with
      | error e => rfl
      | ok b => cases l.mapM f <;> rfl

end Outcome

namespace Action

open Outcome

variable {α β : Type} {a : Action α} {f : α → Action β} {s : Session} {e? : Option Failure}

/-- A first step that only looks at a result. -/
theorem failure?_ofExcept_bind (x : Except Failure α)
    (h : ∀ y, x = .ok y → failure? ((f y).perform s).1 = e?) :
    failure? ((ofExcept x >>= f).perform s).1 = (failure? x).or e? := by
  cases x with
  | error e => rfl
  | ok y => exact h y rfl

/-- **Two steps**, of which the second fails alike whatever the first gives. -/
theorem failure?_bind (h : ∀ x t, a.perform s = (.ok x, t) → failure? ((f x).perform t).1 = e?) :
    failure? ((a >>= f).perform s).1 = (failure? (a.perform s).1).or e? := by
  rw [perform_bind]
  generalize heq : a.perform s = first
  obtain ⟨e | x, t⟩ := first
  · rfl
  · exact h x t heq

/-- Two steps, of which the second never fails. -/
theorem failure?_bind_of_none (h : ∀ x t, failure? ((f x).perform t).1 = none) :
    failure? ((a >>= f).perform s).1 = failure? (a.perform s).1 := by
  rw [failure?_bind fun x t _ => h x t, Option.or_none]

/-- **Several steps**, of which each fails alike whatever the ones before it gave. -/
theorem failure?_foldlM {f : β → α → Action β} {g : α → Option Failure}
    (step : ∀ x a s, failure? ((f x a).perform s).1 = g a) (l : List α) (x : β) (s : Session) :
    failure? ((l.foldlM f x).perform s).1 = l.findSome? g := by
  induction l generalizing x s with
  | nil => rfl
  | cons a l ih =>
      rw [List.foldlM_cons, failure?_bind fun y t _ => ih y t, step, List.findSome?_cons]
      cases g a <;> rfl

end Action

end RegistryBundle
