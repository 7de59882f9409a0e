import RegistryBundle.Proofs.Run.Action

/-!
# Actions that agree

Two actions agree if they do the same in every session and differ at most in what they give.

* `Action.Agree` says so of two actions whose results are related;
* `Action.agree_bind` and `Action.agree_foldlM` are the rules for two steps and for several.
-/

namespace RegistryBundle.Action

variable {α β γ δ : Type} {R : α → β → Prop} {Q : γ → δ → Prop} {a : Action α} {b : Action β}
  {f : α → Action γ}
  {g : β → Action δ}

/-- Outcomes in one session: both give a result, and the results are related, or both fail alike. -/
inductive Both (R : α → β → Prop) : Except Failure α × Session → Except Failure β × Session → Prop
  | ok {x : α} {y : β} (h : R x y) (s : Session) : Both R (.ok x, s) (.ok y, s)
  | error (e : Failure) (s : Session) : Both R (.error e, s) (.error e, s)

/-- Two actions do the same in every session. -/
def Agree (R : α → β → Prop) (a : Action α) (b : Action β) : Prop :=
  ∀ s, Both R (a.perform s) (b.perform s)

theorem agree_pure {x : α} {y : β} (h : R x y) : Agree R (pure x) (pure y) :=
  fun s => .ok h s

private theorem agree_self (a : Action α) : Agree Eq a a := by
  intro s
  obtain ⟨e | x, s'⟩ := a.perform s
  · exact .error e s'
  · exact .ok rfl s'

/-- **Two steps** agree if both do. -/
theorem agree_bind (h : Agree R a b) (hf : ∀ x y, R x y → Agree Q (f x) (g y)) :
    Agree Q (a >>= f) (b >>= g) := by
  intro s
  rw [perform_bind, perform_bind]
  generalize a.perform s = first, b.perform s = second, h s = hboth
  cases hboth with
  | ok hxy s' => exact hf _ _ hxy s'
  | error e s' => exact .error e s'

/-- A first step that is the same agrees with itself. -/
theorem agree_bind_self {f' : α → Action δ} (a : Action α) (hf : ∀ x, Agree Q (f x) (f' x)) :
    Agree Q (a >>= f) (a >>= f') := by
  refine agree_bind (agree_self a) ?_
  intro x _ heq
  subst heq
  exact hf x

/-- **Several steps** agree if each does. -/
theorem agree_foldlM {f : α → γ → Action α} {g : β → γ → Action β}
    (step : ∀ x y c, R x y → Agree R (f x c) (g y c))
    (l : List γ) {x : α} {y : β} (h : R x y) : Agree R (l.foldlM f x) (l.foldlM g y) := by
  induction l generalizing x y with
  | nil => exact agree_pure h
  | cons c l ih =>
      rw [List.foldlM_cons, List.foldlM_cons]
      exact agree_bind (step x y c h) fun _ _ => ih

/-- If one of two actions that agree succeeds, so does the other. -/
theorem Agree.ok {x : α} {s s' : Session} (h : Agree R a b) (ha : a.perform s = (.ok x, s')) :
    ∃ y, b.perform s = (.ok y, s') ∧ R x y := by
  have hboth := h s
  rw [ha] at hboth
  generalize b.perform s = second at hboth ⊢
  cases hboth with
  | ok hxy => exact ⟨_, rfl, hxy⟩

end RegistryBundle.Action
