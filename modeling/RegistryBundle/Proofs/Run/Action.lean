import RegistryBundle.Proofs.Outcome
import RegistryBundle.Run.Action

/-!
# What actions do

An action that is performed gives a result and leaves a session. Steps that fail end the action and
leave the session as they found or made it.

* `Action.perform_bind` is the rule for two steps, `Action.perform_bind_ok` the same for
  an action that succeeds;
* `Action.perform_ofExcept`, `Action.perform_report`, `Action.perform_draw` say what single steps
  do, and `Action.perform_ofExcept_bind_ok`, `Action.perform_report_bind` the same of first steps;
* `Action.perform_foldlM_ok` is induction on steps for the items of a list,
  `Action.perform_foldlM_listed` the same of what depends on the items so far,
  `Action.perform_foldlM_mem` the step for one of them;
* `Action.Quiet` are the actions that draw no octets.
-/

namespace RegistryBundle

/-- A source that delivers zeros, as many as asked for. -/
def RandomSource.zeros : RandomSource where
  octet _ := 0
  reply _ size := .octets size.toNat

/-- A session with that source, before anything happens in it. -/
def Session.fresh : Session :=
  { random := { source := .zeros } }

namespace Action

variable {α β : Type} {a : Action α} {f : α → Action β} {s s' : Session}

/-- One record more in the log. -/
def logged (s : Session) (level : Level) (speaker : Speaker) (message : String) : Session :=
  { s with log := s.log ++ [{ level := level, speaker := speaker, message := message }] }

@[simp] theorem perform_pure (x : α) (s : Session) : (pure x : Action α).perform s = (.ok x, s) :=
    rfl

@[simp] theorem perform_throw (e : Failure) (s : Session) :
    (throw e : Action α).perform s = (.error e, s) := rfl

@[simp] theorem perform_ofExcept (x : Except Failure α) (s : Session) :
    (ofExcept x).perform s = (x, s) := by
  cases x <;> rfl

@[simp] theorem perform_report (level : Level) (speaker : Speaker) (message : String)
    (s : Session) :
    (report level speaker message).perform s = (.ok (), logged s level speaker message) := rfl

@[simp] theorem perform_draw (size : Int) (s : Session) :
    (draw size).perform s = ((s.random.draw size).1, { s with random := (s.random.draw size).2 }) :=
  perform_ofExcept _ _

/-- **Two steps**: the second is taken in the session that the first
leaves, if the first succeeds. -/
theorem perform_bind (a : Action α) (f : α → Action β) (s : Session) :
    (a >>= f).perform s =
      match a.perform s with
      | (.ok x, s') => (f x).perform s'
      | (.error e, s') => (.error e, s') := by
  rw [perform, perform, Outcome.run_bind]
  obtain ⟨_ | x, s'⟩ := a.run.run s <;> rfl

/-- Two steps of which the first succeeds. -/
theorem perform_bind_of_ok {x : α} (h : a.perform s = (.ok x, s')) :
    (a >>= f).perform s = (f x).perform s' := by
  rw [perform_bind, h]

/-- If two steps succeed, each of them does. -/
theorem perform_bind_ok {y : β} :
    (a >>= f).perform s = (.ok y, s') ↔ ∃ x t, a.perform s = (.ok x, t) ∧
      (f x).perform t = (.ok y, s') :=
  Outcome.run_bind_eq_ok

/-- A first step that only looks at a result. -/
theorem perform_ofExcept_bind_ok {x : Except Failure α} {y : β} :
    (ofExcept x >>= f).perform s = (.ok y, s') ↔ ∃ z, x = .ok z ∧
      (f z).perform s = (.ok y, s') := by
  rw [perform_bind_ok]
  simp only [perform_ofExcept, Prod.mk.injEq]
  constructor
  · rintro ⟨z, _, ⟨hx, rfl⟩, h⟩
    exact ⟨z, hx, h⟩
  · intro hparts
    obtain ⟨z, hx, h⟩ := hparts
    exact ⟨z, s, ⟨hx, rfl⟩, h⟩

/-- A first step that only reports. -/
theorem perform_report_bind (level : Level) (speaker : Speaker) (message : String)
    (g : Unit → Action β)
    (s : Session) :
    (report level speaker message >>= g).perform s =
      (g ()).perform (logged s level speaker message) :=
  perform_bind_of_ok (perform_report level speaker message s)

/-- A last step. -/
theorem perform_pure_ok {x y : α} (h : (pure x : Action α).perform s = (.ok y, s')) :
    x = y ∧ s = s' := by
  rw [perform_pure, Prod.mk.injEq, Except.ok.injEq] at h
  exact h

/-- **Several steps**: what holds at first, and after each step if before it, holds at last. -/
theorem perform_foldlM_ok {f : β → α → Action β} {P : β → Prop}
    (step : ∀ {x y : β} {a : α} {s s' : Session}, P x → (f x a).perform s = (.ok y, s') → P y)
    {l : List α} {x y : β}
    (hx : P x) (h : (l.foldlM f x).perform s = (.ok y, s')) : P y := by
  induction l generalizing x s with
  | nil =>
      obtain ⟨rfl, -⟩ := perform_pure_ok h
      exact hx
  | cons a l ih =>
      rw [List.foldlM_cons] at h
      obtain ⟨z, _, hz, h⟩ := perform_bind_ok.mp h
      exact ih (step hx hz) h

/-- If several steps succeed, there was one for each item, and others after it. -/
theorem perform_foldlM_mem {f : β → α → Action β} {l : List α} {a : α} {x y : β} (ha : a ∈ l)
    (h : (l.foldlM f x).perform s = (.ok y, s')) :
    ∃ rest before after t t', (f before a).perform t = (.ok after, t') ∧
      (List.foldlM f after rest).perform t' = (.ok y, s') := by
  obtain ⟨earlier, rest, rfl⟩ := List.append_of_mem ha
  rw [List.foldlM_append] at h
  obtain ⟨before, t, -, h⟩ := perform_bind_ok.mp h
  rw [List.foldlM_cons] at h
  obtain ⟨after, t', hstep, hrest⟩ := perform_bind_ok.mp h
  exact ⟨rest, before, after, t, t', hstep, hrest⟩

/-- **Induction on steps** of what depends on the items for which there was a step. -/
theorem perform_foldlM_listed {f : β → α → Action β} {P : (α → Prop) → β → Prop}
    (step : ∀ {listed : α → Prop} {x y : β} {a : α} {s s' : Session}, P listed x →
      (f x a).perform s = (.ok y, s') → P (fun b => b = a ∨ listed b) y) {l : List α} {listed :
      α → Prop} {x y : β} (hx : P listed x)
    (h : (l.foldlM f x).perform s = (.ok y, s')) : P (fun a => a ∈ l ∨ listed a) y := by
  induction l generalizing x s listed with
  | nil =>
      obtain ⟨rfl, -⟩ := perform_pure_ok h
      simpa using hx
  | cons a l ih =>
      rw [List.foldlM_cons] at h
      obtain ⟨z, _, hz, h⟩ := perform_bind_ok.mp h
      have hlisted : (fun b => b ∈ a :: l ∨ listed b) = fun b => b ∈ l ∨ b = a ∨ listed b := by
        funext b
        rw [List.mem_cons, or_assoc, or_left_comm]
      rw [hlisted]
      exact ih (step hx hz) h

/-! ## Actions that draw nothing -/

/-- An action that leaves the source as it is. -/
def Quiet (a : Action α) : Prop :=
  ∀ s, (a.perform s).2.random = s.random

theorem quiet_pure (x : α) : Quiet (pure x) := fun _ => rfl

theorem quiet_throw (e : Failure) : Quiet (throw e : Action α) := fun _ => rfl

theorem quiet_report (level : Level) (speaker : Speaker) (message : String) :
    Quiet (report level speaker message) :=
  fun _ => rfl

theorem quiet_ofExcept (x : Except Failure α) : Quiet (ofExcept x) := by
  intro s
  rw [perform_ofExcept]

/-- **Two steps** that draw nothing. -/
theorem Quiet.bind (h : Quiet a) (hf : ∀ x, Quiet (f x)) : Quiet (a >>= f) := by
  intro s
  rw [perform_bind]
  generalize heq : a.perform s = first
  have hfirst : first.2.random = s.random := by rw [← heq, h s]
  obtain ⟨e | x, t⟩ := first
  · exact hfirst
  · exact (hf x t).trans hfirst

/-- **Several steps** that draw nothing. -/
theorem quiet_foldlM {f : β → α → Action β} (h : ∀ x a, Quiet (f x a)) (l : List α) (x : β) :
    Quiet (l.foldlM f x) := by
  induction l generalizing x with
  | nil => exact quiet_pure x
  | cons a l ih =>
      rw [List.foldlM_cons]
      exact (h x a).bind ih

end Action

end RegistryBundle
