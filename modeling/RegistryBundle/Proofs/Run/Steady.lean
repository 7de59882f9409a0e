import RegistryBundle.Proofs.Run.Action

/-!
# Steady actions

An action is steady if it ends alike in every session: it may report, but what it gives, or the
failure that ends it, does not depend on what was drawn, reported or issued before.

* `Action.Steady` says so of an action, `Action.Gives` names what it gives;
* `Action.Steady.gives` goes from one session to all of them;
* `Action.Steady.bind` and `Action.steady_foldlM` are the rules for two steps and for several.
-/

namespace RegistryBundle.Action

variable {α β : Type} {a : Action α} {f : α → Action β} {x : α} {y : β} {s s' : Session}

/-- An action ends alike in every session. -/
def Steady (a : Action α) : Prop :=
  ∀ s t, (a.perform s).1 = (a.perform t).1

/-- What an action gives in every session. -/
def Gives (a : Action α) (x : α) : Prop :=
  ∀ s, (a.perform s).1 = .ok x

/-! ## Results -/

theorem Gives.exists_perform (h : Gives a x) (s : Session) : ∃ s', a.perform s = (.ok x, s') :=
  ⟨(a.perform s).2, Prod.ext (h s) rfl⟩

/-- What a steady action gives in one session it gives in all. -/
theorem Steady.gives (h : Steady a) (ha : a.perform s = (.ok x, s')) : Gives a x := by
  intro t
  rw [h t s, ha]

/-- An action gives one result only. -/
theorem Gives.unique {x' : α} (h : Gives a x) (h' : Gives a x') : x = x' :=
  Except.ok.inj ((h .fresh).symm.trans (h' .fresh))

theorem gives_pure (x : α) : Gives (pure x) x :=
  fun _ => rfl

theorem Gives.bind (h : Gives a x) (hf : Gives (f x) y) : Gives (a >>= f) y := by
  intro s
  obtain ⟨t, ht⟩ := h.exists_perform s
  rw [perform_bind_of_ok ht]
  exact hf t

/-! ## Steps -/

theorem steady_pure (x : α) : Steady (pure x) :=
  fun _ _ => rfl

theorem steady_report (level : Level) (speaker : Speaker) (message : String) :
    Steady (report level speaker message) :=
  fun _ _ => rfl

theorem steady_ofExcept (x : Except Failure α) : Steady (ofExcept x) := by
  intro s t
  rw [perform_ofExcept, perform_ofExcept]

/-- **Two steps** that are steady. -/
theorem Steady.bind (h : Steady a) (hf : ∀ x, Steady (f x)) : Steady (a >>= f) := by
  intro s t
  rw [perform_bind, perform_bind]
  generalize a.perform s = first, a.perform t = second, h s t = hsame
  obtain ⟨e | x, s'⟩ := first <;> obtain ⟨e' | x', t'⟩ := second
  · exact congrArg Except.error (Except.error.inj hsame)
  · contradiction
  · contradiction
  · obtain rfl := Except.ok.inj hsame
    exact hf x s' t'

/-- **Several steps** that are steady. -/
theorem steady_foldlM {f : β → α → Action β} (h : ∀ y x, Steady (f y x)) (l : List α) (y : β) :
    Steady (l.foldlM f y) := by
  induction l generalizing y with
  | nil => exact steady_pure y
  | cons x l ih =>
      rw [List.foldlM_cons]
      exact (h y x).bind ih

end RegistryBundle.Action
