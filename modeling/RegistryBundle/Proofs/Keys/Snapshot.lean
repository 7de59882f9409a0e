import RegistryBundle.Keys.Snapshot

/-!
# Snapshots that grow

A snapshot changes in one way only: a managed key that it does not resolve yet gets a text.

* `Snapshot.Extends` is what stays through any number of such changes;
* `Snapshot.extends_withValue` is one change;
* `Snapshot.Same` is equality of snapshots, the texts in any order.
-/

namespace RegistryBundle.Snapshot

/-- A later snapshot of the same registry: names and octets stay, no text is dropped, only empty
ones are overwritten, only managed keys are added, and what was found is found again. -/
structure Extends (s t : Snapshot) : Prop where
  name : t.name = s.name
  space : t.space = s.space
  octets : t.octets = s.octets
  present : ∀ n, (s.texts.lookup n).isSome = true → (t.texts.lookup n).isSome = true
  kept : ∀ n v, s.texts.lookup n = some v → v ≠ "" → t.texts.lookup n = some v
  others : ∀ n, (∀ k : ManagedKey, n ≠ k.name) → t.texts.lookup n = s.texts.lookup n
  found : ∀ n v, s.lookup n = .ok (some v) → t.lookup n = .ok (some v)

variable {s t u : Snapshot}

theorem Extends.refl (s : Snapshot) : s.Extends s where
  name := rfl
  space := rfl
  octets := rfl
  present _ h := h
  kept _ _ h _ := h
  others _ _ := rfl
  found _ _ h := h

theorem Extends.trans (hst : s.Extends t) (htu : t.Extends u) : s.Extends u where
  name := htu.name.trans hst.name
  space := htu.space.trans hst.space
  octets := htu.octets.trans hst.octets
  present n h := htu.present n (hst.present n h)
  kept n v h hv := htu.kept n v (hst.kept n v h hv) hv
  others n h := (htu.others n h).trans (hst.others n h)
  found n v h := htu.found n v (hst.found n v h)

/-- A text that was written is found. -/
theorem lookup_withValue_self (s : Snapshot) (n : String) {v : String} (hv : v ≠ "") :
    (s.withValue n v).lookup n = .ok (some v) := by
  simp [lookup, withValue, Table.lookup_put_self, hv]

/-- A text under another name changes nothing. -/
theorem lookup_withValue_other (s : Snapshot) {n m : String} (h : n ≠ m) (v : String) :
    (s.withValue n v).lookup m = s.lookup m := by
  simp [lookup, lookup.ofOctets, withValue, Table.lookup_put_other h]

/-- A text that is not empty is found. -/
theorem lookup_of_texts {n v : String} (h : s.texts.lookup n = some v) (hv : v ≠ "") :
    s.lookup n = .ok (some v) := by
  simp [lookup, h, hv]

/-- **One change**: a managed key that is not resolved yet gets a text. -/
theorem extends_withValue {k : ManagedKey} (h : s.lookup k.name = .ok none) (v : String) :
    s.Extends (s.withValue k.name v) where
  name := rfl
  space := rfl
  octets := rfl
  present n hn := by
    by_cases hk : k.name = n
    · simp [withValue, ← hk, Table.lookup_put_self]
    · rw [withValue, Table.lookup_put_other hk]
      exact hn
  kept n w hw hne := by
    by_cases hk : k.name = n
    · rw [hk, lookup_of_texts hw hne] at h
      simp at h
    · rw [withValue, Table.lookup_put_other hk]
      exact hw
  others n hn := Table.lookup_put_other (Ne.symm (hn k)) v s.texts
  found n w hw := by
    by_cases hk : k.name = n
    · rw [hk, hw] at h
      simp at h
    · rw [lookup_withValue_other s hk]
      exact hw

/-- A registry without keys resolves none. -/
theorem lookup_emptyFor (d : Descriptor) (n : String) : (emptyFor d).lookup n = .ok none := rfl

/-! ## Equal snapshots -/

/-- Snapshots of one registry that hold the same under every name. -/
structure Same (s t : Snapshot) : Prop where
  name : t.name = s.name
  space : t.space = s.space
  octets : t.octets = s.octets
  texts : ∀ name, t.texts.lookup name = s.texts.lookup name

theorem Same.refl (s : Snapshot) : s.Same s :=
  ⟨rfl, rfl, rfl, fun _ => rfl⟩

theorem Same.symm (h : s.Same t) : t.Same s :=
  ⟨h.name.symm, h.space.symm, h.octets.symm, fun name => (h.texts name).symm⟩

/-- Equal snapshots find the same keys. -/
theorem Same.lookup (h : s.Same t) (name : String) : t.lookup name = s.lookup name := by
  rw [Snapshot.lookup, Snapshot.lookup, h.texts, lookup.ofOctets, lookup.ofOctets, h.octets]

/-- Equal snapshots stay equal. -/
theorem Same.withValue (h : s.Same t) (name value : String) :
    (s.withValue name value).Same (t.withValue name value) := by
  refine ⟨h.name, h.space, h.octets, ?_⟩
  intro other
  by_cases heq : name = other
  · rw [heq, Snapshot.withValue, Snapshot.withValue, Table.lookup_put_self, Table.lookup_put_self]
  · rw [Snapshot.withValue, Snapshot.withValue, Table.lookup_put_other heq,
      Table.lookup_put_other heq, h.texts]

end RegistryBundle.Snapshot
