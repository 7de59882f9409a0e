import RegistryBundle.Proofs.Keys.Provision
import RegistryBundle.Proofs.Keys.Reloading
import RegistryBundle.Proofs.Run.Likeness

/-!
# Keys that stay secret

Resolving keys looks alike for two users and two snapshots that differ in the values of the keys
only: what is reported depends on where a key comes from, and not on the key.

* `Snapshot.Stored` says that a name has a value that is not empty, `Snapshot.LooksLike` that two
  snapshots of one name store the same managed keys;
* `SecretKey.ProvidedAlike` says that two configurations give a text for a key, or both none;
* `SecretKey.alike_resolve` is one key, `SecretKey.alike_resolvePair` both.
-/

namespace RegistryBundle

open RegistryBundle.Action

namespace Snapshot

variable {s t : Snapshot} {name : String}

/-- A value that is not empty stands under a name, as a text or as octets. -/
def Stored (s : Snapshot) (name : String) : Prop :=
  (∃ text, s.texts.lookup name = some text ∧ text ≠ "") ∨ ∃ b, s.octets.lookup name = some b ∧
    b.size ≠ 0

/-- A key is found to be absent exactly if none is stored. -/
theorem lookup_eq_none_iff (s : Snapshot) (name : String) :
    s.lookup name = .ok none ↔ ¬ s.Stored name := by
  have hoctets : lookup.ofOctets s name = .ok none ↔ ¬ ∃ b, s.octets.lookup name = some b ∧
      b.size ≠ 0 := by
    rw [lookup.ofOctets]
    cases s.octets.lookup name with
    | none => simp
    | some b =>
        simp only [Option.some.injEq, exists_eq_left', ne_eq, not_not]
        split
        · next hsize => exact iff_of_true rfl hsize
        · next hsize => cases decode b <;> simp [hsize]
  rw [lookup, Stored, not_or, ← hoctets]
  cases s.texts.lookup name with
  | none => simp
  | some text =>
      by_cases hempty : text = ""
      · simp [hempty]
      · simp [hempty]

/-- A legible snapshot finds the keys that are stored. -/
theorem Legible.exists_lookup_of_stored (h : s.Legible) (hstored : s.Stored name) :
    ∃ key, s.lookup name = .ok (some key) := by
  obtain ⟨found, hfound⟩ := h.exists_lookup name
  cases found with
  | none => exact absurd hstored ((lookup_eq_none_iff s name).mp hfound)
  | some key => exact ⟨key, hfound⟩

/-- Snapshots of one name, both legible, that store the same managed keys. -/
structure LooksLike (s t : Snapshot) : Prop where
  name : t.name = s.name
  first : s.Legible
  second : t.Legible
  stored : ∀ k : ManagedKey, s.Stored k.name ↔ t.Stored k.name

private theorem stored_withValue_self (s : Snapshot) (name : String) {value : String}
    (h : value ≠ "") :
    (s.withValue name value).Stored name :=
  .inl ⟨value, Table.lookup_put_self name value s.texts, h⟩

private theorem stored_withValue_other (s : Snapshot) {name other : String} (h : name ≠ other)
    (value : String) :
    (s.withValue name value).Stored other ↔ s.Stored other := by
  simp only [Stored, withValue, Table.lookup_put_other h]

/-- **A key that is written** in both leaves them looking alike. -/
theorem LooksLike.withValue (h : s.LooksLike t) (k : ManagedKey) {value other : String}
    (hvalue : value ≠ "")
    (hother : other ≠ "") : (s.withValue k.name value).LooksLike (t.withValue k.name other) where
  name := h.name
  first := h.first
  second := h.second
  stored j := by
    by_cases heq : k.name = j.name
    · rw [← heq]
      exact iff_of_true (stored_withValue_self s k.name hvalue)
        (stored_withValue_self t k.name hother)
    · rw [stored_withValue_other s heq, stored_withValue_other t heq, h.stored j]

/-- Registries of one name have snapshots that look alike before a key is made. -/
theorem looksLike_emptyFor {d d' : Descriptor} (h : d'.name = d.name) :
    (emptyFor d).LooksLike (emptyFor d') where
  name := congrArg (· ++ _) h
  first _ he := absurd he List.not_mem_nil
  second _ he := absurd he List.not_mem_nil
  stored k := by
    rw [← not_iff_not, ← lookup_eq_none_iff, ← lookup_eq_none_iff]
    rfl

end Snapshot

namespace SecretKey

variable {exact : Prop} {d d' : Descriptor} {config config' : Entries}
  {given other : Option Snapshot} {s t : Snapshot}
  {k : ManagedKey} {count : Nat}

/-- Two configurations give a text for a key, or neither of them gives anything. -/
def ProvidedAlike (config config' : Entries) (k : ManagedKey) : Prop :=
  (∃ key key', provided? config k.name = .ok (some key) ∧
    provided? config' k.name = .ok (some key')) ∨ provided? config k.name = .ok none ∧
    provided? config' k.name = .ok none

/-- Keys that are made have as many symbols as octets were asked for. -/
theorem alike_generate (count : Nat) :
    Alike exact (fun key key' : String => key.length = count ∧ key'.length = count) (generate count)
      (generate count) := by
  refine alike_bind (alike_draw count) fun these those hlength => ?_
  rw [hlength.1, hlength.2, if_pos rfl, if_pos rfl]
  refine alike_pure ⟨?_, ?_⟩
  · rw [length_ofOctets, hlength.1]
  · rw [length_ofOctets, hlength.2]

/-- Keys of which the snapshots look alike. -/
def Resolved.LooksLike (r r' : Resolved) : Prop :=
  Option.Rel Snapshot.LooksLike r.snapshot r'.snapshot

/-- Making a key. -/
theorem alike_make (hcount : count ≠ 0) (k : ManagedKey) (h : s.LooksLike t) :
    Alike exact Resolved.LooksLike (resolve.make count k.name s) (resolve.make count k.name t) := by
  have hne : ∀ {key : String}, key.length = count → key ≠ "" := by
    intro key hlength heq
    subst heq
    exact hcount hlength.symm
  refine alike_bind (alike_report _ _ _) fun _ _ _ => ?_
  refine alike_bind (alike_generate count) fun key key' hlength => alike_pure (.some ?_)
  exact h.withValue k (hne hlength.1) (hne hlength.2)

/-- **One key.** -/
theorem alike_resolve (hcount : count ≠ 0) (hname : d'.name = d.name)
    (hprovided : ProvidedAlike config config' k)
    (h : Option.Rel Snapshot.LooksLike given other) :
    Alike exact Resolved.LooksLike (resolve d count config given k.name)
      (resolve d' count config' other k.name) := by
  unfold resolve
  obtain ⟨key, key', hfirst, hsecond⟩ | ⟨hfirst, hsecond⟩ := hprovided <;>
    simp only [hfirst, hsecond, ofExcept_ok_bind]
  · exact alike_bind (alike_report _ _ _) fun _ _ _ => alike_pure h
  · cases h with
    | none =>
        rw [hname]
        exact alike_bind (alike_report _ _ _) fun _ _ _ =>
          alike_make hcount k (Snapshot.looksLike_emptyFor hname)
    | @some s t hst =>
        by_cases hstored : s.Stored k.name
        · obtain ⟨key, hkey⟩ := hst.first.exists_lookup_of_stored hstored
          obtain ⟨key', hkey'⟩ := hst.second.exists_lookup_of_stored ((hst.stored k).mp hstored)
          simp only [hkey, hkey', hst.name, ofExcept_ok_bind]
          exact alike_bind (alike_report _ _ _) fun _ _ _ => alike_pure (.some hst)
        · have habsent := (Snapshot.lookup_eq_none_iff s k.name).mpr hstored
          have habsent' := (Snapshot.lookup_eq_none_iff t k.name).mpr (hstored ∘ (hst.stored k).mpr)
          simp only [habsent, habsent', ofExcept_ok_bind]
          exact alike_make hcount k hst

/-- Pairs of keys of which the snapshots look alike. -/
def ResolvedPair.LooksLike (keys keys' : ResolvedPair) : Prop :=
  Option.Rel Snapshot.LooksLike keys.snapshot keys'.snapshot

/-- **Both keys.** -/
theorem alike_resolvePair (hcount : count ≠ 0) (hname : d'.name = d.name)
    (hprovided : ∀ k, ProvidedAlike config config' k)
    (h : Option.Rel Snapshot.LooksLike given other) :
    Alike exact ResolvedPair.LooksLike (resolvePair d count config given)
      (resolvePair d' count config' other) := by
  refine alike_bind (alike_resolve hcount hname (hprovided .secret) h) fun first first' hfirst => ?_
  refine alike_bind (alike_resolve hcount hname (hprovided .database) hfirst)
    fun second second' hsecond => ?_
  exact alike_pure hsecond

end SecretKey

end RegistryBundle
