import RegistryBundle.Keys.Provision
import RegistryBundle.Proofs.Keys.Snapshot
import RegistryBundle.Proofs.Run.Action

/-!
# Where secret keys come from

A key that is resolved was given by the user, or found in the snapshot, or made anew and kept.

* `SecretKey.Resolves` lists the three ways, `SecretKey.resolves_of_ok` says that there is no other;
* `SecretKey.Grows` is what becomes of a snapshot, `SecretKey.resolvePair_ok` is all
  about both keys together.
-/

namespace RegistryBundle.SecretKey

open RegistryBundle.Action

variable {d : Descriptor} {length : Int} {config : Entries} {snapshot : Option Snapshot}
  {name : String}
  {s s' : Session}

/-- How a key of a name is resolved. -/
inductive Resolves (d : Descriptor) (length : Int) (config : Entries) (snapshot : Option Snapshot)
    (name : String) :
    Resolved → Prop
  | given (key : String) (h : provided? config name = .ok (some key)) :
      Resolves d length config snapshot name ⟨key, snapshot, false⟩
  | kept (key : String) (t : Snapshot) (absent : provided? config name = .ok none)
      (ht : snapshot = some t)
      (found : t.lookup name = .ok (some key)) :
        Resolves d length config snapshot name ⟨key, snapshot, false⟩
  | made (key : String) (absent : provided? config name = .ok none)
      (missing : (snapshot.getD (.emptyFor d)).lookup name = .ok none)
      (hlen : (key.length : Int) = length) :
      Resolves d length config snapshot name
        ⟨key, some ((snapshot.getD (.emptyFor d)).withValue name key), true⟩

/-- A key that is made has the length that was asked for. -/
theorem generate_ok {key : String} (h : (generate length).perform s = (.ok key, s')) :
    (key.length : Int) = length := by
  rw [generate] at h
  obtain ⟨octets, _, -, h⟩ := perform_bind_ok.mp h
  split at h
  · next hlen =>
      obtain ⟨rfl, -⟩ := perform_pure_ok h
      rw [length_ofOctets]
      exact hlen
  · exact absurd (congrArg Prod.fst h) (by simp)

/-- Making a key puts it into the snapshot. -/
theorem make_ok {t : Snapshot} {r : Resolved}
    (h : (resolve.make length name t).perform s = (.ok r, s')) :
    ∃ key, r = ⟨key, some (t.withValue name key), true⟩ ∧ (key.length : Int) = length := by
  rw [resolve.make, perform_report_bind] at h
  obtain ⟨key, _, hkey, h⟩ := perform_bind_ok.mp h
  obtain ⟨rfl, -⟩ := perform_pure_ok h
  exact ⟨key, rfl, generate_ok hkey⟩

/-- **A key that is resolved comes from one of three places.** -/
theorem resolves_of_ok {r : Resolved}
    (h : (resolve d length config snapshot name).perform s = (.ok r, s')) :
    Resolves d length config snapshot name r := by
  unfold resolve at h
  obtain ⟨provided, hprovided, h⟩ := perform_ofExcept_bind_ok.mp h
  cases provided with
  | some key =>
      rw [perform_report_bind] at h
      obtain ⟨rfl, -⟩ := perform_pure_ok h
      exact .given key hprovided
  | none =>
      cases snapshot with
      | none =>
          rw [perform_report_bind] at h
          obtain ⟨key, rfl, hlen⟩ := make_ok h
          exact .made key hprovided (Snapshot.lookup_emptyFor d name) hlen
      | some t =>
          obtain ⟨found, hfound, h⟩ := perform_ofExcept_bind_ok.mp h
          cases found with
          | some key =>
              rw [perform_report_bind] at h
              obtain ⟨rfl, -⟩ := perform_pure_ok h
              exact .kept key t hprovided rfl hfound
          | none =>
              obtain ⟨key, rfl, hlen⟩ := make_ok h
              exact .made key hprovided hfound hlen

/-- What becomes of a snapshot: a later one of the same registry, or a first one
for the registry of `d`. -/
def Grows (d : Descriptor) : Option Snapshot → Option Snapshot → Prop
  | some s, kept => ∃ t, kept = some t ∧ s.Extends t
  | none, kept => ∀ t, kept = some t → (Snapshot.emptyFor d).Extends t

theorem Grows.refl (d : Descriptor) (given : Option Snapshot) : Grows d given given := by
  cases given with
  | none => exact fun t ht => absurd ht (by simp)
  | some s => exact ⟨s, rfl, .refl s⟩

theorem Grows.trans {x y z : Option Snapshot} (hxy : Grows d x y) (hyz : Grows d y z) :
    Grows d x z := by
  cases x with
  | some s =>
      obtain ⟨t, rfl, hst⟩ := hxy
      obtain ⟨u, rfl, htu⟩ := hyz
      exact ⟨u, rfl, hst.trans htu⟩
  | none =>
      intro u hu
      cases y with
      | none => exact hyz u hu
      | some t =>
          obtain ⟨u', hu', htu⟩ := hyz
          obtain rfl : u' = u := Option.some.inj (hu'.symm.trans hu)
          exact (hxy t rfl).trans htu

/-- A name that the user's configuration does not hold is given by nobody. -/
theorem provided?_eq_none (h : Value.get? config name = none) :
    provided? config name = .ok none := by
  rw [provided?, h]

/-- What resolving one managed key does to the snapshot. -/
theorem Resolves.grows {k : ManagedKey} {r : Resolved}
    (h : Resolves d length config snapshot k.name r) :
    Grows d snapshot r.snapshot := by
  cases h with
  | given => exact .refl d snapshot
  | kept => exact .refl d snapshot
  | made key absent missing hlen =>
      cases snapshot with
      | none =>
          intro t ht
          rw [← Option.some.inj ht]
          exact Snapshot.extends_withValue missing key
      | some t => exact ⟨_, rfl, Snapshot.extends_withValue missing key⟩

/-- The snapshot is another one only if a key was made. -/
theorem Resolves.snapshot_eq {r : Resolved} (h : Resolves d length config snapshot name r)
    (hmade : r.generated = false) : r.snapshot = snapshot := by
  cases h with
  | given => rfl
  | kept => rfl
  | made => exact absurd hmade (by simp)

/-- A key that the user does not give is found in the snapshot afterwards. -/
theorem Resolves.found {r : Resolved} (h : Resolves d length config snapshot name r)
    (hlength : length ≠ 0)
    (absent : Value.get? config name = none) :
    ∃ t, r.snapshot = some t ∧ t.lookup name = .ok (some r.key) := by
  have hnone := provided?_eq_none absent
  cases h with
  | given key hgiven =>
      rw [hnone] at hgiven
      simp at hgiven
  | kept key t _ ht found => exact ⟨t, ht, found⟩
  | made key _ _ hlen =>
      refine ⟨_, rfl, Snapshot.lookup_withValue_self _ name ?_⟩
      intro heq
      subst heq
      exact hlength hlen.symm

/-- A key that the snapshot finds is taken from there, and the source is left alone. -/
theorem resolve_of_found {t : Snapshot} {key : String} (absent : Value.get? config name = none)
    (found : t.lookup name = .ok (some key)) (s : Session) :
    ∃ s', (resolve d length config (some t) name).perform s = (.ok ⟨key, some t, false⟩, s') ∧
      s'.random = s.random := by
  have hprovided : (ofExcept (provided? config name)).perform s = (.ok none, s) := by
    rw [provided?_eq_none absent, perform_ofExcept]
  have hfound : (ofExcept (t.lookup name)).perform s = (.ok (some key), s) := by
    rw [found, perform_ofExcept]
  unfold resolve
  rw [perform_bind_of_ok hprovided]
  simp only
  rw [perform_bind_of_ok hfound]
  exact ⟨_, rfl, rfl⟩

/-- Two keys that the snapshot finds are both taken from there. -/
theorem resolvePair_of_found {t : Snapshot}
    (absent : ∀ k : ManagedKey, Value.get? config k.name = none)
    (found : ∀ k : ManagedKey, ∃ key, t.lookup k.name = .ok (some key)) (s : Session) :
    ∃ keys s', (resolvePair d length config (some t)).perform s = (.ok keys, s') ∧
      keys.snapshot = some t := by
  obtain ⟨secret, hsecret⟩ := found .secret
  obtain ⟨database, hdatabase⟩ := found .database
  obtain ⟨s₁, hfirst, -⟩ := resolve_of_found (absent .secret) hsecret s
  obtain ⟨s₂, hsecond, -⟩ := resolve_of_found (absent .database) hdatabase s₁
  rw [resolvePair, perform_bind_of_ok hfirst]
  simp only
  rw [perform_bind_of_ok hsecond]
  exact ⟨_, _, rfl, rfl⟩

/-- The key of a name. -/
def ResolvedPair.key (keys : ResolvedPair) : ManagedKey → String
  | .secret => keys.secret
  | .database => keys.database

/-- **Both keys**: the snapshot grows, is another one only if a key was made, and finds every key
that the user does not give. -/
theorem resolvePair_ok {keys : ResolvedPair} (hlength : length ≠ 0)
    (h : (resolvePair d length config snapshot).perform s = (.ok keys, s')) :
    Grows d snapshot keys.snapshot ∧ (keys.generated = false → keys.snapshot = snapshot) ∧
      ∀ k : ManagedKey, Value.get? config k.name = none →
        ∃ t, keys.snapshot = some t ∧ t.lookup k.name = .ok (some (keys.key k)) := by
  rw [resolvePair] at h
  obtain ⟨first, _, hfirst, h⟩ := perform_bind_ok.mp h
  obtain ⟨second, _, hsecond, h⟩ := perform_bind_ok.mp h
  obtain ⟨rfl, -⟩ := perform_pure_ok h
  have hsecret := resolves_of_ok hfirst
  have hdatabase := resolves_of_ok hsecond
  refine ⟨hsecret.grows.trans hdatabase.grows, fun hmade => ?_, fun k absent => ?_⟩
  · rw [Bool.or_eq_false_iff] at hmade
    exact (hdatabase.snapshot_eq hmade.2).trans (hsecret.snapshot_eq hmade.1)
  · cases k with
    | secret =>
        -- What the first step finds the second one keeps.
        obtain ⟨t, ht, found⟩ := hsecret.found hlength absent
        have hgrows := hdatabase.grows
        rw [ht] at hgrows
        obtain ⟨u, hu, htu⟩ := hgrows
        exact ⟨u, hu, htu.found _ _ found⟩
    | database => exact hdatabase.found hlength absent

end RegistryBundle.SecretKey
