import RegistryBundle.Proofs.Keys.Provision
import RegistryBundle.Proofs.Pass.BaseDocument

/-!
# Passes one after another

Each pass is given the snapshot that the last successful one left. Whatever the passes are asked to
do, and whichever of them fail, a managed key that the snapshot resolves once is resolved to the
same text for ever.

* `Pass.Order` is a pass but for its snapshot, `Pass.Standing.after` what one pass leaves behind,
  `Pass.Standing.afterAll` what several do;
* `Pass.Order.pass_ok` is one pass, `Pass.continues_afterAll` any number of them;
* `Pass.managed_keys_settle` is the main statement.
-/

namespace RegistryBundle

/-- The key of a name. -/
def Artifacts.key (made : Artifacts) : ManagedKey → String
  | .secret => made.secretKey
  | .database => made.databaseKey

namespace Pass

open SecretKey

/-- A pass that is asked for, but for the snapshot. -/
structure Order where
  settings : Settings
  now : Moment
  request : Request

/-- The pass over a snapshot. -/
def Order.pass (o : Order) (given : Option Snapshot) : Action Artifacts :=
  run o.settings o.now { o.request with snapshot := given }

/-- **One pass**: the snapshot grows, is another one only if a key was made, and finds every key
that the user does not give. -/
theorem Order.pass_ok {o : Order} {given : Option Snapshot} {s s' : Session} {made : Artifacts}
    (h : (o.pass given).perform s = (.ok made, s')) :
    Grows o.request.descriptor given made.snapshot ∧
      (made.generated = false → made.snapshot = given) ∧
      ∀ k : ManagedKey, Value.get? o.request.config k.name = none →
        ∃ t, made.snapshot = some t ∧ t.lookup k.name = .ok (some (made.key k)) := by
  obtain ⟨keys, _, _, hkeys, -, hsecret, hdatabase, hsnapshot, hgenerated, -⟩ := run_ok h
  obtain ⟨hgrows, hsame, hfound⟩ := resolvePair_ok (by decide) hkeys
  have hkey : ∀ k, made.key k = keys.key k := fun k => by
    cases k with
    | secret => exact hsecret
    | database => exact hdatabase
  simp only [hsnapshot, hgenerated, hkey]
  exact ⟨hgrows, hsame, hfound⟩

/-- What passes leave behind: the session, and the snapshot of the last one that succeeded. -/
structure Standing where
  session : Session
  snapshot : Option Snapshot

namespace Standing

/-- A pass that is given what was left behind; its log is its own. -/
def perform (st : Standing) (o : Order) : Except Failure Artifacts × Session :=
  (o.pass st.snapshot).perform { st.session with log := [] }

/-- What is left behind after one more pass. -/
def after (st : Standing) (o : Order) : Standing :=
  match st.perform o with
  | (.ok made, s) => ⟨s, made.snapshot⟩
  | (.error _, s) => ⟨s, st.snapshot⟩

/-- What is left behind after several more. -/
def afterAll (st : Standing) (orders : List Order) : Standing :=
  orders.foldl after st

private theorem afterAll_append (st : Standing) (before after : List Order) :
    st.afterAll (before ++ after) = (st.afterAll before).afterAll after :=
  List.foldl_append

/-- A managed key is resolved to a text. -/
def Finds (st : Standing) (k : ManagedKey) (v : String) : Prop :=
  ∃ s, st.snapshot = some s ∧ s.lookup k.name = .ok (some v)

/-- A snapshot that is there stays there, and only grows. -/
def Continues (earlier later : Standing) : Prop :=
  ∀ s, earlier.snapshot = some s → ∃ t, later.snapshot = some t ∧ s.Extends t

theorem Continues.trans {a b c : Standing} (hab : a.Continues b) (hbc : b.Continues c) :
    a.Continues c := by
  intro s hs
  obtain ⟨t, ht, hst⟩ := hab s hs
  obtain ⟨u, hu, htu⟩ := hbc t ht
  exact ⟨u, hu, hst.trans htu⟩

/-- What was found is found later. -/
theorem Continues.finds {earlier later : Standing} (h : earlier.Continues later) {k : ManagedKey}
    {v : String}
    (hv : earlier.Finds k v) : later.Finds k v := by
  obtain ⟨s, hs, found⟩ := hv
  obtain ⟨t, ht, hst⟩ := h s hs
  exact ⟨t, ht, hst.found _ _ found⟩

/-- One more pass, whether it succeeds or fails. -/
theorem continues_after (st : Standing) (o : Order) : st.Continues (st.after o) := by
  intro s hs
  rw [after]
  split
  · next made s' h =>
      obtain ⟨hgrows, -⟩ := o.pass_ok h
      rw [hs] at hgrows
      exact hgrows
  · exact ⟨s, hs, .refl s⟩

/-- **Any number of passes.** -/
theorem continues_afterAll (st : Standing) (orders : List Order) :
    st.Continues (st.afterAll orders) := by
  induction orders generalizing st with
  | nil => exact fun s hs => ⟨s, hs, .refl s⟩
  | cons o orders ih => exact (st.continues_after o).trans (ih (st.after o))

end Standing

/-- **Managed keys settle.** Between two points of a series of passes the snapshot only grows:
its name, its namespace and its octets stay, no text is dropped, only empty ones are overwritten,
only managed keys are added, and every key is found again. A pass at the later point lets the
snapshot grow in the same way, or makes the first one for its registry; it returns another
snapshot only if it made a key; and it returns every key that was found at the earlier point,
unless the user gives the key. -/
theorem managed_keys_settle (start : Standing) (before after : List Order) :
    (start.afterAll before).Continues (start.afterAll (before ++ after)) ∧
      ∀ (o : Order) (made : Artifacts) (s : Session),
        (start.afterAll (before ++ after)).perform o = (.ok made, s) →
        Grows o.request.descriptor (start.afterAll (before ++ after)).snapshot made.snapshot ∧
          (made.snapshot ≠ (start.afterAll (before ++ after)).snapshot → made.generated = true) ∧
          ∀ (k : ManagedKey) (v : String), (start.afterAll before).Finds k v →
            Value.get? o.request.config k.name = none → made.key k = v := by
  rw [Standing.afterAll_append]
  have hcontinues := (start.afterAll before).continues_afterAll after
  refine ⟨hcontinues, ?_⟩
  intro o made s h
  obtain ⟨hgrows, hsame, hfound⟩ := o.pass_ok h
  refine ⟨hgrows, fun hne => ?_, fun k v hv absent => ?_⟩
  · rw [← Bool.not_eq_false]
    exact fun hgenerated => hne (hsame hgenerated)
  · -- What the pass finds is what was found before it.
    obtain ⟨s, hs, hlater⟩ := hcontinues.finds hv
    rw [hs] at hgrows
    obtain ⟨t, ht, hst⟩ := hgrows
    obtain ⟨u, hu, hkey⟩ := hfound k absent
    obtain rfl : t = u := Option.some.inj (ht.symm.trans hu)
    rw [hst.found _ _ hlater] at hkey
    exact (Option.some.inj (Except.ok.inj hkey)).symm

/-- A pass that the user gives no key, and that renders no component. -/
def bareOrder : Order :=
  { settings := {}, now := noon
    request := { descriptor := { name := "r" }, components := [], issueCertificate := false } }

/-- The second of two such passes returns the key that the first one made. -/
theorem managed_keys_settle_twice :
    ∃ v made s, (Standing.afterAll ⟨.fresh, none⟩ [bareOrder]).Finds .secret v ∧
      (Standing.afterAll ⟨.fresh, none⟩ ([bareOrder] ++ [])).perform bareOrder = (.ok made, s) ∧
      made.key .secret = v := by
  have htree : Value.IsTree (.map bareOrder.request.config) := ⟨List.nodup_nil, trivial⟩
  have absent : ∀ k : ManagedKey, Value.get? bareOrder.request.config k.name = none := fun _ => rfl
  obtain ⟨keys, t, hkeys⟩ : ∃ keys t,
    (SecretKey.resolvePair bareOrder.request.descriptor SecretKey.usualLength
      bareOrder.request.config none).perform { Session.fresh with log := [] } = (.ok keys, t) :=
        ⟨_, _, rfl⟩
  obtain ⟨first, s₁, hfirst⟩ : ∃ made s,
    (bareOrder.pass none).perform { Session.fresh with log := [] } =
      (.ok made, s) := run_of_resolvePair htree rfl hkeys
  have hafter : Standing.afterAll ⟨.fresh, none⟩ [bareOrder] = ⟨s₁, first.snapshot⟩ := by
    simp only [Standing.afterAll, List.foldl_cons, List.foldl_nil, Standing.after, Standing.perform,
      hfirst]
  obtain ⟨-, -, hfound⟩ := bareOrder.pass_ok hfirst
  obtain ⟨kept, hkept, hsecret⟩ := hfound .secret (absent .secret)
  have hboth : ∀ k : ManagedKey, ∃ key, kept.lookup k.name = .ok (some key) := fun k => by
    obtain ⟨u, hu, hkey⟩ := hfound k (absent k)
    rw [Option.some.inj (hkept.symm.trans hu)]
    exact ⟨_, hkey⟩
  obtain ⟨again, s₂, hagain, -⟩ := resolvePair_of_found (d := bareOrder.request.descriptor)
    absent hboth { s₁ with log := [] }
  obtain ⟨made, s, hmade⟩ : ∃ made s, (bareOrder.pass (some kept)).perform { s₁ with log := [] } =
    (.ok made, s) := run_of_resolvePair htree rfl hagain
  have hperform : (Standing.afterAll ⟨.fresh, none⟩ ([bareOrder] ++ [])).perform bareOrder =
      (.ok made, s) := by
    rw [List.append_nil, hafter, Standing.perform, hkept]
    exact hmade
  have hfinds : (Standing.afterAll ⟨.fresh, none⟩ [bareOrder]).Finds .secret
      (first.key .secret) := by
    rw [hafter]
    exact ⟨kept, hkept, hsecret⟩
  obtain ⟨-, hlater⟩ := managed_keys_settle ⟨.fresh, none⟩ [bareOrder] []
  obtain ⟨-, -, hkey⟩ := hlater bareOrder made s hperform
  exact ⟨_, made, s, hfinds, hperform, hkey .secret _ hfinds (absent .secret)⟩

end Pass

end RegistryBundle
