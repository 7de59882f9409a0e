import RegistryBundle.Proofs.Keys.Draws
import RegistryBundle.Proofs.Pass.Series

/-!
# Octets that passes draw

Passes that share one source make their keys of its octets, 80 for each key, and no octet goes into
two keys. A pass makes a key exactly if the key is due; one whose source fails it makes none, and
the snapshot stays as it was.

* `Pass.Standing.keysMadeAll` are the keys that several passes make, one after another,
  also those that fail later;
* `Pass.Order.course` is what a pass does with its source,
  `Pass.Standing.consumes_afterAll` what several do;
* `Pass.keys_of_stream` is the main statement.
-/

namespace RegistryBundle.Pass

open RegistryBundle.Action SecretKey

/-! ## One pass -/

/-- The keys that a pass makes, also if it fails after that. -/
def Order.keysMade (o : Order) (given : Option Snapshot) (s : Session) :
    List (ManagedKey × String) :=
  match o.request.components.mapM Component.parse with
  | .error _ => []
  | .ok _ => SecretKey.keysMade o.request.descriptor usualLength o.request.config given s

/-- The keys that a pass should make: those that are due in front of the first that is blocked, and
none for a component that is not known. -/
def Order.keysDue (o : Order) (given : Option Snapshot) : List ManagedKey :=
  match o.request.components.mapM Component.parse with
  | .error _ => []
  | .ok _ =>
    (managedKeys.takeWhile fun k =>
      origin o.request.descriptor o.request.config given k ≠ .blocked).filter fun k =>
      origin o.request.descriptor o.request.config given k = .due

/-- What a pass does with its source: what it gives, the keys that it makes,
and the source afterwards. -/
inductive Course (o : Order) (given : Option Snapshot) (r : Randomness) :
    Except Failure Artifacts → List (ManagedKey × String) → Randomness → Prop
  | unknown (f : Failure) (h : o.request.components.mapM Component.parse = .error f) :
      Course o given r (.error f) [] r
  | known (kinds : List Component) (h : o.request.components.mapM Component.parse = .ok kinds)
      (pair : Except Failure ResolvedPair) (keys : List (ManagedKey × String)) (r' : Randomness)
      (hpair : PairResolution o.request.descriptor usualLength o.request.config given r pair keys
        r')
      (x : Except Failure Artifacts) (stopped : ∀ f, pair = .error f → x = .error f)
      (made : ∀ a, x = .ok a → ∃ p, pair = .ok p ∧ ∀ k, a.key k = p.key k) :
        Course o given r x keys r'

/-- **A pass draws for its keys** and for nothing else. -/
theorem Order.course (o : Order) (given : Option Snapshot) (s : Session) :
    Course o given s.random ((o.pass given).perform s).1 (o.keysMade given s)
      ((o.pass given).perform s).2.random := by
  rw [Order.pass, run_eq, perform_bind, perform_ofExcept, Order.keysMade]
  cases hkinds : o.request.components.mapM Component.parse with
  | error f => exact .unknown f hkinds
  | ok kinds =>
      have hpair := pairResolution o.request.descriptor usualLength o.request.config given s
      simp only
      rw [perform_bind]
      generalize (resolvePair o.request.descriptor usualLength o.request.config given).perform s =
        p at hpair ⊢
      obtain ⟨f | keys, t⟩ := p
      · refine .known kinds hkinds _ _ _ hpair (.error f) (fun _ h => ?_) fun _ h => nomatch h
        rw [Except.error.inj h]
      · simp only
        rw [quiet_finish]
        refine .known kinds hkinds _ _ _ hpair _ (fun _ h => nomatch h) fun a ha =>
          ⟨keys, rfl, fun k => ?_⟩
        obtain ⟨base, -, hkeeps⟩ := keeps_finish (Prod.ext ha rfl)
        cases k with
        | secret => exact hkeeps.secretKey
        | database => exact hkeeps.databaseKey

variable {o : Order} {given : Option Snapshot} {r r' : Randomness} {x : Except Failure Artifacts}
  {keys : List (ManagedKey × String)}

/-- A pass consumes the octets that its keys are made of. -/
theorem Course.consumes (h : Course o given r x keys r') (hr : r.source.Faithful) :
    Consumes 80 r keys r' := by
  cases h with
  | unknown => exact .refl 80 r
  | known _ _ _ _ _ hpair => exact hpair.consumes hr

/-- It makes the keys that it should. -/
theorem Course.names (h : Course o given r x keys r') (hr : r.source.Faithful) :
    keys.map Prod.fst = o.keysDue given := by
  rw [Order.keysDue]
  cases h with
  | unknown f h => rw [h]; rfl
  | known kinds h _ _ _ hpair =>
      rw [h]
      exact hpair.names hr

/-- **A pass that succeeds** has made the keys that were due, and gives those that it made. -/
theorem Course.ok {made : Artifacts} (h : Course o given r (.ok made) keys r') :
    (∀ e ∈ keys, made.key e.1 = e.2) ∧
      (r.source.Faithful → ∀ k, k ∈ o.keysDue given ↔
        Value.get? o.request.config k.name = none ∧
          (given.getD (.emptyFor o.request.descriptor)).lookup k.name = .ok none) := by
  generalize hx : Except.ok made = x at h
  cases h with
  | unknown => contradiction
  | known kinds h pair _ _ hpair _ _ hmade =>
      obtain ⟨p, rfl, hkeys⟩ := hmade made hx.symm
      refine ⟨fun e he => (hkeys e.1).trans (hpair.key_of_mem he), fun hr k => ?_⟩
      have hopen :
        (managedKeys.takeWhile fun k =>
          origin o.request.descriptor o.request.config given k ≠ .blocked) = managedKeys := by
        simp [managedKeys, hpair.open_of_ok hr]
      have hall : k ∈ managedKeys := by cases k <;> decide
      rw [Order.keysDue, h]
      simp only
      rw [hopen, List.mem_filter, decide_eq_true_iff, origin_eq_due_iff]
      exact ⟨fun hk => hk.2, fun hk => ⟨hall, hk⟩⟩

/-- A pass over keys that are all found elsewhere draws nothing. -/
theorem Course.undrawn (h : Course o given r x keys r')
    (hdue : ∀ k, origin o.request.descriptor o.request.config given k ≠ .due) : r' = r := by
  cases h with
  | unknown => rfl
  | known _ _ _ _ _ hpair => exact hpair.undrawn hdue

/-- **A request that goes wrong** fails the pass. -/
theorem Course.fault (h : Course o given r x keys r') {m : Nat} {f : RandomFault}
    (hle : r.requests ≤ m)
    (hlt : m < r'.requests) (hreply : (r.source.reply m usualLength).fault? usualLength = some f) :
    x = .error (.random f) := by
  cases h with
  | unknown => exact absurd hlt (Nat.not_lt_of_le hle)
  | known _ _ _ _ _ hpair _ stopped => exact stopped _ (hpair.fault hle hlt hreply)

/-! ## Several passes -/

namespace Standing

/-- The keys that a pass makes. -/
def keysMade (st : Standing) (o : Order) : List (ManagedKey × String) :=
  o.keysMade st.snapshot { st.session with log := [] }

/-- The keys that several passes make, one after another. -/
def keysMadeAll (st : Standing) : List Order → List (ManagedKey × String)
  | [] => []
  | o :: orders => st.keysMade o ++ (st.after o).keysMadeAll orders

/-- What a pass leaves of the session. -/
theorem session_after (st : Standing) (o : Order) : (st.after o).session = (st.perform o).2 := by
  rw [after]
  split
  · next h => rw [h]
  · next h => rw [h]

/-- A pass of a series. -/
theorem course (st : Standing) (o : Order) :
    Course o st.snapshot st.session.random (st.perform o).1 (st.keysMade o)
      (st.after o).session.random := by
  rw [session_after]
  exact o.course st.snapshot { st.session with log := [] }

/-- **Any number of passes** consume the octets that their keys are made of. -/
theorem consumes_afterAll (st : Standing) (orders : List Order)
    (h : st.session.random.source.Faithful) :
    Consumes 80 st.session.random (st.keysMadeAll orders) (st.afterAll orders).session.random := by
  induction orders generalizing st with
  | nil => exact .refl 80 _
  | cons o orders ih =>
      have hfirst := (st.course o).consumes h
      exact hfirst.append (ih (st.after o) (hfirst.faithful h))

end Standing

/-- Each symbol of a key is that of one octet of a stream, from a position on. -/
def IsImage (source : RandomSource) (position : Nat) (key : String) : Prop :=
  key.length = 80 ∧ ∀ i < 80, key.toList[i]? = alphabet[(source.octet (position + i)).toNat % 63]?

/-- So it is for the key that octets make. -/
theorem isImage_ofOctets (source : RandomSource) (position : Nat) :
    IsImage source position (ofOctets (source.octets position 80)) := by
  refine ⟨by rw [length_ofOctets, RandomSource.length_octets], fun i hi => ?_⟩
  have hlength : alphabet.length = 63 := by decide +kernel
  have hmod : (source.octet (position + i)).toNat % 63 < alphabet.length := by
    rw [hlength]
    exact Nat.mod_lt _ (by decide)
  simp [ofOctets, RandomSource.octets, hi, symbol, hlength, List.getD_eq_getElem?_getD,
    List.getElem?_eq_getElem hmod]

/-- **Keys of one stream.** After any series of passes whose source delivers what it is asked for,
the `j`-th key that was made is the image of the 80 octets behind those of the keys before it, and
nothing else was asked for. The next pass makes the keys that are due, the secret key first: if it
succeeds, just those that the user's configuration lacks and the snapshot does not find, and they
are the keys that it returns. A pass for which no key is due draws nothing, and with any source a
request that goes wrong fails the pass and leaves the snapshot as it was. -/
theorem keys_of_stream (start : Standing) (orders : List Order) :
    let stream := start.session.random
    let later := start.afterAll orders
    (stream.source.Faithful →
      (∀ j k key, (start.keysMadeAll orders)[j]? = some (k, key) →
        IsImage stream.source (stream.position + 80 * j) key) ∧
      later.session.random.position = stream.position + 80 * (start.keysMadeAll orders).length ∧
      later.session.random.requests = stream.requests + (start.keysMadeAll orders).length ∧
      ∀ o, (later.keysMade o).map Prod.fst = o.keysDue later.snapshot ∧
        ∀ made s, later.perform o = (.ok made, s) →
          (∀ k, k ∈ o.keysDue later.snapshot ↔ Value.get? o.request.config k.name = none ∧
            (later.snapshot.getD (.emptyFor o.request.descriptor)).lookup k.name = .ok none) ∧
          ∀ e ∈ later.keysMade o, made.key e.1 = e.2) ∧
      ∀ o, ((∀ k, origin o.request.descriptor o.request.config later.snapshot k ≠ .due) →
          (later.after o).session.random = later.session.random) ∧
        ∀ m f, later.session.random.requests ≤ m → m < (later.after o).session.random.requests →
          (later.session.random.source.reply m usualLength).fault? usualLength = some f →
          (later.perform o).1 = .error (.random f) ∧ (later.after o).snapshot = later.snapshot := by
  intro stream later
  refine ⟨fun h => ?_, fun o => ?_⟩
  · have hconsumes := start.consumes_afterAll orders h
    refine ⟨fun j k key hkey => ?_, hconsumes.position, hconsumes.requests, fun o => ?_⟩
    · rw [show key = _ from hconsumes.image j (k, key) hkey]
      exact isImage_ofOctets _ _
    · have hlater := hconsumes.faithful h
      have hcourse := later.course o
      refine ⟨hcourse.names hlater, fun made s hmade => ?_⟩
      rw [hmade] at hcourse
      obtain ⟨hkeys, hdue⟩ := hcourse.ok
      exact ⟨hdue hlater, hkeys⟩
  · have hcourse := later.course o
    refine ⟨hcourse.undrawn, fun m f hle hlt hreply => ?_⟩
    have herror := hcourse.fault hle hlt hreply
    refine ⟨herror, ?_⟩
    rw [Standing.after]
    split
    · next hok =>
        rw [hok] at herror
        contradiction
    · rfl

/-- A source whose octets count. -/
def counting : RandomSource where
  octet n := UInt8.ofNat n
  reply _ size := .octets size.toNat

/-- A source that fails always. -/
def broken : RandomSource where
  octet _ := 0
  reply _ _ := .failed

/-- What a source leaves behind that nothing was taken from. -/
def untouched (source : RandomSource) : Standing :=
  ⟨{ random := { source := source } }, none⟩

/-- A pass makes its second key of the octets from the eightieth on and returns it, a pass that the
user gives both keys draws nothing, and a pass whose source is broken fails. -/
theorem keys_of_stream_counting :
    counting.Faithful ∧
      (∃ key made s, ((untouched counting).keysMadeAll [bareOrder])[1]? = some (.database, key) ∧
        IsImage counting 80 key ∧ (untouched counting).perform bareOrder = (.ok made, s) ∧
          made.key .database = key) ∧
      ((untouched counting).after ⟨{}, noon, requestWith "a" .null⟩).session.random =
        { source := counting } ∧
      ((untouched broken).perform bareOrder).1 = .error (.random .failed) := by
  have hfaithful : counting.Faithful := fun _ _ => rfl
  have htree : Value.IsTree (.map bareOrder.request.config) := ⟨List.nodup_nil, trivial⟩
  obtain ⟨key, hkey⟩ : ∃ key, ((untouched counting).keysMadeAll [bareOrder])[1]? =
    some (.database, key) := ⟨_, rfl⟩
  obtain ⟨keys, t, hkeys⟩ : ∃ keys t,
    (resolvePair bareOrder.request.descriptor usualLength bareOrder.request.config
      none).perform { (untouched counting).session with log := [] } = (.ok keys, t) := ⟨_, _, rfl⟩
  obtain ⟨made, s, hmade⟩ : ∃ made s, (untouched counting).perform bareOrder = (.ok made, s) :=
    run_of_resolvePair htree rfl hkeys
  obtain ⟨hstream, hnone⟩ := keys_of_stream (untouched counting) []
  obtain ⟨-, -, -, hpasses⟩ := hstream hfaithful
  obtain ⟨himage, -⟩ := (keys_of_stream (untouched counting) [bareOrder]).1 hfaithful
  refine ⟨hfaithful, ⟨key, made, s, hkey, himage 1 .database key hkey, hmade, ?_⟩, ?_, ?_⟩
  · have hmem : (ManagedKey.database, key) ∈ (untouched counting).keysMadeAll [bareOrder] :=
      List.mem_of_getElem? hkey
    rw [Standing.keysMadeAll, Standing.keysMadeAll, List.append_nil] at hmem
    exact ((hpasses bareOrder).2 made s hmade).2 _ hmem
  · exact (hnone ⟨{}, noon, requestWith "a" .null⟩).1 fun k => by cases k <;> decide
  · exact ((keys_of_stream (untouched broken) []).2 bareOrder |>.2 0 .failed (Nat.le_refl 0)
      (by decide) rfl).1

end RegistryBundle.Pass
