import RegistryBundle.Proofs.Keys.Provision
import RegistryBundle.Proofs.Run.Failures

/-!
# Octets that keys are made of

A key is made of octets that are drawn for it alone; nothing else about keys draws any.

* `SecretKey.drawn` is the key that the next octets make, `SecretKey.drawn_faithful` and
  `SecretKey.drawn_of_fault` say what becomes of it;
* `SecretKey.Resolution` and `SecretKey.PairResolution` list everything that resolving
  one key or both can do, and `SecretKey.resolution` and `SecretKey.pairResolution` say
  that it does nothing else;
* `SecretKey.Consumes` are keys made of consecutive octets, `SecretKey.origin` says
  which keys are made at all.
-/

namespace RegistryBundle

/-- A draw leaves the source the same source. -/
theorem Randomness.source_draw (r : Randomness) (size : Int) :
    (r.draw size).2.source = r.source := by
  unfold Randomness.draw
  simp only
  split <;> rfl

/-- A draw is one request. -/
theorem Randomness.requests_draw (r : Randomness) (size : Int) :
    (r.draw size).2.requests = r.requests + 1 := by
  unfold Randomness.draw
  simp only
  split <;> rfl

/-- What is wrong with a reply to a request for `length` octets. -/
def Reply.fault? (length : Int) : Reply → Option RandomFault
  | octets count => if (count : Int) = length then none else some (.wrongCount count length)
  | failed => some .failed
  | refused => none

theorem RandomSource.length_octets (source : RandomSource) (position count : Nat) :
    (source.octets position count).length = count := by
  simp [octets]

namespace SecretKey

open RegistryBundle.Action

variable {d : Descriptor} {length : Int} {config : Entries} {snapshot : Option Snapshot}
  {name : String}

/-- The key that the next octets of a source make, if as many are delivered as asked for. -/
def drawn (r : Randomness) (length : Int) : Except Failure String :=
  match (r.draw length).1 with
  | .ok octets =>
    if (octets.length : Int) = length then .ok (ofOctets octets)
    else .error (.random (.wrongCount octets.length length))
  | .error f => .error f

/-- Generating a key draws once. -/
theorem perform_generate (length : Int) (s : Session) :
    (generate length).perform s = (drawn s.random length,
      { s with random := (s.random.draw length).2 }) := by
  rw [generate, perform_bind, perform_draw, drawn]
  cases (s.random.draw length).1 with
  | error f => rfl
  | ok octets =>
      dsimp only
      split <;> rfl

/-- Everything that resolving a key can do: what it gives, and the source afterwards. -/
inductive Resolution (d : Descriptor) (length : Int) (config : Entries) (snapshot : Option Snapshot)
    (name : String)
    (r : Randomness) : Except Failure Resolved → Randomness → Prop
  | refused (f : Failure) (h : provided? config name = .error f) :
      Resolution d length config snapshot name r (.error f) r
  | given (key : String) (h : provided? config name = .ok (some key)) :
      Resolution d length config snapshot name r (.ok ⟨key, snapshot, false⟩) r
  | illegible (t : Snapshot) (f : Failure) (absent : provided? config name = .ok none)
      (ht : snapshot = some t)
      (h : t.lookup name = .error f) : Resolution d length config snapshot name r (.error f) r
  | kept (key : String) (t : Snapshot) (absent : provided? config name = .ok none)
      (ht : snapshot = some t)
      (h : t.lookup name = .ok (some key)) :
        Resolution d length config snapshot name r (.ok ⟨key, snapshot, false⟩) r
  | made (absent : provided? config name = .ok none)
      (missing : (snapshot.getD (.emptyFor d)).lookup name = .ok none) :
      Resolution d length config snapshot name r
        ((drawn r length).map fun key =>
          ⟨key, some ((snapshot.getD (.emptyFor d)).withValue name key), true⟩)
        (r.draw length).2

/-- Making a key draws once and puts it into the snapshot. -/
theorem perform_make (length : Int) (name : String) (t : Snapshot) (s : Session) :
    ((resolve.make length name t).perform s).1 =
        (drawn s.random length).map (fun key => ⟨key, some (t.withValue name key), true⟩) ∧
      ((resolve.make length name t).perform s).2.random = (s.random.draw length).2 := by
  rw [resolve.make, perform_report_bind, perform_bind, perform_generate, logged]
  cases drawn s.random length <;> exact ⟨rfl, rfl⟩

/-- **Resolving a key** does nothing else. -/
theorem resolution (d : Descriptor) (length : Int) (config : Entries) (snapshot : Option Snapshot)
    (name : String)
    (s : Session) :
    Resolution d length config snapshot name s.random
      ((resolve d length config snapshot name).perform s).1
      ((resolve d length config snapshot name).perform s).2.random := by
  unfold resolve
  rw [perform_bind, perform_ofExcept]
  cases hprovided : provided? config name with
  | error f => exact .refused f hprovided
  | ok provided =>
      cases provided with
      | some key => exact .given key hprovided
      | none =>
          cases snapshot with
          | none =>
              simp only [perform_report_bind]
              obtain ⟨hresult, hrandom⟩ := perform_make length name (.emptyFor d)
                (logged s .info .secretKeys s!"Creating a new managed secret for {d.name}")
              rw [hresult, hrandom]
              exact .made hprovided (Snapshot.lookup_emptyFor d name)
          | some t =>
              simp only
              rw [perform_bind, perform_ofExcept]
              cases hfound : t.lookup name with
              | error f => exact .illegible t f hprovided rfl hfound
              | ok found =>
                  cases found with
                  | some key => exact .kept key t hprovided rfl hfound
                  | none =>
                      obtain ⟨hresult, hrandom⟩ := perform_make length name t s
                      simp only
                      rw [hresult, hrandom]
                      exact .made hprovided hfound

/-! ## What becomes of a draw -/

variable {r r' r'' : Randomness} {s : Session} {k : ManagedKey}
  {keys more : List (ManagedKey × String)}

/-- **A draw that goes wrong** makes no key. -/
theorem drawn_of_fault {f : RandomFault}
    (h : (r.source.reply r.requests length).fault? length = some f) :
    drawn r length = .error (.random f) := by
  rw [drawn, Randomness.draw]
  cases hreply : r.source.reply r.requests length with
  | octets count =>
      rw [hreply, Reply.fault?] at h
      split at h
      · contradiction
      · next hne =>
          obtain rfl := Option.some.inj h
          simp only [RandomSource.length_octets, if_neg hne]
  | failed =>
      rw [hreply, Reply.fault?] at h
      obtain rfl := Option.some.inj h
      rfl
  | refused =>
      rw [hreply, Reply.fault?] at h
      contradiction

/-- **A draw from a faithful source** makes a key of the next octets. -/
theorem drawn_faithful (h : r.source.Faithful) (count : Nat) :
    drawn r count = .ok (ofOctets (r.source.octets r.position count)) := by
  rw [drawn, Randomness.draw_faithful h]
  simp only [RandomSource.length_octets, if_true]

/-! ## Keys of one stream -/

/-- Keys are made of consecutive octets of a source, `count` of them for each key. -/
structure Consumes (count : Nat) (r : Randomness) (keys : List (ManagedKey × String))
    (r' : Randomness) : Prop where
  image : ∀ j e, keys[j]? = some e → e.2 = ofOctets (r.source.octets (r.position + count * j) count)
  source : r'.source = r.source
  position : r'.position = r.position + count * keys.length
  requests : r'.requests = r.requests + keys.length

theorem Consumes.refl (count : Nat) (r : Randomness) : Consumes count r [] r :=
  ⟨fun _ _ h => by simp at h, rfl, rfl, rfl⟩

theorem Consumes.faithful {count : Nat} (h : Consumes count r keys r') (hr : r.source.Faithful) :
    r'.source.Faithful := by
  rw [h.source]
  exact hr

/-- Keys made later are made of octets further on. -/
theorem Consumes.append {count : Nat} (h : Consumes count r keys r')
    (hmore : Consumes count r' more r'') :
    Consumes count r (keys ++ more) r'' where
  image j e he := by
    by_cases hj : j < keys.length
    · rw [List.getElem?_append_left hj] at he
      exact h.image j e he
    · rw [List.getElem?_append_right (Nat.le_of_not_lt hj)] at he
      have hposition : r'.position + count * (j - keys.length) = r.position + count * j := by
        rw [h.position, Nat.add_assoc, ← Nat.mul_add, Nat.add_sub_cancel' (Nat.le_of_not_lt hj)]
      rw [hmore.image _ e he, h.source, hposition]
  source := hmore.source.trans h.source
  position := by rw [hmore.position, h.position, List.length_append, Nat.mul_add, Nat.add_assoc]
  requests := by rw [hmore.requests, h.requests, List.length_append, Nat.add_assoc]

/-- The key that a step makes, under its name. -/
def Resolved.made (k : ManagedKey) (r : Resolved) : List (ManagedKey × String) :=
  if r.generated then [(k, r.key)] else []

/-- It stands under the name of the key. -/
theorem Resolved.eq_of_mem_made {made : Resolved} {e : ManagedKey × String} (h : e ∈ made.made k) :
    e = (k, made.key) := by
  unfold Resolved.made at h
  split at h
  · exact List.mem_singleton.mp h
  · exact absurd h List.not_mem_nil

/-- The same of a step that may fail. -/
def madeOf (k : ManagedKey) (x : Except Failure Resolved) : List (ManagedKey × String) :=
  match x with
  | .ok r => r.made k
  | .error _ => []

/-- One key consumes the octets that it is made of. -/
theorem Resolution.consumes {count : Nat} {x : Except Failure Resolved}
    (h : Resolution d count config snapshot k.name r x r') (hr : r.source.Faithful) :
    Consumes count r (madeOf k x) r' := by
  cases h with
  | refused => exact .refl count r
  | given => exact .refl count r
  | illegible => exact .refl count r
  | kept => exact .refl count r
  | made =>
      rw [drawn_faithful hr, Randomness.draw_faithful hr]
      refine ⟨?_, rfl, by simp [madeOf, Resolved.made], by simp [madeOf, Resolved.made]⟩
      intro j e he
      obtain ⟨rfl, rfl⟩ : j = 0 ∧ e = (k, ofOctets (r.source.octets r.position count)) := by
        simp only [madeOf, Outcome.map_ok, Resolved.made, if_true] at he
        cases j with
        | zero => exact ⟨rfl, (Option.some.inj he).symm⟩
        | succ j => simp at he
      rfl

/-- The keys that are made while both are resolved, also if the second cannot be. -/
def keysMade (d : Descriptor) (length : Int) (config : Entries) (snapshot : Option Snapshot)
    (s : Session) :
    List (ManagedKey × String) :=
  let (x, t) := (resolve d length config snapshot ManagedKey.secret.name).perform s
  madeOf .secret x ++
    match x with
    | .ok first =>
        madeOf .database ((resolve d length config first.snapshot ManagedKey.database.name).perform
          t).1
    | .error _ => []

/-- Everything that resolving both keys can do: what it gives, the keys that it makes, and the
source afterwards. -/
inductive PairResolution (d : Descriptor) (length : Int) (config : Entries)
    (snapshot : Option Snapshot)
    (r : Randomness) : Except Failure ResolvedPair → List (ManagedKey × String) → Randomness → Prop
  | stopped (f : Failure) (r' : Randomness)
      (h : Resolution d length config snapshot ManagedKey.secret.name r (.error f) r') :
      PairResolution d length config snapshot r (.error f) [] r'
  | continued (first : Resolved) (r' : Randomness)
      (h : Resolution d length config snapshot ManagedKey.secret.name r (.ok first) r')
      (x : Except Failure Resolved) (r'' : Randomness)
      (hx : Resolution d length config first.snapshot ManagedKey.database.name r' x r'') :
      PairResolution d length config snapshot r
        (x.map fun second => ⟨first.key, second.key, second.snapshot,
          first.generated || second.generated⟩)
        (first.made .secret ++ madeOf .database x) r''

/-- **Resolving both keys** does nothing else. -/
theorem pairResolution (d : Descriptor) (length : Int) (config : Entries)
    (snapshot : Option Snapshot) (s : Session) :
    PairResolution d length config snapshot s.random
      ((resolvePair d length config snapshot).perform s).1
      (keysMade d length config snapshot s)
        ((resolvePair d length config snapshot).perform s).2.random := by
  have hfirst := resolution d length config snapshot ManagedKey.secret.name s
  rw [resolvePair, perform_bind, keysMade]
  generalize (resolve d length config snapshot ManagedKey.secret.name).perform s = p at hfirst ⊢
  obtain ⟨f | first, t⟩ := p
  · exact .stopped f _ hfirst
  · have hsecond := resolution d length config first.snapshot ManagedKey.database.name t
    simp only
    rw [perform_bind]
    generalize (resolve d length config first.snapshot ManagedKey.database.name).perform t =
      q at hsecond ⊢
    obtain ⟨f | second, u⟩ := q
    · exact .continued first _ hfirst _ _ hsecond
    · exact .continued first _ hfirst _ _ hsecond

variable {x : Except Failure Resolved} {pair : Except Failure ResolvedPair}

theorem Resolution.source (h : Resolution d length config snapshot name r x r') :
    r'.source = r.source := by
  cases h with
  | made => exact r.source_draw length
  | _ => rfl

/-- A faithful source stays faithful. -/
theorem Resolution.faithful (h : Resolution d length config snapshot name r x r')
    (hr : r.source.Faithful) :
    r'.source.Faithful := by
  rw [h.source]
  exact hr

/-- Resolving a key makes at most one request, and the key is lost if something
is wrong with the reply. -/
theorem Resolution.fault (h : Resolution d length config snapshot name r x r') :
    r.requests ≤ r'.requests ∧ ∀ m f, r.requests ≤ m → m < r'.requests →
      (r.source.reply m length).fault? length = some f → x = .error (.random f) := by
  cases h with
  | made =>
      rw [Randomness.requests_draw]
      refine ⟨Nat.le_succ _, fun m f hle hlt hreply => ?_⟩
      obtain rfl : m = r.requests := by omega
      rw [drawn_of_fault hreply]
      rfl
  | _ => exact ⟨Nat.le_refl _, fun m f hle hlt => absurd hle (Nat.not_le_of_lt hlt)⟩

/-- **Requests that go wrong** while keys are resolved leave neither key. -/
theorem PairResolution.fault (h : PairResolution d length config snapshot r pair keys r') {m : Nat}
    {f : RandomFault}
    (hle : r.requests ≤ m) (hlt : m < r'.requests)
    (hreply : (r.source.reply m length).fault? length = some f) :
    pair = .error (.random f) := by
  cases h with
  | stopped f' _ h => exact congrArg Except.error (Except.error.inj (h.fault.2 m f hle hlt hreply))
  | continued first t h x _ hx =>
      by_cases hm : m < t.requests
      · exact absurd (h.fault.2 m f hle hm hreply) (by simp)
      · rw [← h.source] at hreply
        rw [hx.fault.2 m f (Nat.le_of_not_lt hm) hlt hreply]
        rfl

/-- Both keys consume the octets that they are made of. -/
theorem PairResolution.consumes {count : Nat}
    (h : PairResolution d count config snapshot r pair keys r')
    (hr : r.source.Faithful) : Consumes count r keys r' := by
  cases h with
  | stopped f _ h => exact h.consumes (k := .secret) hr
  | continued first t h x _ hx =>
      have ht := h.faithful hr
      exact (h.consumes (k := .secret) hr).append (hx.consumes (k := .database) ht)

/-! ## Keys that are due -/

/-- Where a managed key comes from, if from anywhere. -/
inductive Origin where
  | given
  | kept
  /-- From the source, because neither the user's configuration nor the snapshot has it. -/
  | due
  /-- It stands in one of them, in a form that is refused. -/
  | blocked
deriving DecidableEq, Repr

/-- Where a key of a registry comes from. -/
def origin (d : Descriptor) (config : Entries) (snapshot : Option Snapshot) (k : ManagedKey) :
    Origin :=
  match provided? config k.name with
  | .error _ => .blocked
  | .ok (some _) => .given
  | .ok none =>
    match (snapshot.getD (.emptyFor d)).lookup k.name with
    | .error _ => .blocked
    | .ok (some _) => .kept
    | .ok none => .due

/-- A name that the user's configuration gives no text for is one that it does not hold. -/
theorem provided?_eq_none_iff :
    provided? config name = .ok none ↔ Value.get? config name = none := by
  refine ⟨?_, provided?_eq_none⟩
  unfold provided?
  cases Value.get? config name with
  | none => exact fun _ => rfl
  | some v =>
      simp only
      cases v.bare <;> simp

/-- **A key is due** exactly if the user's configuration lacks it and the snapshot finds nothing. -/
theorem origin_eq_due_iff {k : ManagedKey} :
    origin d config snapshot k = .due ↔
      Value.get? config k.name = none ∧ (snapshot.getD (.emptyFor d)).lookup k.name = .ok none := by
  rw [origin, ← provided?_eq_none_iff]
  cases provided? config k.name with
  | error f => simp
  | ok provided =>
      cases provided with
      | some key => simp
      | none =>
          cases (snapshot.getD (.emptyFor d)).lookup k.name with
          | error f => simp
          | ok found => cases found <;> simp

/-- Resolving a key by its origin: whether it is made, and whether it is found or made at all. -/
theorem Resolution.made_origin {count : Nat} (h : Resolution d count config snapshot k.name r x r')
    (hr : r.source.Faithful) :
    (madeOf k x).map Prod.fst = (if origin d config snapshot k = .due then [k] else []) ∧
      (x.isOk ↔ origin d config snapshot k ≠ .blocked) := by
  cases h with
  | refused f h => simp [origin, h, madeOf, Except.isOk, Except.toBool]
  | given key h => simp [origin, h, madeOf, Resolved.made, Except.isOk, Except.toBool]
  | illegible t f absent ht h => simp [origin, ht, h, absent, madeOf, Except.isOk, Except.toBool]
  | kept key t absent ht h => simp [origin, ht, h, absent, madeOf, Resolved.made, Except.isOk,
      Except.toBool]
  | made absent missing =>
      rw [drawn_faithful hr]
      simp [origin, missing, absent, madeOf, Resolved.made, Except.isOk, Except.toBool]

/-- A key that is resolved leaves the snapshot alone, or is put into it. -/
theorem Resolution.snapshot_cases {kept : Resolved}
    (h : Resolution d length config snapshot name r (.ok kept) r') :
    kept.snapshot = snapshot ∨ ∃ key, kept.snapshot =
      some ((snapshot.getD (.emptyFor d)).withValue name key) := by
  generalize hx : Except.ok kept = x at h
  cases h with
  | refused => contradiction
  | illegible => contradiction
  | given =>
      obtain rfl := Except.ok.inj hx
      exact .inl rfl
  | kept =>
      obtain rfl := Except.ok.inj hx
      exact .inl rfl
  | made =>
      obtain ⟨key, -, rfl⟩ := Outcome.map_eq_ok.mp hx.symm
      exact .inr ⟨key, rfl⟩

/-- The secret key makes no difference to where the other one comes from. -/
theorem Resolution.origin_database {first : Resolved}
    (h : Resolution d length config snapshot ManagedKey.secret.name r (.ok first) r') :
    SecretKey.origin d config first.snapshot .database =
      SecretKey.origin d config snapshot .database := by
  obtain hsame | ⟨key, hput⟩ := h.snapshot_cases
  · rw [hsame]
  · rw [hput, SecretKey.origin, SecretKey.origin, Option.getD_some,
      Snapshot.lookup_withValue_other _ (by decide)]

/-- The managed keys, in the order in which they are resolved. -/
def managedKeys : List ManagedKey := [.secret, .database]

/-- **The keys that are made** are those that are due, in front of the first that is blocked. -/
theorem PairResolution.names {count : Nat}
    (h : PairResolution d count config snapshot r pair keys r')
    (hr : r.source.Faithful) :
    keys.map Prod.fst =
      (managedKeys.takeWhile fun k => origin d config snapshot k ≠ .blocked).filter fun k =>
        origin d config snapshot k = .due := by
  cases h with
  | stopped f _ h =>
      have hblocked : origin d config snapshot .secret = .blocked := by
        apply Decidable.byContradiction
        intro hne
        exact Bool.false_ne_true ((h.made_origin (k := .secret) hr).2.mpr hne)
      simp [managedKeys, hblocked]
  | continued first t h x _ hx =>
      have ht := h.faithful hr
      obtain ⟨hsecret, hopen⟩ := h.made_origin (k := .secret) hr
      obtain ⟨hdatabase, -⟩ := hx.made_origin (k := .database) ht
      replace hopen := hopen.mp rfl
      rw [h.origin_database] at hdatabase
      rw [List.map_append, hdatabase]
      replace hsecret : (first.made .secret).map Prod.fst = _ := hsecret
      rw [hsecret, managedKeys, List.takeWhile_cons_of_pos (by simpa using hopen),
        List.takeWhile_cons]
      by_cases hblocked : origin d config snapshot .database = .blocked
      · by_cases hdue : origin d config snapshot .secret = .due <;> simp [hblocked, hdue]
      · by_cases hdue : origin d config snapshot .secret = .due <;>
          by_cases hdue' : origin d config snapshot .database = .due <;>
            simp [hblocked, hdue, hdue']

/-- No key is blocked where both are resolved. -/
theorem PairResolution.open_of_ok {count : Nat} {p : ResolvedPair}
    (h : PairResolution d count config snapshot r (.ok p) keys r') (hr : r.source.Faithful)
    (k : ManagedKey) :
    origin d config snapshot k ≠ .blocked := by
  generalize hp : Except.ok p = pair at h
  cases h with
  | stopped => contradiction
  | continued first t h x _ hx =>
      have ht := h.faithful hr
      obtain ⟨second, rfl, -⟩ := Outcome.map_eq_ok.mp hp.symm
      cases k with
      | secret => exact (h.made_origin (k := .secret) hr).2.mp rfl
      | database =>
          rw [← h.origin_database]
          exact (hx.made_origin (k := .database) ht).2.mp rfl

/-- A key that was made is the one that is given. -/
theorem PairResolution.key_of_mem {p : ResolvedPair}
    (h : PairResolution d length config snapshot r (.ok p) keys r')
    {e : ManagedKey × String} (he : e ∈ keys) : p.key e.1 = e.2 := by
  generalize hp : Except.ok p = pair at h
  cases h with
  | stopped => contradiction
  | continued first t h x _ hx =>
      obtain ⟨second, rfl, rfl⟩ := Outcome.map_eq_ok.mp hp.symm
      rcases List.mem_append.mp he with he | he
      · rw [first.eq_of_mem_made he]
        rfl
      · rw [second.eq_of_mem_made he]
        rfl

/-- A key that is not due is not drawn for. -/
theorem Resolution.undrawn {k : ManagedKey} (h : Resolution d length config snapshot k.name r x r')
    (hk : origin d config snapshot k ≠ .due) : r' = r := by
  cases h with
  | made absent missing => exact absurd (origin_eq_due_iff.mpr
      ⟨provided?_eq_none_iff.mp absent, missing⟩) hk
  | _ => rfl

/-- **Where neither key is due**, nothing is drawn. -/
theorem PairResolution.undrawn (h : PairResolution d length config snapshot r pair keys r')
    (hdue : ∀ k, origin d config snapshot k ≠ .due) : r' = r := by
  cases h with
  | stopped f _ h => exact h.undrawn (k := .secret) (hdue .secret)
  | continued first t h x _ hx =>
      have hdatabase : origin d config first.snapshot .database ≠ .due := by
        rw [h.origin_database]
        exact hdue .database
      rw [hx.undrawn (k := .database) hdatabase, h.undrawn (k := .secret) (hdue .secret)]

end SecretKey

end RegistryBundle
