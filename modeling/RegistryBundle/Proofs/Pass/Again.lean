import RegistryBundle.Proofs.Pass.OtherEntries
import RegistryBundle.Proofs.Pass.Overlays
import RegistryBundle.Proofs.Run.Agreement

/-!
# A pass over its own base document

The base document that a pass writes, taken as the user's configuration of another pass, is written
again as it is: the second pass finds both keys in it, makes nothing new, and has the same files.

* `Pass.document_document` says that the base document is its own base document;
* `SecretKey.resolvePair_of_provided` says that keys which the user gives are
  taken, whatever the snapshot;
* `Pass.steady_finish` and `Pass.agree_finish` say that nothing after the keys depends on the
  session or the snapshot;
* `Pass.run_again` is the main statement.
-/

namespace RegistryBundle

open RegistryBundle.Action Value

variable {config : Entries}

namespace Pass

/-! ## The base document -/

private theorem get?_document_secret (config : Entries) (secretKey databaseKey : String) :
    Value.get? (document config secretKey databaseKey) ManagedKey.secret.name =
      some (.str secretKey) := by
  rw [document, get?_put_other (by decide), get?_put_self]

private theorem get?_document_database (config : Entries) (secretKey databaseKey : String) :
    Value.get? (document config secretKey databaseKey) ManagedKey.database.name =
      some (.str databaseKey) :=
  get?_put_self _ _ _

private theorem provided?_document_secret (config : Entries) (secretKey databaseKey : String) :
    SecretKey.provided? (document config secretKey databaseKey) ManagedKey.secret.name =
      .ok (some secretKey) := by
  rw [SecretKey.provided?, get?_document_secret]
  rfl

private theorem provided?_document_database (config : Entries) (secretKey databaseKey : String) :
    SecretKey.provided? (document config secretKey databaseKey) ManagedKey.database.name =
      .ok (some databaseKey) := by
  rw [SecretKey.provided?, get?_document_database]
  rfl

/-- The hostname of the base document is the user's, since a bundle has none by itself. -/
theorem chosenHostname?_document (h : DistinctKeys config) (secretKey databaseKey : String) :
    Overlay.chosenHostname? (document config secretKey databaseKey) =
      Overlay.chosenHostname? config := by
  have hget : Value.get? (document config secretKey databaseKey) Overlay.hostnameKey =
      Value.get? config Overlay.hostnameKey := by
    rw [document, get?_put_other (by decide), get?_put_other (by decide)]
    exact get?_foldl_put_of_lacking h rfl
  rw [Overlay.chosenHostname?, hget, Overlay.chosenHostname?]

/-- **The base document of a base document** with the same keys is that document: its first entries
are those of every bundle, and both keys stand in it already. -/
theorem document_document (config : Entries) (secretKey databaseKey : String) :
    document (document config secretKey databaseKey) secretKey databaseKey =
      document config secretKey databaseKey := by
  have hkeys : baseConfig.map Prod.fst <+: (document config secretKey databaseKey).map Prod.fst :=
    ((keys_prefix_foldl_put config baseConfig).trans (keys_prefix_put _ _ _)).trans
      (keys_prefix_put _ _ _)
  have hmerged := foldl_put_self textKeys_baseConfig
    (distinctKeys_document config secretKey databaseKey) hkeys
  have hsecret := put_of_get?_eq (get?_document_secret config secretKey databaseKey)
  have hdatabase := put_of_get?_eq (get?_document_database config secretKey databaseKey)
  generalize document config secretKey databaseKey = d at hmerged hsecret hdatabase ⊢
  rw [document, hmerged, hsecret, hdatabase]

end Pass

/-! ## Keys that the user gives -/

namespace SecretKey

variable (d : Descriptor) (length : Int) {name : String}

/-- A key that the user gives is taken from there, and the snapshot and
the source are left alone. -/
theorem resolve_of_provided {key : String} (h : provided? config name = .ok (some key))
    (snapshot : Option Snapshot)
    (s : Session) :
    ∃ s', (resolve d length config snapshot name).perform s = (.ok ⟨key, snapshot, false⟩, s') ∧
      s'.random = s.random := by
  have hprovided : (ofExcept (provided? config name)).perform s = (.ok (some key), s) := by
    rw [h, perform_ofExcept]
  unfold resolve
  rw [perform_bind_of_ok hprovided]
  exact ⟨_, rfl, rfl⟩

/-- **Both keys** that the user gives. -/
theorem resolvePair_of_provided {secretKey databaseKey : String}
    (hsecret : provided? config ManagedKey.secret.name = .ok (some secretKey))
    (hdatabase : provided? config ManagedKey.database.name = .ok (some databaseKey))
    (snapshot : Option Snapshot)
    (s : Session) :
    ∃ s', (resolvePair d length config snapshot).perform s =
      (.ok ⟨secretKey, databaseKey, snapshot, false⟩, s') ∧ s'.random = s.random := by
  obtain ⟨t, hfirst, ht⟩ := resolve_of_provided d length hsecret snapshot s
  obtain ⟨s', hsecond, hs'⟩ := resolve_of_provided d length hdatabase snapshot t
  refine ⟨s', ?_, hs'.trans ht⟩
  rw [resolvePair, perform_bind_of_ok hfirst]
  simp only
  rw [perform_bind_of_ok hsecond]
  rfl

end SecretKey

/-! ## From the keys on -/

namespace Pass

variable {settings : Settings} {now : Moment} {r : Request} {kinds : List Component}
  {keys keys' : SecretKey.ResolvedPair} {s s' : Session}

private theorem steady_addComponent (settings : Settings) (r : Request) (made : Artifacts)
    (c : Component) :
    Steady (addComponent settings r made c) :=
  (Overlay.steady_render settings r.descriptor r.config c).bind fun _ =>
    (ScannerConfig.steady_build settings r.descriptor c).bind fun _ => steady_pure _

private theorem certificate?_of_unissued (hissue : r.issueCertificate = false) (settings : Settings)
    (now : Moment)
    (kinds : List Component) : certificate? settings now r kinds = pure none := by
  rw [certificate?, hissue]
  rfl

/-- **From its keys on** a pass without a certificate ends alike in every session. -/
theorem steady_finish (hissue : r.issueCertificate = false) (settings : Settings) (now : Moment)
    (kinds : List Component) (keys : SecretKey.ResolvedPair) :
      Steady (finish settings now r kinds keys) := by
  rw [finish, certificate?_of_unissued hissue]
  refine (steady_ofExcept _).bind fun base => ?_
  refine (steady_foldlM (steady_addComponent settings r) kinds _).bind fun made => ?_
  exact (steady_pure _).bind fun _ => (steady_report _ _ _).bind fun _ => steady_pure _

/-- What was made is the same but for the snapshot to keep. -/
def SameButKept (kept : Option Snapshot) (generated : Bool) (made made' : Artifacts) : Prop :=
  made' = { made with snapshot := kept, generated := generated }

/-- One component more. -/
theorem agree_addComponent_kept {kept : Option Snapshot} {generated : Bool} {made made' : Artifacts}
    (h : SameButKept kept generated made made') (settings : Settings) (r : Request)
    (c : Component) :
    Agree (SameButKept kept generated) (addComponent settings r made c)
      (addComponent settings r made' c) := by
  subst h
  rw [addComponent, addComponent]
  apply agree_bind_self
  intro overlay
  apply agree_bind_self
  intro service
  exact agree_pure rfl

/-- **From its keys on** a pass carries the snapshot along, and does not look at it. -/
theorem agree_finish (hissue : r.issueCertificate = false) (now later : Moment)
    (keys : SecretKey.ResolvedPair)
    (kept : Option Snapshot) (generated : Bool) :
    Agree (SameButKept kept generated) (finish settings now r kinds keys)
      (finish settings later r kinds { keys with snapshot := kept, generated := generated }) := by
  rw [finish, finish, certificate?_of_unissued hissue, certificate?_of_unissued hissue]
  apply agree_bind_self
  intro base
  have hstart : SameButKept kept generated (start keys base)
      (start { keys with snapshot := kept, generated := generated } base) := rfl
  refine agree_bind (agree_foldlM (fun _ _ c h => agree_addComponent_kept h settings r c) kinds
    hstart) ?_
  rintro made _ rfl
  apply agree_bind_self
  intro certificate
  apply agree_bind_self
  intro _
  exact agree_pure rfl

/-! ## The second pass -/

/-- **A pass over its own base document**: given that document and any snapshot, or none, a second
pass succeeds in any session; it has the same keys and the same files, returns the snapshot that it
was given and draws nothing. -/
theorem run_again {made : Artifacts} (h : (run settings now r).perform s = (.ok made, s'))
    (hdistinct : DistinctKeys r.config) (hissue : r.issueCertificate = false) (later : Moment)
    (kept : Option Snapshot) (t : Session) :
    ∃ t', (run settings later { r with
        config := document r.config made.secretKey made.databaseKey, snapshot := kept }).perform t =
      (.ok { made with snapshot := kept, generated := false }, t') ∧ t'.random = t.random := by
  obtain ⟨kinds, keys, u, hkinds, -, hfinish⟩ := run_steps h
  obtain ⟨base, -, hkeeps⟩ := keeps_finish hfinish
  obtain ⟨secretKey, databaseKey, found, generated⟩ := keys
  obtain rfl : made.secretKey = secretKey := hkeeps.secretKey
  obtain rfl : made.databaseKey = databaseKey := hkeeps.databaseKey
  have hparsed : (ofExcept (r.components.mapM Component.parse)).perform t = (.ok kinds, t) := by
    rw [hkinds, perform_ofExcept]
  -- Both keys are found in the document, so that no snapshot is asked.
  obtain ⟨t₁, hresolved, ht₁⟩ :=
    SecretKey.resolvePair_of_provided r.descriptor SecretKey.usualLength
    (provided?_document_secret r.config made.secretKey made.databaseKey)
    (provided?_document_database r.config made.secretKey made.databaseKey) kept t
  -- From there on the first pass would do the same in this session, and the second does what the
  -- first does.
  obtain ⟨t₂, hfirst⟩ := ((steady_finish hissue settings now kinds _).gives hfinish).exists_perform
    t₁
  obtain ⟨_, hsecond, rfl⟩ := (agree_finish hissue now later _ kept false).ok hfirst
  refine ⟨t₂, ?_, ?_⟩
  · rw [run_eq, perform_bind_of_ok hparsed, perform_bind_of_ok hresolved]
    rw [finish_congr (r := { r with snapshot := kept }) (chosenHostname?_document hdistinct _ _)
      (by rw [document_document])]
    exact hsecond
  · have hquiet := quiet_finish settings later r kinds
      ⟨made.secretKey, made.databaseKey, kept, false⟩ t₁
    rw [hsecond] at hquiet
    exact hquiet.trans ht₁

/-- A request over a configuration with keys of two kinds, which are written as they come. -/
def mixedRequest : Request :=
  { descriptor := { name := "r" }, components := [.str "route",
    .str "clair"], issueCertificate := false
    config := [(.int 1, .str "a"), (.str Overlay.hostnameKey, .str "h"), (.bool false, .null)] }

/-- After a pass that makes both keys, one over its base document and no snapshot makes none. -/
theorem run_again_mixed :
    DistinctKeys mixedRequest.config ∧
      ∃ made s' t', (run {} noon mixedRequest).perform .fresh = (.ok made, s') ∧
        (run {} noon { mixedRequest with
          config := document mixedRequest.config made.secretKey made.databaseKey, snapshot :=
            none }).perform ones =
          (.ok { made with snapshot := none, generated := false }, t') ∧
            t'.random = ones.random := by
  have hdistinct : DistinctKeys mixedRequest.config := by decide
  obtain ⟨made, s', h⟩ : ∃ made s', (run {} noon mixedRequest).perform .fresh = (.ok made, s') :=
    run_succeeds (fun _ _ => rfl) (fun t ht => nomatch ht) rfl rfl rfl
  obtain ⟨t', hagain, hrandom⟩ := run_again h hdistinct rfl noon none ones
  exact ⟨hdistinct, made, s', t', h, hagain, hrandom⟩

end Pass

end RegistryBundle
