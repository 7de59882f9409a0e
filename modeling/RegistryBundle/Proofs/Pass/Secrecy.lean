import RegistryBundle.Proofs.Keys.Likeness
import RegistryBundle.Proofs.Pass.OtherEntries
import RegistryBundle.Proofs.Pass.Refusals
import RegistryBundle.Proofs.Pass.RouteCertificate

/-!
# Passes that keep secrets

What a pass reports, and why it fails, does not depend on secret keys, random octets, logins or the
storage of a registry.

* `Request.LooksLike` are requests that differ in these only, `Settings.LooksLike` settings whose
  ports can be written alike;
* `Overlay.alike_render`, `ScannerConfig.alike_build`, `Pass.alike_certificate?` are the steps of a
  pass, `Pass.alike_run` all of them;
* `Pass.secrets_unreported` is the main statement, `Pass.secrets_betrayed` two
  passes that it does not cover.
-/

namespace RegistryBundle

open RegistryBundle.Action Outcome Value

/-! ## Dates of certificates -/

namespace Certificate

/-- Why the dates of a certificate are refused that is issued at a moment. -/
def datesRefused? (now : Moment) : Option Failure :=
  (failure? (bound now (-leadSeconds))).or (failure? (bound now validSeconds))

/-- The moment makes a difference by the dates only. -/
theorem failure?_issue_eq {now now' : Moment} (h : datesRefused? now = datesRefused? now')
    (serial serial' : Nat)
    (host : String) : failure? (issue serial host now) = failure? (issue serial' host now') := by
  have hdates : ∀ (serial : Nat) (now : Moment) (name : String) (ascii : Bool), failure? (do
      let notBefore ← bound now (-leadSeconds)
      let notAfter ← bound now validSeconds
      if ascii then return ⟨serial, name, [.dns host], notBefore, notAfter⟩
      else throw (.breach .range) : Except Failure Certificate) =
        (datesRefused? now).or (if ascii then none else some (.breach .range)) := by
    intro serial now name ascii
    rw [datesRefused?]
    cases bound now (-leadSeconds) with
    | error f => rfl
    | ok notBefore =>
        cases bound now validSeconds with
        | error f => rfl
        | ok notAfter => cases ascii <;> rfl
  unfold issue issueWithin
  simp only
  split
  · rfl
  · split
    · rfl
    · rw [hdates, hdates, h]

end Certificate

/-! ## Overlays -/

namespace FieldGroup

variable {settings settings' : Settings} {d d' : Descriptor} {c : Component} {g : FieldGroup}

/-- A component has a group for every registry, or for none. -/
theorem isSome_ofComponent (settings settings' : Settings) (d d' : Descriptor) (c : Component) :
    (ofComponent settings d c).isSome = (ofComponent settings' d' c).isSome := by
  cases c <;> rfl

/-- The group of a component has a page, with the hostname that the user chooses. -/
theorem exists_encode (h : ofComponent settings d c = some g) (config : Entries) :
    ∃ page, (g.withHostname config).encode = .ok page := by
  obtain ⟨entries, hreads⟩ := readsBack_withHostname config (readsBack_ofComponent h)
  obtain ⟨page, hpage, -⟩ :=
    Form.encode_reads hreads.written hreads.tree hreads.ne (Nat.le_trans hreads.height (by decide))
  exact ⟨page, hpage⟩

/-- Groups are made together. -/
theorem alike_synthesize {exact : Prop}
    (hport : c = .postgres → settings.registry.writable = settings'.registry.writable)
    (d d' : Descriptor) :
    Outcome.Alike exact (fun group group' => group = ofComponent settings d c ∧
      group' = ofComponent settings' d' c)
      (synthesize settings d c) (synthesize settings' d' c) := by
  rw [synthesize, synthesize]
  by_cases hc : c = .postgres
  · rw [← hport hc]
    split
    · exact .error fun _ => rfl
    · exact .ok ⟨rfl, rfl⟩
  · rw [if_neg fun h => hc h.1, if_neg fun h => hc h.1]
    exact .ok ⟨rfl, rfl⟩

end FieldGroup

namespace Overlay

variable {exact : Prop} {settings settings' : Settings} {d d' : Descriptor}
  {config config' : Entries} {c : Component}
  {g g' : FieldGroup}

/-- The user's choices are made alike. -/
theorem alike_withChoices (hhost : Value.get? config hostnameKey = Value.get? config' hostnameKey)
    (hg : FieldGroup.ofComponent settings d c = some g)
    (hg' : FieldGroup.ofComponent settings' d' c = some g') :
    Alike exact (fun x x' => x = g.withHostname config ∧ x' = g'.withHostname config')
      (withChoices config g)
      (withChoices config' g') := by
  cases c with
  | route =>
      obtain rfl := Option.some.inj hg
      obtain rfl := Option.some.inj hg'
      have hchosen : chosenHostname? config' = chosenHostname? config := by
        rw [chosenHostname?, ← hhost, chosenHostname?]
      rw [withChoices, withChoices, hchosen]
      cases h : chosenHostname? config with
      | error f => exact alike_error_bind f _ _
      | ok chosen =>
          rw [withHostname_of_chosen h, withHostname_of_chosen (hchosen.trans h)]
          simp only [ofExcept_ok_bind]
          cases chosen with
          | none => exact alike_pure ⟨rfl, rfl⟩
          | some name => exact alike_bind (alike_report _ _ _) fun _ _ _ => alike_pure ⟨rfl, rfl⟩
  | podAutoscaler => exact absurd hg (by simp [FieldGroup.ofComponent])
  | _ =>
      obtain rfl := Option.some.inj hg
      obtain rfl := Option.some.inj hg'
      exact alike_pure ⟨rfl, rfl⟩

/-- **The overlay of a component**: files of the same names, and of the route the same file. -/
theorem alike_render (hname : d'.name = d.name) (hroute : d'.routeHost = d.routeHost)
    (hhost : Value.get? config hostnameKey = Value.get? config' hostnameKey)
    (hport : c = .postgres → settings.registry.writable = settings'.registry.writable) :
    Alike exact (fun files files' => files.map Prod.fst = files'.map Prod.fst ∧
      (c = .route → files = files'))
      (render settings d config c) (render settings' d' config' c) := by
  unfold render
  rw [hname]
  refine alike_bind (alike_ofExcept (FieldGroup.alike_synthesize hport d d'))
    fun group group' hgroups => ?_
  refine alike_bind (alike_report _ _ _) fun _ _ _ => ?_
  have hsome := FieldGroup.isSome_ofComponent settings settings' d d' c
  obtain ⟨rfl, rfl⟩ := hgroups
  cases hg : FieldGroup.ofComponent settings d c with
  | none =>
      have hg' : FieldGroup.ofComponent settings' d' c = none := by simpa [hg] using hsome
      rw [hg']
      exact alike_bind (alike_report _ _ _) fun _ _ _ => alike_pure ⟨rfl, fun _ => rfl⟩
  | some g =>
      rw [hg] at hsome
      obtain ⟨g', hg'⟩ := Option.isSome_iff_exists.mp hsome.symm
      rw [hg']
      refine alike_bind (alike_withChoices hhost hg hg') fun x x' hx => ?_
      obtain ⟨rfl, rfl⟩ := hx
      obtain ⟨page, hpage⟩ := FieldGroup.exists_encode hg config
      obtain ⟨page', hpage'⟩ := FieldGroup.exists_encode hg' config'
      rw [hpage, hpage', ofExcept_ok_bind, ofExcept_ok_bind]
      refine alike_pure ⟨rfl, ?_⟩
      rintro rfl
      -- The certificate reads this page again, so that of all pages it is this one that has to be
      -- the same.
      have hsame : g'.withHostname config' = g.withHostname config := by
        rw [← Option.some.inj hg, ← Option.some.inj hg', HostGroup.ofDescriptor, hroute,
          FieldGroup.withHostname, ← hhost]
        rfl
      rw [hsame] at hpage'
      rw [Except.ok.inj (hpage.symm.trans hpage')]

/-- **The hostname of the route** is the same. -/
private theorem alike_routeHostname (hname : d'.name = d.name) (hroute : d'.routeHost = d.routeHost)
    (hhost : Value.get? config hostnameKey = Value.get? config' hostnameKey) :
    Alike exact Eq (routeHostname settings d config) (routeHostname settings' d' config') := by
  refine alike_bind (alike_render hname hroute hhost nofun) fun files files' hfiles => ?_
  obtain rfl := hfiles.2 rfl
  split
  · exact alike_ofExcept_self _
  · exact alike_ofExcept (.error fun _ => rfl)

end Overlay

/-- **The configuration of a component's service.** -/
theorem ScannerConfig.alike_build {exact : Prop} {settings settings' : Settings} {d d' : Descriptor}
    {c : Component}
    (hname : d'.name = d.name) (hport : c = .clair →
      settings.scanner.writable = settings'.scanner.writable) :
    Alike exact (fun _ _ => True) (build settings d c) (build settings' d' c) := by
  cases c with
  | clair =>
      have hpage : Outcome.Alike exact (fun _ _ => True) (page d settings) (page d' settings') := by
        have hencode : ∀ (settings : Settings) (d : Descriptor), ∃ page,
            Document.encode (document d settings.scannerLogLevel (settings.scanner.connection d)) =
              .ok page :=
          fun _ _ => Document.encode_of_not_holds rfl rfl
        obtain ⟨written, hwritten⟩ := hencode settings d
        obtain ⟨written', hwritten'⟩ := hencode settings' d'
        rw [page, page, ← hport rfl, hwritten, hwritten']
        split
        · exact .ok trivial
        · exact .error fun _ => rfl
      rw [build, build, hname]
      refine alike_bind (alike_report _ _ _) fun _ _ _ => ?_
      exact alike_bind (alike_ofExcept hpage) fun _ _ _ => alike_pure trivial
  | _ => exact alike_pure trivial

/-! ## Passes -/

/-- The ports in the settings that a component takes can be written alike. -/
def Settings.LooksLike (settings settings' : Settings) : Component → Prop
  | .postgres => settings.registry.writable = settings'.registry.writable
  | .clair => settings.scanner.writable = settings'.scanner.writable
  | _ => True

/-- Files of the same names. -/
def Artifacts.LooksLike (made made' : Artifacts) : Prop :=
  made.configFiles.map Prod.fst = made'.configFiles.map Prod.fst

namespace Pass

variable {exact : Prop} {settings settings' : Settings} {now now' : Moment} {r r' : Request}
  {s s' : Session}
  {made made' : Artifacts} {kinds : List Component} {c : Component}

/-- Requests for one registry that differ in secret keys, snapshots of the same keys, and
annotations beside the hostname of the cluster. -/
structure Request.LooksLike (r r' : Request) : Prop where
  name : r'.descriptor.name = r.descriptor.name
  space : r'.descriptor.space = r.descriptor.space
  clusterHost : r'.descriptor.clusterHost = r.descriptor.clusterHost
  components : r'.components = r.components
  issueCertificate : r'.issueCertificate = r.issueCertificate
  others : SameOthers r.config r'.config
  provided : ∀ k, SecretKey.ProvidedAlike r.config r'.config k
  snapshot : Option.Rel Snapshot.LooksLike r.snapshot r'.snapshot

theorem Request.LooksLike.routeHost (h : r.LooksLike r') :
    r'.descriptor.routeHost = r.descriptor.routeHost := by
  rw [Descriptor.routeHost, h.name, h.space, h.clusterHost, Descriptor.routeHost]

theorem Request.LooksLike.hostname (h : r.LooksLike r') :
    Value.get? r.config Overlay.hostnameKey = Value.get? r'.config Overlay.hostnameKey :=
  h.others.get?_eq (by decide)

/-- **One component.** -/
private theorem alike_addComponent (h : r.LooksLike r') (hsettings : settings.LooksLike settings' c)
    (hmade : Artifacts.LooksLike made made') :
    Alike exact Artifacts.LooksLike (addComponent settings r made c)
      (addComponent settings' r' made' c) := by
  rw [addComponent, addComponent]
  refine alike_bind (Overlay.alike_render h.name h.routeHost h.hostname ?_)
    fun files files' hfiles => ?_
  · rintro rfl
    exact hsettings
  refine alike_bind (ScannerConfig.alike_build h.name ?_) fun _ _ _ =>
    alike_pure (Table.names_update hmade hfiles.1)
  rintro rfl
  exact hsettings

/-- The number of a certificate, whatever it is. -/
private theorem alike_nextSerial : Alike exact (fun _ _ => True) nextSerial nextSerial := by
  intro s t hst
  rw [perform_nextSerial, perform_nextSerial]
  exact ⟨.ok trivial, hst.log, hst.first, hst.second⟩

/-- **The certificate.** -/
private theorem alike_certify (h : r.LooksLike r')
    (hdates : Certificate.datesRefused? now = Certificate.datesRefused? now') :
    Alike exact (fun _ _ => True) (certify settings r now) (certify settings' r' now') := by
  refine alike_bind (Overlay.alike_routeHostname h.name h.routeHost h.hostname) fun host _ hhost =>
    ?_
  subst hhost
  refine alike_bind alike_nextSerial fun serial serial' _ => alike_ofExcept ?_
  have hsame := Certificate.failure?_issue_eq hdates serial serial' host
  exact alike_of_failure? (by rw [hsame]) fun _ => hsame

theorem alike_certificate? (h : r.LooksLike r')
    (hdates : r.issueCertificate = true → Component.route ∈ kinds →
      Certificate.datesRefused? now = Certificate.datesRefused? now') :
    Alike exact (fun _ _ => True) (certificate? settings now r kinds)
      (certificate? settings' now' r' kinds) := by
  rw [certificate?, certificate?, h.issueCertificate]
  split
  · next hissue =>
      rw [Bool.and_eq_true, List.contains_iff_mem] at hissue
      exact alike_bind (alike_certify h (hdates hissue.1 hissue.2)) fun _ _ _ => alike_pure trivial
  · exact alike_pure trivial

/-- **The steps from the keys on.** -/
private theorem alike_finish (h : r.LooksLike r') (hfault : exact → SameFault r.config r'.config)
    (hsettings : ∀ c ∈ kinds, settings.LooksLike settings' c)
    (hdates : r.issueCertificate = true → Component.route ∈ kinds →
      Certificate.datesRefused? now = Certificate.datesRefused? now')
    (keys keys' : SecretKey.ResolvedPair) :
    Alike exact (fun _ _ => True) (finish settings now r kinds keys)
      (finish settings' now' r' kinds keys') := by
  rw [finish, finish]
  refine alike_bind (alike_ofExcept (h.others.alike_encode hfault _ _ _ _)) fun base base' _ => ?_
  have hstart : Artifacts.LooksLike (start keys base) (start keys' base') := rfl
  have hstep : ∀ c ∈ kinds, ∀ made made', Artifacts.LooksLike made made' →
      Alike exact Artifacts.LooksLike (addComponent settings r made c)
        (addComponent settings' r' made' c) :=
    fun c hc made made' hmade => alike_addComponent h (hsettings c hc) hmade
  refine alike_bind (alike_foldlM hstep hstart) fun made made' hmade => ?_
  refine alike_bind (alike_certificate? h hdates) fun _ _ _ => ?_
  have hlength : made.configFiles.length = made'.configFiles.length := by
    simpa using congrArg List.length hmade
  rw [hlength, h.name]
  exact alike_bind (alike_report _ _ _) fun _ _ _ => alike_pure trivial

/-- **All steps.** -/
theorem alike_run (h : r.LooksLike r') (hfault : exact → SameFault r.config r'.config)
    (hsettings : ∀ v ∈ r.components, ∀ c, Component.parse v = .ok c →
      settings.LooksLike settings' c)
    (hdates : r.issueCertificate = true → (∃ v ∈ r.components, Component.parse v = .ok .route) →
      Certificate.datesRefused? now = Certificate.datesRefused? now') :
    Alike exact (fun _ _ => True) (run settings now r) (run settings' now' r') := by
  rw [run_eq, run_eq, h.components]
  -- A component that is not known ends both passes before a key is looked for.
  cases hkinds : r.components.mapM Component.parse with
  | error f => exact alike_error_bind f _ _
  | ok kinds =>
      have hmem : ∀ c, c ∈ kinds ↔ ∃ v ∈ r.components, Component.parse v = .ok c :=
        fun _ => mem_of_mapM_eq_ok hkinds
      rw [ofExcept_ok_bind, ofExcept_ok_bind]
      refine alike_bind (SecretKey.alike_resolvePair (by decide : 80 ≠ 0) h.name h.provided
        h.snapshot)
        fun keys keys' _ => alike_finish h hfault (fun c hc => ?_)
          (fun hissue hroute => ?_) keys keys'
      · obtain ⟨v, hv, hparse⟩ := (hmem c).mp hc
        exact hsettings v hv c hparse
      · exact hdates hissue ((hmem .route).mp hroute)

/-- **A pass keeps secrets.** Passes over requests that look alike, in sessions whose sources
deliver, report the same and fail together. They also fail for the same reason, if the order of
the user's other entries makes no difference. The ports of the logins have to be such that both
can be written, or neither, and the dates of the certificates such that both are refused for
one reason, or neither is. -/
theorem secrets_unreported (h : r.LooksLike r') (hs : s.Alike s')
    (hsettings : ∀ v ∈ r.components, ∀ c, Component.parse v = .ok c →
      settings.LooksLike settings' c)
    (hdates : r.issueCertificate = true → (∃ v ∈ r.components, Component.parse v = .ok .route) →
      Certificate.datesRefused? now = Certificate.datesRefused? now') :
    ((run settings' now' r').perform s').2.log = ((run settings now r).perform s).2.log ∧
      (failure? ((run settings now r).perform s).1 = none ↔
        failure? ((run settings' now' r').perform s').1 = none) ∧
      (SameFault r.config r'.config →
        failure? ((run settings now r).perform s).1 =
          failure? ((run settings' now' r').perform s').1) := by
  have hrun : Alike (SameFault r.config r'.config) (fun _ _ => True) (run settings now r)
      (run settings' now' r') :=
    alike_run h id hsettings hdates
  obtain ⟨houtcome, hsessions⟩ := hrun s s' hs
  exact ⟨hsessions.log, houtcome.failure?_eq⟩

/-- A registry whose secret key the user brings, and the other one is made. -/
def halfKeyedRequest (secretKey storageKey : String) : Request :=
  { descriptor := { name := "r", annotations := [("quay-storage-secret-key", storageKey)] }
    config := [(.str ManagedKey.secret.name, .str secretKey),
      (.str Overlay.hostnameKey, .str "quay.example")] }

/-- A source that delivers ones, as many as asked for. -/
def onesSource : RandomSource :=
  { RandomSource.zeros with octet := fun _ => 1 }

/-- Two passes over all components, with other keys, other octets, other
logins and at another time. -/
theorem secrets_unreported_halfKeyed :
    (failure? ((run {} noon (halfKeyedRequest "s" "a")).perform .fresh).1 =
      failure? ((run { registry := { password := "p", port := 1 } } { noon with hour := 13 }
        (halfKeyedRequest "t" "b")).perform { random := { source := onesSource } }).1) ∧
      ((run { registry := { password := "p", port := 1 } } { noon with hour := 13 }
        (halfKeyedRequest "t" "b")).perform { random := { source := onesSource } }).2.log =
        ((run {} noon (halfKeyedRequest "s" "a")).perform .fresh).2.log := by
  have hdistinct : ∀ secretKey storageKey,
      DistinctKeys (halfKeyedRequest secretKey storageKey).config :=
    fun _ _ => List.pairwise_pair.mpr rfl
  have hlooks : (halfKeyedRequest "s" "a").LooksLike (halfKeyedRequest "t" "b") :=
    { name := rfl, space := rfl, clusterHost := rfl, components := rfl, issueCertificate := rfl
      others := ⟨hdistinct _ _, hdistinct _ _, .of_eq rfl⟩
      provided := fun k => by cases k with
        | secret => exact .inl ⟨_, _, rfl, rfl⟩
        | database => exact .inr ⟨rfl, rfl⟩
      snapshot := .none }
  have hsessions : Session.fresh.Alike { random := { source := onesSource } } :=
    ⟨rfl, fun _ _ => rfl, fun _ _ => rfl⟩
  have hsettings : ∀ c, ({} : Settings).LooksLike { registry := { password := "p", port := 1 } }
      c := by
    intro c
    cases c with
    | clair => exact rfl
    | postgres =>
        exact (by decide :
          Credentials.writable {} = Credentials.writable { password := "p", port := 1 })
    | _ => exact trivial
  have hdates : Certificate.datesRefused? noon =
      Certificate.datesRefused? { noon with hour := 13 } := by
    decide +kernel
  obtain ⟨hlog, -, hfailure⟩ := secrets_unreported hlooks hsessions (fun _ _ c _ => hsettings c)
    fun _ _ => hdates
  exact ⟨hfailure (.inl rfl), hlog⟩

/-- A registry for which the user gives both keys, and then other entries. -/
def listedRequest (entries : Entries) : Request :=
  { descriptor := { name := "r" }, components := [], issueCertificate := false
    config := [(.str ManagedKey.secret.name, .str "s"),
      (.str ManagedKey.database.name, .str "d")] ++ entries }

/-- Its pass fails for the first of them that is at fault, in their order, if they are under new
keys and not all under texts. -/
private theorem failure?_run_listedRequest (entries : Entries)
    (hothers : others (listedRequest entries).config = entries)
    (hnew : DistinctKeys (baseConfig ++ entries)) (hmixed : ¬ Texts entries) (settings : Settings)
    (now : Moment)
    (s : Session) :
    failure? ((run settings now (listedRequest entries)).perform s).1 =
      (entries.findSome? Yaml.fault?).map (Document.writeFailure (.map [])) := by
  have hkeys : (SecretKey.resolvePair (listedRequest entries).descriptor SecretKey.usualLength
      (listedRequest entries).config (listedRequest entries).snapshot).perform s =
        (.ok ⟨"s", "d", none, false⟩, _) := rfl
  have hkinds : (listedRequest entries).components.mapM Component.parse = .ok [] := rfl
  have hencode : failure? ((run settings now (listedRequest entries)).perform s).1 =
      failure? (Document.encode (.map (document (listedRequest entries).config "s" "d"))) := by
    rw [run_eq, hkinds, ofExcept_ok_bind, perform_bind_of_ok hkeys, finish,
      failure?_bind_of_none fun base t => rfl, perform_ofExcept]
  have hbase : baseConfig.findSome? Yaml.fault? = none := rfl
  have hall : ¬ Texts (baseConfig ++ entries) :=
    fun h => hmixed fun e he => h e (List.mem_append_right _ he)
  have hstarts : StartsWithText (baseConfig ++ entries) := ⟨_, _, _, rfl⟩
  rw [hencode, Document.failure?_encode_map (startsWithText_document _ _ _), firstFault?_document,
    hothers, foldl_put_of_distinct hnew, Yaml.firstFault?, sortByKey_of_mixed hstarts hall,
    List.findSome?_append, hbase, Option.none_or]

/-- An object that no document can hold, and a number that is too long, under numbers. -/
def oddEntries : Entries :=
  [(.int 1, .foreign), (.int 2, .int longNumber)]

/-- A number that is too long, under one that is not, is at fault. -/
private theorem fault?_longNumber (k : Int) (h : (intText? k).isSome) :
    Yaml.fault? (.int k, .int longNumber) = some .longInteger := by
  obtain ⟨text, htext⟩ := Option.isSome_iff_exists.mp h
  rw [Yaml.fault?, Yaml.attempt, Yaml.Node.ofValue, htext, Yaml.Node.ofValue, intText?_longNumber]
  rfl

/-- A pass over the registry's database fails exactly if the port cannot be written. -/
private theorem failure?_run_keyedRequest (settings : Settings) :
    failure? ((run settings noon (keyedRequest [.str "postgres"])).perform .fresh).1 =
      portRefused? settings.registry := by
  have hlegible : ∀ t, (keyedRequest [.str "postgres"]).snapshot = some t → t.Legible := by
    intro t ht
    contradiction
  rw [failure?_run (s := .fresh) (fun _ _ => rfl) hlegible rfl rfl]
  change [Component.postgres].findSome? (unrendered? settings _) = _
  rw [List.findSome?_singleton, unrendered?]
  exact Option.or_none

/-- **Ports betray themselves, and so does the order of entries.** Of two passes with one request
and one source, which differ in the port of the registry's database only, one fails. Two passes
whose requests list two other entries in one order and in the other fail for different reasons. -/
theorem secrets_betrayed :
    Session.fresh.Alike .fresh ∧
      ((keyedRequest [.str "postgres"]).LooksLike (keyedRequest [.str "postgres"]) ∧
        failure? ((run {} noon (keyedRequest [.str "postgres"])).perform .fresh).1 = none ∧
        failure? ((run { registry := { port := longNumber } } noon
          (keyedRequest [.str "postgres"])).perform .fresh).1 = some (.breach .range)) ∧
      ((listedRequest oddEntries).LooksLike (listedRequest oddEntries.reverse) ∧
        failure? ((run {} noon (listedRequest oddEntries)).perform .fresh).1 =
          some (.unwritable "dict") ∧
        failure? ((run {} noon (listedRequest oddEntries.reverse)).perform .fresh).1 =
          some (.breach .range)) := by
  have hmixed : ∀ l : Entries, (.int 1, .foreign) ∈ l → ¬ Texts l := by
    intro l hmem htexts
    obtain ⟨t, ht⟩ := htexts _ hmem
    exact absurd ht (by simp [bare])
  refine ⟨⟨rfl, fun _ _ => rfl, fun _ _ => rfl⟩, ⟨?_, ?_, ?_⟩, ?_, ?_, ?_⟩
  · exact
      { name := rfl, space := rfl, clusterHost := rfl, components := rfl, issueCertificate := rfl
        others := ⟨List.pairwise_pair.mpr rfl, List.pairwise_pair.mpr rfl, .refl _⟩
        provided := fun k => by cases k <;> exact .inl ⟨_, _, rfl, rfl⟩
        snapshot := .none }
  · rw [failure?_run_keyedRequest]
    decide
  · rw [failure?_run_keyedRequest, portRefused?, Credentials.writable, intText?_longNumber]
    rfl
  · exact
      { name := rfl, space := rfl, clusterHost := rfl, components := rfl, issueCertificate := rfl
        others := ⟨by decide, by decide, (List.reverse_perm oddEntries).symm⟩
        provided := fun k => by cases k <;> exact .inl ⟨_, _, rfl, rfl⟩
        snapshot := .none }
  · rw [failure?_run_listedRequest oddEntries rfl (by decide) (hmixed _ List.mem_cons_self)]
    rfl
  · rw [failure?_run_listedRequest oddEntries.reverse rfl (by decide)
      (hmixed _ (List.mem_reverse.mpr List.mem_cons_self))]
    change ([(Value.int 2, Value.int longNumber), (.int 1, .foreign)].findSome? Yaml.fault?).map _ =
      _
    rw [List.findSome?_cons, fault?_longNumber 2 (by decide)]
    rfl

end Pass

end RegistryBundle
