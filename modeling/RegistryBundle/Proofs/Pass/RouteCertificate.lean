import RegistryBundle.Proofs.FieldGroup.Overlay
import RegistryBundle.Proofs.Pass.BaseDocument

/-!
# The certificate of the route

The hostname of a route is derived three times: when its overlay is rendered, when the rendered page
is read again, and when a certificate is issued. All three agree.

* `Overlay.exists_routePage` is the page of a hostname,
  `Overlay.render_route` the overlay of a route;
* `Pass.lookup_route` says that a pass over a route keeps that page;
* `Pass.certificate_names_route` is the main statement.
-/

namespace RegistryBundle

open RegistryBundle.Action Value

/-- A certificate names its host, and nothing else beside its subject. -/
theorem Certificate.alternativeNames_of_issue {serial : Nat} {host : String} {now : Moment}
    {c : Certificate}
    (h : issue serial host now = .ok c) : c.alternativeNames = [.dns host] := by
  unfold issue issueWithin at h
  simp only at h
  split at h
  · exact nomatch h
  · split at h
    · exact nomatch h
    · obtain ⟨_, -, h⟩ := Outcome.bind_eq_ok.mp h
      obtain ⟨_, -, h⟩ := Outcome.bind_eq_ok.mp h
      split at h
      · obtain rfl := Except.ok.inj h
        rfl
      · exact nomatch h

/-- The number of a certificate makes no other difference. -/
theorem Certificate.issue_eq_map (serial other : Nat) (host : String) (now : Moment) :
    issue serial host now = (issue other host now).map fun c => { c with serial := serial } := by
  unfold issue issueWithin
  simp only
  split
  · rfl
  · split
    · rfl
    · cases bound now (-leadSeconds) with
      | error f => rfl
      | ok notBefore =>
          cases bound now validSeconds with
          | error f => rfl
          | ok notAfter =>
              simp only [Outcome.ok_bind]
              split <;> rfl

namespace Overlay

variable {settings : Settings} {d : Descriptor} {config : Entries} {s s' : Session}

/-- **The page of a hostname** is read as a mapping that holds it, and the
hostname is found there again. -/
theorem exists_routePage (g : HostGroup) :
    ∃ page es, (FieldGroup.host g).encode = .ok page ∧ Document.decode page = .ok (.map es) ∧
      Value.get? es hostnameKey = some (.str g.hostname) ∧
        hostnameOfPage page = .ok g.hostname := by
  have hreads := g.readsBack
  obtain ⟨page, hpage, hdecode⟩ :=
    Form.encode_reads hreads.written hreads.tree hreads.ne (Nat.le_trans hreads.height (by decide))
  refine ⟨page, (sortByKey g.entries).map fun e => (e.1, ordered e.2), hpage, ?_, ?_, ?_⟩
  · rw [hdecode, ordered_map hreads.tree.2.textKeys]
  · rw [get?_ordered hreads.tree.2.textKeys hreads.tree.1]
    rfl
  · rw [hostnameOfPage, hdecode, Outcome.ok_bind, plain_eq_self _ (isTree_ordered _ hreads.tree),
      hreads.fits]
    rfl

/-- The hostname of a route: the user's, if the user chooses one. -/
def hostnameOf (d : Descriptor) (chosen : Option String) : String :=
  chosen.getD d.routeHost

/-- **The overlay of a route** is the same in every session: the page of its hostname. -/
theorem render_route (settings : Settings) (d : Descriptor) {chosen : Option String}
    (hchosen : chosenHostname? config = .ok chosen) :
    ∃ page es, Document.decode page = .ok (.map es) ∧
      Value.get? es hostnameKey = some (.str (hostnameOf d chosen)) ∧
        hostnameOfPage page = .ok (hostnameOf d chosen) ∧
      ∀ s, ∃ s', (render settings d config .route).perform s =
        (.ok [(Component.route.configFile, page)], s') := by
  have hg : FieldGroup.synthesize settings d .route = .ok (some (.host (.ofDescriptor d))) :=
    FieldGroup.synthesize_of_ne settings d (by decide)
  obtain ⟨page, es, hpage, hdecode, hget, hhost⟩ :=
    exists_routePage { HostGroup.ofDescriptor d with hostname := hostnameOf d chosen }
  refine ⟨page, es, hdecode, hget, hhost, fun s => ?_⟩
  obtain ⟨files, s', hrender⟩ := render_of_synthesize hg hchosen s
  obtain ⟨group, hgroup, hfiles⟩ := render_ok hrender
  obtain rfl := Except.ok.inj (hg.symm.trans hgroup)
  obtain ⟨g', _, _, written, hchoices, hwritten, rfl⟩ := hfiles
  have hg' := (withChoices_ok hchoices).trans (withHostname_of_chosen hchosen _)
  rw [hg'] at hwritten
  obtain rfl : written = page := Except.ok.inj (hwritten.symm.trans hpage)
  exact ⟨s', hrender⟩

/-- A route is rendered only if the user's hostname is not refused. -/
theorem chosen_of_render {files : Table String}
    (h : (render settings d config .route).perform s = (.ok files, s')) :
    ∃ chosen, chosenHostname? config = .ok chosen := by
  obtain ⟨group, hgroup, hfiles⟩ := render_ok h
  rw [FieldGroup.synthesize_of_ne settings d (by decide)] at hgroup
  obtain rfl := Except.ok.inj hgroup
  obtain ⟨g', _, _, page, hchoices, -, -⟩ := hfiles
  obtain ⟨chosen, hchosen, -⟩ := perform_ofExcept_bind_ok.mp hchoices
  exact ⟨chosen, hchosen⟩

/-- The hostname that is read from the rendered overlay, in every session. -/
theorem routeHostname_eq (settings : Settings) (d : Descriptor) {chosen : Option String}
    (hchosen : chosenHostname? config = .ok chosen) (s : Session) :
    ∃ s', (routeHostname settings d config).perform s = (.ok (hostnameOf d chosen), s') := by
  obtain ⟨page, es, -, -, hhost, hrender⟩ := render_route settings d hchosen
  obtain ⟨s', hs'⟩ := hrender s
  refine ⟨s', ?_⟩
  rw [routeHostname, perform_bind_of_ok hs']
  simp only [List.lookup_cons, beq_self_eq_true]
  rw [perform_ofExcept, hhost]

end Overlay

namespace Pass

variable {settings : Settings} {now : Moment} {r : Request} {s s' : Session}
  {made later : Artifacts}
  {kinds : List Component}

/-- No other component has the file of the route. -/
theorem configFile_ne_route {c : Component} (h : c ≠ .route) :
    c.configFile ≠ Component.route.configFile := by
  cases c with
  | route => exact absurd rfl h
  | _ => decide

/-- A component more keeps the page of the route, or writes it. -/
theorem lookup_route_addComponent {page : String}
    (hpage : ∀ s, ∃ s', (Overlay.render settings r.descriptor r.config .route).perform s =
      (.ok [(Component.route.configFile, page)], s'))
    {c : Component} (h : (addComponent settings r made c).perform s = (.ok later, s'))
    (hmade : c = .route ∨ made.configFiles.lookup Component.route.configFile = some page) :
    later.configFiles.lookup Component.route.configFile = some page := by
  obtain ⟨overlay, _, _, hoverlay, -, rfl⟩ := addComponent_ok h
  by_cases hc : c = .route
  · subst hc
    obtain ⟨_, hrender⟩ := hpage s
    obtain rfl := Except.ok.inj (congrArg Prod.fst (hoverlay.symm.trans hrender))
    exact Table.lookup_put_self _ page made.configFiles
  · exact (Overlay.lookup_update hoverlay (configFile_ne_route hc) _).trans (hmade.resolve_left hc)

/-- **A pass over a route** keeps the page of the route. -/
theorem lookup_route {page : String}
    (hpage : ∀ s, ∃ s', (Overlay.render settings r.descriptor r.config .route).perform s =
      (.ok [(Component.route.configFile, page)], s'))
    (hroute : Component.route ∈ kinds)
    (h : (kinds.foldlM (addComponent settings r) made).perform s = (.ok later, s')) :
    later.configFiles.lookup Component.route.configFile = some page := by
  obtain ⟨rest, _, _, _, _, hfirst, hlater⟩ := perform_foldlM_mem hroute h
  exact perform_foldlM_ok (fun hmade h => lookup_route_addComponent hpage h (.inr hmade))
    (lookup_route_addComponent hpage hfirst (.inl rfl)) hlater

/-- Such a pass has rendered the route. -/
theorem chosen_of_foldlM (hroute : Component.route ∈ kinds)
    (h : (kinds.foldlM (addComponent settings r) made).perform s = (.ok later, s')) :
    ∃ chosen, Overlay.chosenHostname? r.config = .ok chosen := by
  obtain ⟨_, _, _, _, _, hfirst, -⟩ := perform_foldlM_mem hroute h
  obtain ⟨_, _, _, hoverlay, -, -⟩ := addComponent_ok hfirst
  exact Overlay.chosen_of_render hoverlay

/-- The hostname of a route is the user's, or that of the registry if the user chooses none. -/
theorem hostnameOf_cases {config : Entries} {chosen : Option String}
    (h : Overlay.chosenHostname? config = .ok chosen)
    (d : Descriptor) :
    match Value.get? config Overlay.hostnameKey with
    | some v => v.bare = .str (Overlay.hostnameOf d chosen)
    | none => Overlay.hostnameOf d chosen =
        s!"{d.name}-quay-{d.space}." ++ d.annotation "quay-cluster-hostname" := by
  have hbare := Overlay.bare_of_chosen h
  cases hv : Value.get? config Overlay.hostnameKey with
  | none =>
      rw [hv] at hbare
      cases chosen with
      | none => rfl
      | some name => contradiction
  | some v =>
      rw [hv] at hbare
      cases chosen with
      | none => contradiction
      | some name => exact Option.some.inj hbare

/-- The numbers of certificates count up. -/
theorem perform_nextSerial (s : Session) :
    nextSerial.perform s = (.ok (s.issued + 1), { s with issued := s.issued + 1 }) := rfl

/-- The certificate of a pass, for each of its components and the wish for one. -/
theorem certificate?_ok {certificate : Option Certificate}
    (h : (certificate? settings now r kinds).perform s = (.ok certificate, s')) :
    (certificate.isSome ↔ r.issueCertificate = true ∧ Component.route ∈ kinds) ∧
      ∀ c, certificate = some c → ∃ host serial, Certificate.issue serial host now = .ok c ∧
        ∃ t, (Overlay.routeHostname settings r.descriptor r.config).perform s = (.ok host, t) := by
  unfold certificate? at h
  split at h
  · next hissue =>
      rw [Bool.and_eq_true, List.contains_iff_mem] at hissue
      obtain ⟨c, t, hcertify, hc⟩ := perform_bind_ok.mp h
      obtain ⟨rfl, -⟩ := perform_pure_ok hc
      refine ⟨by simp [hissue], fun _ heq => ?_⟩
      obtain rfl := Option.some.inj heq
      rw [certify] at hcertify
      obtain ⟨host, t', hhost, hcertify⟩ := perform_bind_ok.mp hcertify
      obtain ⟨serial, _, -, hcertify⟩ := perform_bind_ok.mp hcertify
      rw [perform_ofExcept] at hcertify
      exact ⟨host, serial, congrArg Prod.fst hcertify, t', hhost⟩
  · next hissue =>
      obtain ⟨rfl, -⟩ := perform_pure_ok h
      rw [Bool.and_eq_true, List.contains_iff_mem] at hissue
      exact ⟨by simp [hissue], fun _ heq => nomatch heq⟩

/-- **A pass that succeeds issues a certificate exactly if it is asked to and renders the route.**
The certificate names one host, and no address: the hostname in the page of the route that the same
pass made, which is also the one that is read from that page, the one of a certificate that is
issued apart from a pass, and the one that the user chooses or else that of the registry. -/
theorem certificate_names_route (h : (run settings now r).perform s = (.ok made, s')) :
    (made.certificate.isSome ↔
      r.issueCertificate = true ∧ ∃ v ∈ r.components, Component.parse v = .ok .route) ∧
    ∀ c, made.certificate = some c → ∃ host page es,
      c.alternativeNames = [.dns host] ∧
      made.configFiles.lookup Component.route.configFile = some page ∧
        Document.decode page = .ok (.map es) ∧
      Value.get? es Overlay.hostnameKey = some (.str host) ∧
      (∀ t, ((Overlay.routeHostname settings r.descriptor r.config).perform t).1 = .ok host) ∧
      (∀ later t, ∃ serial, ((customCertificate settings r.descriptor r.config later).perform t).1 =
        Certificate.issue serial host later) ∧
      match Value.get? r.config Overlay.hostnameKey with
      | some v => v.bare = .str host
      | none => host = s!"{r.descriptor.name}-quay-{r.descriptor.space}." ++
          r.descriptor.annotation "quay-cluster-hostname" := by
  obtain ⟨kinds, keys, t, hkinds, -, hfinish⟩ := run_steps h
  obtain ⟨base, rendered, t', _, certificate, -, hrendered, hcertificate, rfl⟩ :=
    finish_steps hfinish
  obtain ⟨hissued, hnames⟩ := certificate?_ok hcertificate
  refine ⟨by rw [hissued, Outcome.mem_of_mapM_eq_ok hkinds], fun c hc => ?_⟩
  replace hc : certificate = some c := hc
  obtain ⟨host, serial, hissue, _, hhost⟩ := hnames c hc
  have hroute : Component.route ∈ kinds := (hissued.mp (by rw [hc]; rfl)).2
  obtain ⟨chosen, hchosen⟩ := chosen_of_foldlM hroute hrendered
  obtain ⟨page, es, hdecode, hget, -, hpage⟩ := Overlay.render_route settings r.descriptor hchosen
  have hread := Overlay.routeHostname_eq settings r.descriptor hchosen
  obtain ⟨_, hsame⟩ := hread t'
  obtain rfl : Overlay.hostnameOf r.descriptor chosen = host :=
    Except.ok.inj (congrArg Prod.fst (hsame.symm.trans hhost))
  have hlookup := lookup_route hpage hroute hrendered
  refine ⟨_, page, es, Certificate.alternativeNames_of_issue hissue, hlookup, hdecode, hget,
    fun t => ?_, fun later t => ?_, ?_⟩
  · obtain ⟨_, ht⟩ := hread t
    rw [ht]
  · obtain ⟨u, ht⟩ := hread t
    rw [customCertificate, perform_bind_of_ok ht, perform_report_bind,
      perform_bind_of_ok (perform_nextSerial _), perform_ofExcept]
    exact ⟨_, rfl⟩
  · exact hostnameOf_cases hchosen r.descriptor

/-- A pass over the route of a registry whose hostname the user chooses. -/
def routeRequest : Request :=
  { descriptor := { name := "r" }, config := configWith Overlay.hostnameKey (.str "quay.example")
    components := [.str Component.route.name] }

/-- It issues a certificate for that hostname. -/
theorem certificate_names_route_chosen :
    ∃ made s' c, (run {} noon routeRequest).perform .fresh = (.ok made, s') ∧
      made.certificate = some c ∧ c.alternativeNames = [.dns "quay.example"] := by
  have htree : IsTree (.map routeRequest.config) :=
    ⟨nodup_keys [ManagedKey.secret.name, ManagedKey.database.name, Overlay.hostnameKey] (by decide),
      ⟨_, rfl, by decide⟩, trivial, ⟨_, rfl, by decide⟩, trivial, ⟨_, rfl, by decide⟩, trivial,
        trivial⟩
  have hchosen : Overlay.chosenHostname? routeRequest.config = .ok (some "quay.example") := rfl
  obtain ⟨t, hkeys⟩ :
    ∃ t, (SecretKey.resolvePair routeRequest.descriptor SecretKey.usualLength routeRequest.config
      routeRequest.snapshot).perform .fresh = (.ok ⟨"s", "d", none, false⟩, t) := ⟨_, rfl⟩
  obtain ⟨base, hbase, -⟩ := encode_document htree "s" "d"
  obtain ⟨page, es, -, -, -, hpage⟩ := Overlay.render_route {} routeRequest.descriptor hchosen
  obtain ⟨u, hrender⟩ := hpage t
  obtain ⟨made, hmade⟩ : ∃ made, ([Component.route].foldlM (addComponent {} routeRequest)
      (start ⟨"s", "d", none, false⟩ base)).perform t = (.ok made, u) := by
    rw [List.foldlM_cons, addComponent, bind_assoc, perform_bind_of_ok hrender]
    exact ⟨_, rfl⟩
  obtain ⟨v, hhost⟩ :
    ∃ v, (Overlay.routeHostname {} routeRequest.descriptor routeRequest.config).perform u =
      (.ok "quay.example", v) := Overlay.routeHostname_eq {} routeRequest.descriptor hchosen u
  obtain ⟨c, hissue⟩ : ∃ c, Certificate.issue (v.issued + 1) "quay.example" noon = .ok c := by
    have hone : (Certificate.issue 1 "quay.example" noon).isOk = true := by decide +kernel
    rw [Certificate.issue_eq_map _ 1]
    cases hc : Certificate.issue 1 "quay.example" noon with
    | ok c => exact ⟨_, rfl⟩
    | error f =>
        rw [hc] at hone
        exact absurd hone Bool.false_ne_true
  obtain ⟨w, hcertificate⟩ : ∃ w, (certificate? {} noon routeRequest [.route]).perform u =
    (.ok (some c), w) := by
    have hcertify : (certify {} routeRequest noon).perform u =
        (.ok c, { v with issued := v.issued + 1 }) := by
      rw [certify, perform_bind_of_ok hhost, perform_bind_of_ok (perform_nextSerial v),
        perform_ofExcept, hissue]
    exact ⟨_, (perform_bind_of_ok hcertify).trans rfl⟩
  obtain ⟨s', hrun⟩ : ∃ s', (run {} noon routeRequest).perform .fresh =
      (.ok { made with certificate := some c }, s') := by
    have hkinds : (ofExcept (routeRequest.components.mapM Component.parse)).perform .fresh =
        (.ok [Component.route], .fresh) := rfl
    have hfirst : (ofExcept (Document.encode (.map (document routeRequest.config "s" "d")))).perform
      t =
        (.ok base, t) := by rw [hbase, perform_ofExcept]
    rw [run_eq, perform_bind_of_ok hkinds, perform_bind_of_ok hkeys, finish,
      perform_bind_of_ok hfirst, perform_bind_of_ok hmade, perform_bind_of_ok hcertificate]
    exact ⟨_, rfl⟩
  obtain ⟨-, hnames⟩ := certificate_names_route hrun
  obtain ⟨host, _, _, halternative, -, -, -, -, -, hchosenHost⟩ := hnames c rfl
  obtain rfl : "quay.example" = host := Value.str.inj hchosenHost
  exact ⟨_, s', c, hrun, rfl, halternative⟩

end Pass

end RegistryBundle
