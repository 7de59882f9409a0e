import RegistryBundle.Pass
import RegistryBundle.Proofs.Run.Action
import RegistryBundle.Proofs.Value.Tables

/-!
# The course of a pass

A pass that succeeds has found its keys and written the base document first; rendering the
components changes neither of them.

* `Overlay.render_ok`: a component has one file of its own, or none; `ScannerConfig.build_ok` says
  the same of its service;
* `Pass.addComponent_ok` is all that one component more adds;
* `Artifacts.Keeps` is what rendering leaves as it is, `Pass.keeps_foldlM` says that it does;
* `Pass.run_ok` is what a pass that succeeds has done, `Pass.named_of_run` how its files are named;
* `Pass.finish` is a pass from its keys on, which draws nothing more (`Pass.quiet_finish`).
-/

namespace RegistryBundle

open RegistryBundle.Action

/-! ## Files of components -/

/-- A component has one file, named after it, or none. -/
theorem Overlay.render_ok {settings : Settings} {d : Descriptor} {config : Entries} {c : Component}
    {s s' : Session}
    {files : Table String} (h : (Overlay.render settings d config c).perform s = (.ok files, s')) :
    ∃ group, FieldGroup.synthesize settings d c = .ok group ∧
      match group with
      | none => files = []
      | some g => ∃ g' t t' page, (withChoices config g).perform t = (.ok g',
          t') ∧ g'.encode = .ok page ∧ files = [(c.configFile, page)] := by
  rw [render] at h
  obtain ⟨group, hgroup, h⟩ := perform_ofExcept_bind_ok.mp h
  rw [perform_report_bind] at h
  refine ⟨group, hgroup, ?_⟩
  cases group with
  | none =>
      rw [perform_report_bind] at h
      exact (perform_pure_ok h).1.symm
  | some g =>
      obtain ⟨g', t', hchoices, h⟩ := perform_bind_ok.mp h
      obtain ⟨page, hpage, h⟩ := perform_ofExcept_bind_ok.mp h
      exact ⟨g', _, t', page, hchoices, hpage, (perform_pure_ok h).1.symm⟩

/-- No component's file is the base document. -/
theorem Component.configFile_ne_baseFile (c : Component) : c.configFile ≠ Pass.baseFile := by
  cases c <;> decide

/-- The table with the files of a component holds any other file as before. -/
theorem Overlay.lookup_update {settings : Settings} {d : Descriptor} {config : Entries}
    {c : Component}
    {s s' : Session} {files : Table String}
    (h : (Overlay.render settings d config c).perform s = (.ok files, s'))
    {name : String} (hne : c.configFile ≠ name) (t : Table String) :
    (Table.update t files).lookup name = t.lookup name := by
  obtain ⟨group, -, hfiles⟩ := render_ok h
  cases group with
  | none =>
      obtain rfl : files = [] := hfiles
      rfl
  | some g =>
      obtain ⟨_, _, _, page, -, -, rfl⟩ := hfiles
      exact Table.lookup_put_other hne page t

/-! ## Services of components -/

namespace ScannerConfig

/-- Only the scanner has a file, which holds its page. -/
theorem build_ok {settings : Settings} {d : Descriptor} {c : Component} {s s' : Session}
    {file : Option (String × String)}
    (h : (build settings d c).perform s = (.ok file, s')) :
    c = .clair ∧ (∃ content, page d settings = .ok content ∧ file = some (fileName, content)) ∨
      c ≠ .clair ∧ file = none := by
  cases c with
  | clair =>
      rw [build, perform_report_bind] at h
      obtain ⟨content, hcontent, h⟩ := perform_ofExcept_bind_ok.mp h
      exact .inl ⟨rfl, content, hcontent, (perform_pure_ok h).1.symm⟩
  | redis | postgres | objectStorage | route | podAutoscaler =>
      exact .inr ⟨by decide, (perform_pure_ok h).1.symm⟩

/-- The service files with that of a component, if it has one. -/
def addService (c : Component) (file : Option (String × String))
    (files : List (Component × Table String)) :
    List (Component × Table String) :=
  match file with
  | some f => Pass.putService c [f] files
  | none => files

end ScannerConfig

/-! ## What rendering leaves as it is -/

/-- The keys and the base document are the same in what was made later. -/
structure Artifacts.Keeps (made later : Artifacts) : Prop where
  secretKey : later.secretKey = made.secretKey
  databaseKey : later.databaseKey = made.databaseKey
  snapshot : later.snapshot = made.snapshot
  generated : later.generated = made.generated
  base : later.configFiles.lookup Pass.baseFile = made.configFiles.lookup Pass.baseFile

theorem Artifacts.Keeps.refl (made : Artifacts) : made.Keeps made :=
  ⟨rfl, rfl, rfl, rfl, rfl⟩

theorem Artifacts.Keeps.trans {a b c : Artifacts} (hab : a.Keeps b) (hbc : b.Keeps c) : a.Keeps c :=
  ⟨hbc.secretKey.trans hab.secretKey, hbc.databaseKey.trans hab.databaseKey,
    hbc.snapshot.trans hab.snapshot, hbc.generated.trans hab.generated, hbc.base.trans hab.base⟩

/-- The files of a pass have the names of the base document, of components and of the
scanner's configuration. -/
structure Artifacts.Named (made : Artifacts) : Prop where
  config : ∀ f ∈ made.configFiles, f.1 = Pass.baseFile ∨ ∃ c : Component, f.1 = c.configFile
  service : ∀ e ∈ made.serviceFiles, ∀ f ∈ e.2, f.1 = ScannerConfig.fileName

namespace Pass

variable {settings : Settings} {r : Request} {now : Moment} {s s' : Session}

/-- **One component more** adds its overlay and its service, and changes nothing else. -/
theorem addComponent_ok {made later : Artifacts} {c : Component}
    (h : (addComponent settings r made c).perform s = (.ok later, s')) :
    ∃ overlay file t, (Overlay.render settings r.descriptor r.config c).perform s =
      (.ok overlay, t) ∧ (ScannerConfig.build settings r.descriptor c).perform t = (.ok file, s') ∧
      later = { made with
        configFiles := Table.update made.configFiles overlay
        serviceFiles := ScannerConfig.addService c file made.serviceFiles } := by
  rw [addComponent] at h
  obtain ⟨overlay, t, hoverlay, h⟩ := perform_bind_ok.mp h
  obtain ⟨file, _, hfile, h⟩ := perform_bind_ok.mp h
  obtain ⟨rfl, rfl⟩ := perform_pure_ok h
  exact ⟨overlay, file, t, hoverlay, hfile, rfl⟩

/-- One component more leaves the keys and the base document as they are. -/
theorem keeps_addComponent {made later : Artifacts} {c : Component}
    (h : (addComponent settings r made c).perform s = (.ok later, s')) : made.Keeps later := by
  obtain ⟨overlay, file, _, hoverlay, -, rfl⟩ := addComponent_ok h
  exact ⟨rfl, rfl, rfl, rfl, Overlay.lookup_update hoverlay c.configFile_ne_baseFile _⟩

/-- All components. -/
theorem keeps_foldlM {kinds : List Component} {made later : Artifacts}
    (h : (kinds.foldlM (addComponent settings r) made).perform s = (.ok later, s')) :
      made.Keeps later :=
  perform_foldlM_ok (fun hkeeps h => hkeeps.trans (keeps_addComponent h)) (.refl made) h

/-- What a pass has made when its keys are found and its base document is written. -/
def start (keys : SecretKey.ResolvedPair) (base : String) : Artifacts :=
  { secretKey := keys.secret, databaseKey := keys.database, snapshot := keys.snapshot
    generated := keys.generated, configFiles := [(baseFile, base)] }

/-- The certificate of a pass, if it issues one. -/
def certificate? (settings : Settings) (now : Moment) (r : Request) (kinds : List Component) :
    Action (Option Certificate) :=
  if r.issueCertificate && kinds.contains .route then some <$> certify settings r now else pure none

/-- A pass from its keys on. -/
def finish (settings : Settings) (now : Moment) (r : Request) (kinds : List Component)
    (keys : SecretKey.ResolvedPair) :
    Action Artifacts := do
  let base ← Action.ofExcept (Document.encode (.map (document r.config keys.secret keys.database)))
  let made ← kinds.foldlM (addComponent settings r) (start keys base)
  let certificate ← certificate? settings now r kinds
  Action.report .info .pass
    s!"Synthesized {made.configFiles.length} config files for {r.descriptor.name} ({listing kinds})"
  return { made with certificate := certificate }

/-- A pass finds its components, then its keys. -/
theorem run_eq (settings : Settings) (now : Moment) (r : Request) :
    run settings now r = (ofExcept (r.components.mapM Component.parse) >>= fun kinds =>
      SecretKey.resolvePair r.descriptor SecretKey.usualLength r.config r.snapshot >>= fun keys =>
        finish settings now r kinds keys) := by
  unfold run finish certificate?
  refine bind_congr fun kinds => ?_
  split <;> rfl

/-- The steps from the keys on. -/
theorem finish_steps {kinds : List Component} {keys : SecretKey.ResolvedPair} {made : Artifacts}
    (h : (finish settings now r kinds keys).perform s = (.ok made, s')) :
    ∃ (base : String) (rendered : Artifacts) (t t' : Session) (certificate : Option Certificate),
      Document.encode (.map (document r.config keys.secret keys.database)) = .ok base ∧
      (kinds.foldlM (addComponent settings r) (start keys base)).perform s = (.ok rendered, t) ∧
      (certificate? settings now r kinds).perform t = (.ok certificate, t') ∧
      made = { rendered with certificate := certificate } := by
  rw [finish] at h
  obtain ⟨base, hbase, h⟩ := perform_ofExcept_bind_ok.mp h
  obtain ⟨rendered, t, hrendered, h⟩ := perform_bind_ok.mp h
  obtain ⟨certificate, t', hcertificate, h⟩ := perform_bind_ok.mp h
  rw [perform_report_bind] at h
  obtain ⟨rfl, -⟩ := perform_pure_ok h
  exact ⟨base, rendered, t, t', certificate, hbase, hrendered, hcertificate, rfl⟩

/-- **From the keys on** a pass leaves them as they are, and the base
document as it is written first. -/
theorem keeps_finish {kinds : List Component} {keys : SecretKey.ResolvedPair} {made : Artifacts}
    (h : (finish settings now r kinds keys).perform s = (.ok made, s')) :
    ∃ base, Document.encode (.map (document r.config keys.secret keys.database)) = .ok base ∧
      (start keys base).Keeps made := by
  obtain ⟨base, rendered, t, t', certificate, hbase, hrendered, -, rfl⟩ := finish_steps h
  have hkeeps := keeps_foldlM hrendered
  exact ⟨base, hbase, hkeeps.secretKey, hkeeps.databaseKey, hkeeps.snapshot, hkeeps.generated,
    hkeeps.base⟩

/-- The first steps of a pass that succeeds. -/
theorem run_steps {made : Artifacts} (h : (run settings now r).perform s = (.ok made, s')) :
    ∃ (kinds : List Component) (keys : SecretKey.ResolvedPair) (t : Session),
      r.components.mapM Component.parse = .ok kinds ∧
      (SecretKey.resolvePair r.descriptor SecretKey.usualLength r.config r.snapshot).perform s =
        (.ok keys, t) ∧
      (finish settings now r kinds keys).perform t = (.ok made, s') := by
  rw [run_eq] at h
  obtain ⟨kinds, hkinds, h⟩ := perform_ofExcept_bind_ok.mp h
  obtain ⟨keys, t, hkeys, h⟩ := perform_bind_ok.mp h
  exact ⟨kinds, keys, t, hkinds, hkeys, h⟩

/-- **A pass that succeeds** has found both keys and written the base document with them. -/
theorem run_ok {made : Artifacts} (h : (run settings now r).perform s = (.ok made, s')) :
    ∃ keys t base,
      (SecretKey.resolvePair r.descriptor SecretKey.usualLength r.config r.snapshot).perform s =
        (.ok keys, t) ∧
      Document.encode (.map (document r.config keys.secret keys.database)) = .ok base ∧
      made.secretKey = keys.secret ∧ made.databaseKey = keys.database ∧
        made.snapshot = keys.snapshot ∧
      made.generated = keys.generated ∧ made.configFiles.lookup baseFile = some base := by
  obtain ⟨kinds, keys, t, -, hkeys, hfinish⟩ := run_steps h
  obtain ⟨base, hbase, hkeeps⟩ := keeps_finish hfinish
  exact ⟨keys, t, base, hkeys, hbase, hkeeps.secretKey, hkeeps.databaseKey, hkeeps.snapshot,
    hkeeps.generated, hkeeps.base⟩

/-! ## Names of files -/

/-- The files of a component are its own. -/
theorem mem_overlay {c : Component} {files : Table String}
    (h : (Overlay.render settings r.descriptor r.config c).perform s = (.ok files, s')) :
    ∀ f ∈ files, f.1 = c.configFile := by
  obtain ⟨group, -, hfiles⟩ := Overlay.render_ok h
  cases group with
  | none =>
      obtain rfl : files = [] := hfiles
      exact fun _ hf => absurd hf List.not_mem_nil
  | some g =>
      obtain ⟨_, _, _, page, -, -, rfl⟩ := hfiles
      intro f hf
      rw [List.mem_singleton.mp hf]

/-- The scanner's file has its name. -/
theorem scannerConfig_ok {c : Component} {file : Option (String × String)}
    (h : (ScannerConfig.build settings r.descriptor c).perform s = (.ok file, s')) :
    ∀ f, file = some f → f.1 = ScannerConfig.fileName := by
  obtain ⟨-, content, -, rfl⟩ | ⟨-, rfl⟩ := ScannerConfig.build_ok h
  · intro f hf
    rw [← Option.some.inj hf]
  · exact fun _ hf => nomatch hf

/-- Names stay as they are with one more service. -/
theorem mem_putService {c : Component} {files : Table String}
    {services : List (Component × Table String)}
    {e : Component × Table String} (h : e ∈ putService c files services) :
      e = (c, files) ∨ e ∈ services := by
  induction services with
  | nil => exact .inl (List.mem_singleton.mp h)
  | cons f rest ih =>
      rw [putService] at h
      split at h
      · exact (List.mem_cons.mp h).imp_right (List.mem_cons_of_mem f)
      · rcases List.mem_cons.mp h with rfl | h
        · exact .inr List.mem_cons_self
        · exact (ih h).imp_right (List.mem_cons_of_mem f)

/-- One component more. -/
theorem named_addComponent {made later : Artifacts} {c : Component} (hmade : made.Named)
    (h : (addComponent settings r made c).perform s = (.ok later, s')) : later.Named := by
  obtain ⟨overlay, service, _, hoverlay, hservice, rfl⟩ := addComponent_ok h
  constructor
  · intro f hf
    rcases Table.mem_update hf with hf | hf
    · exact .inr ⟨c, mem_overlay hoverlay f hf⟩
    · exact hmade.config f hf
  · intro e he
    cases service with
    | none => exact hmade.service e he
    | some file =>
        rcases mem_putService he with rfl | he
        · intro f hf
          exact scannerConfig_ok hservice f (congrArg some (List.mem_singleton.mp hf).symm)
        · exact hmade.service e he

/-- **The files of a pass** have the names that are known beforehand. -/
theorem named_of_run {made : Artifacts} (h : (run settings now r).perform s = (.ok made, s')) :
    made.Named := by
  obtain ⟨kinds, keys, t, -, -, hfinish⟩ := run_steps h
  obtain ⟨base, rendered, _, _, certificate, -, hrendered, -, rfl⟩ := finish_steps hfinish
  have hstart : (start keys base).Named :=
    ⟨fun f hf => .inl (by rw [List.mem_singleton.mp hf]), fun _ he => absurd he List.not_mem_nil⟩
  have hrendered := perform_foldlM_ok (fun hmade h => named_addComponent hmade h) hstart hrendered
  exact ⟨hrendered.config, hrendered.service⟩

end Pass

/-! ## Octets -/

namespace Overlay

/-- The user's choices draw nothing. -/
theorem quiet_withChoices (config : Entries) (g : FieldGroup) : Quiet (withChoices config g) := by
  cases g with
  | host h =>
      refine (quiet_ofExcept _).bind fun chosen => ?_
      cases chosen with
      | none => exact quiet_pure _
      | some name => exact (quiet_report _ _ _).bind fun _ => quiet_pure _
  | _ => exact quiet_pure _

private theorem quiet_render (settings : Settings) (d : Descriptor) (config : Entries)
    (c : Component) :
    Quiet (render settings d config c) := by
  refine (quiet_ofExcept _).bind fun group => (quiet_report _ _ _).bind fun _ => ?_
  cases group with
  | none => exact (quiet_report _ _ _).bind fun _ => quiet_pure _
  | some g => exact (quiet_withChoices config g).bind fun _ => (quiet_ofExcept _).bind fun _ =>
      quiet_pure _

private theorem quiet_routeHostname (settings : Settings) (d : Descriptor) (config : Entries) :
    Quiet (routeHostname settings d config) := by
  refine (quiet_render settings d config .route).bind fun files => ?_
  split
  · exact quiet_ofExcept _
  · exact quiet_throw _

end Overlay

namespace Pass

private theorem quiet_addComponent (settings : Settings) (r : Request) (made : Artifacts)
    (c : Component) :
    Quiet (addComponent settings r made c) := by
  refine (Overlay.quiet_render settings r.descriptor r.config c).bind fun _ =>
    Quiet.bind ?_ fun _ => quiet_pure _
  cases c with
  | clair => exact (quiet_report _ _ _).bind fun _ => (quiet_ofExcept _).bind fun _ => quiet_pure _
  | _ => exact quiet_pure _

private theorem quiet_certify (settings : Settings) (r : Request) (now : Moment) :
    Quiet (certify settings r now) := by
  refine (Overlay.quiet_routeHostname settings r.descriptor r.config).bind fun host => ?_
  have hserial : Quiet nextSerial := fun _ => rfl
  exact hserial.bind fun _ => quiet_ofExcept _

/-- **From its keys on** a pass draws nothing. -/
theorem quiet_finish (settings : Settings) (now : Moment) (r : Request) (kinds : List Component)
    (keys : SecretKey.ResolvedPair) : Quiet (finish settings now r kinds keys) := by
  refine (quiet_ofExcept _).bind fun base => ?_
  refine (quiet_foldlM (quiet_addComponent settings r) kinds _).bind fun made => ?_
  refine Quiet.bind ?_ fun _ => (quiet_report _ _ _).bind fun _ => quiet_pure _
  unfold certificate?
  split
  · exact (quiet_certify settings r now).bind fun _ => quiet_pure _
  · exact quiet_pure _

end Pass

end RegistryBundle
