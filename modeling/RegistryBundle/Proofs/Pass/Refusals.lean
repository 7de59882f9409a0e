import RegistryBundle.Proofs.FieldGroup.Overlay
import RegistryBundle.Proofs.Keys.Draws
import RegistryBundle.Proofs.Keys.Reloading
import RegistryBundle.Proofs.Pass.BaseDocument
import RegistryBundle.Proofs.Yaml.Writable

/-!
# What refuses a pass

A pass whose source delivers and whose snapshot is legible fails for a few reasons only, all of
which can be seen in its request: a component that is not known, a key that is no text, an object
that no document can hold, a hostname that is refused, a port without a text.

* `Pass.refusal?` is the first of them, in the order in which a pass comes upon them;
* `SecretKey.PairResolution.failure?_eq`, `Pass.failure?_encode` and `Pass.failure?_addComponent`
  are the steps of a pass, `Pass.failure?_run` all of them together;
* `Pass.run_error_iff` is the main statement.
-/

namespace RegistryBundle

open RegistryBundle.Action Outcome Value

/-! ## Components -/

namespace Component

/-- The component that a value names. -/
def named? (v : Value) : Option Component :=
  match v.bare with
  | .str s => ofName? s
  | _ => none

/-- A value names a component exactly if it is the text of its name. -/
theorem named?_eq_some_iff {v : Value} {c : Component} :
    named? v = some c ↔ v.bare = .str c.name := by
  unfold named?
  cases v.bare <;> simp [ofName?_eq_some_iff]

/-- How a value is refused that names no component: as unknown, unless it has no text. -/
def refusedName (v : Value) : Failure :=
  match v.text? with
  | some shown => .unknownComponent shown
  | none => .breach .range

/-- Why a value is refused as the name of a component. -/
def unnamed? (v : Value) : Option Failure :=
  match named? v with
  | some _ => none
  | none => some (refusedName v)

private theorem parse_of_named {v : Value} {c : Component} (h : named? v = some c) :
    parse v = .ok c := by
  unfold parse
  rw [named?_eq_some_iff.mp h]
  simp only [ofName?_name]

private theorem parse_of_unnamed {v : Value} (h : named? v = none) :
    parse v = .error (refusedName v) := by
  unfold named? at h
  unfold parse refusedName
  cases hb : v.bare with
  | str s =>
      rw [hb] at h
      simp only at h ⊢
      rw [h]
      cases v.text? <;> rfl
  | _ => cases v.text? <;> rfl

private theorem failure?_parse (v : Value) : failure? (parse v) = unnamed? v := by
  unfold unnamed?
  cases h : named? v with
  | some c =>
      rw [parse_of_named h]
      rfl
  | none =>
      rw [parse_of_unnamed h]
      rfl

private theorem named?_of_parse {v : Value} {c : Component} (h : parse v = .ok c) :
    named? v = some c := by
  cases hv : named? v with
  | some c' =>
      rw [parse_of_named hv] at h
      exact congrArg some (Except.ok.inj h)
  | none =>
      rw [parse_of_unnamed hv] at h
      contradiction

/-- The components that values name. -/
theorem filterMap_named? {values : List Value} {kinds : List Component}
    (h : values.mapM parse = .ok kinds) :
    values.filterMap named? = kinds := by
  induction values generalizing kinds with
  | nil => exact Except.ok.inj h
  | cons v values ih =>
      rw [List.mapM_cons] at h
      obtain ⟨c, hc, h⟩ := bind_eq_ok.mp h
      obtain ⟨rest, hrest, h⟩ := bind_eq_ok.mp h
      rw [← Except.ok.inj h, List.filterMap_cons_some (named?_of_parse hc), ih hrest]

end Component

namespace Pass

/-! ## Keys -/

/-- Why a managed key is refused: the user's configuration gives no text for it. -/
def misgiven? (config : Entries) (k : ManagedKey) : Option Failure :=
  match (Value.get? config k.name).map Value.bare with
  | none => none
  | some (.str _) => none
  | some v => some (.malformedUserValue k.name (.notText v.typeName))

private theorem failure?_provided? (config : Entries) (k : ManagedKey) :
    failure? (SecretKey.provided? config k.name) = misgiven? config k := by
  unfold SecretKey.provided? misgiven?
  cases Value.get? config k.name with
  | none => rfl
  | some v =>
      simp only [Option.map_some]
      cases v.bare <;> rfl

end Pass

namespace SecretKey

variable {d : Descriptor} {count : Nat} {config : Entries} {snapshot : Option Snapshot}
  {k : ManagedKey}
  {r r' : Randomness} {x : Except Failure Resolved}

/-- With a source that delivers and a legible snapshot, a key is refused only if it is misgiven. -/
theorem Resolution.failure?_eq (h : Resolution d count config snapshot k.name r x r')
    (hr : r.source.Faithful)
    (hlegible : ∀ t, snapshot = some t → t.Legible) : failure? x = Pass.misgiven? config k := by
  rw [← Pass.failure?_provided?]
  cases h with
  | refused f h => rw [h]; rfl
  | given key h => rw [h]; rfl
  | illegible t f absent ht h =>
      obtain ⟨found, hfound⟩ := (hlegible t ht).exists_lookup k.name
      rw [hfound] at h
      contradiction
  | kept key t absent => rw [absent]; rfl
  | made absent =>
      rw [drawn_faithful hr, absent]
      rfl

/-- The snapshot stays legible. -/
theorem Resolution.legible {name : String} {kept : Resolved}
    (h : Resolution d count config snapshot name r (.ok kept) r')
    (hlegible : ∀ t, snapshot = some t → t.Legible) :
    ∀ t, kept.snapshot = some t → t.Legible := by
  obtain hsame | ⟨key, hput⟩ := h.snapshot_cases
  · rw [hsame]
    exact hlegible
  · intro t ht
    rw [← Option.some.inj (hput.symm.trans ht)]
    cases snapshot with
    | none => exact fun e he => absurd he List.not_mem_nil
    | some given => exact hlegible given rfl

/-- **Both keys** are refused only if one of them is misgiven, the secret key first. -/
theorem PairResolution.failure?_eq {pair : Except Failure ResolvedPair}
    {keys : List (ManagedKey × String)}
    (h : PairResolution d count config snapshot r pair keys r') (hr : r.source.Faithful)
    (hlegible : ∀ t, snapshot = some t → t.Legible) :
    failure? pair = managedKeys.findSome? (Pass.misgiven? config) := by
  cases h with
  | stopped f _ h =>
      have hsecret := h.failure?_eq (k := .secret) hr hlegible
      rw [managedKeys, List.findSome?_cons, ← hsecret]
      rfl
  | continued first t h x _ hx =>
      have ht := h.faithful hr
      have hsecret := h.failure?_eq (k := .secret) hr hlegible
      have hdatabase := hx.failure?_eq (k := .database) ht (h.legible hlegible)
      rw [managedKeys, List.findSome?_cons, ← hsecret, failure?, List.findSome?_cons, ← hdatabase]
      cases x <;> rfl

end SecretKey

/-! ## Foreign objects -/

namespace Pass

variable {settings : Settings} {now : Moment} {r : Request} {s : Session} {config : Entries}

/-- Whether some object that no document can hold occurs in the base document, at any depth. -/
def hasForeign (config : Entries) : Bool :=
  (Value.map (document config "" "")).holds Value.isForeign

/-- The keys make no difference to that. -/
theorem holds_document (config : Entries) (secretKey databaseKey : String) :
    (Value.map (document config secretKey databaseKey)).holds Value.isForeign =
      hasForeign config := by
  have hany : ∀ entries : Entries, holdsEntries Value.isForeign entries =
      (entries.map fun e => (e.1, e.2.holds Value.isForeign)).any fun e =>
        e.1.holds Value.isForeign || e.2 := by
    intro entries
    rw [holdsEntries_eq_any, List.any_map]
    rfl
  simp only [hasForeign, Value.holds, hany, document, Value.map_put]
  rfl

/-- The base document has no number that is too long if the user's configuration has none. -/
theorem document_short (h : (Value.map config).holds Value.isLong = false)
    (secretKey databaseKey : String) :
    (Value.map (document config secretKey databaseKey)).holds Value.isLong = false :=
  holdsEntries_put (holdsEntries_put (holdsEntries_foldl_put h rfl) rfl rfl) rfl rfl

/-- **The base document** is refused only for a foreign object. -/
theorem failure?_encode (h : (Value.map config).holds Value.isLong = false)
    (secretKey databaseKey : String) :
    failure? (Document.encode (.map (document config secretKey databaseKey))) =
      if hasForeign config then some (.unwritable "dict") else none := by
  have hlong := document_short h secretKey databaseKey
  cases hforeign : hasForeign config with
  | true =>
      rw [← holds_document config secretKey databaseKey] at hforeign
      rw [Document.encode_of_holds hlong hforeign]
      rfl
  | false =>
      rw [← holds_document config secretKey databaseKey] at hforeign
      obtain ⟨page, hpage⟩ := Document.encode_of_not_holds hlong hforeign
      rw [hpage]
      rfl

/-! ## Rendering -/

/-- Why the user's hostname is refused: it is no text, or empty. -/
def hostRefused? (config : Entries) : Option Failure :=
  match (Value.get? config Overlay.hostnameKey).map Value.bare with
  | none => none
  | some (.str s) => if s = "" then some (.malformedUserValue Overlay.hostnameKey .empty) else none
  | some v => some (.malformedUserValue Overlay.hostnameKey (.notText v.typeName))

private theorem failure?_chosenHostname? (config : Entries) :
    failure? (Overlay.chosenHostname? config) = hostRefused? config := by
  unfold Overlay.chosenHostname? hostRefused?
  cases Value.get? config Overlay.hostnameKey with
  | none => rfl
  | some v =>
      simp only [Option.map_some]
      cases v.bare with
      | str s =>
          simp only
          split <;> rfl
      | _ => rfl

/-- Why a login is refused: its port has no text. -/
def portRefused? (c : Credentials) : Option Failure :=
  if c.writable then none else some (.breach .range)

/-- Why the overlay of a component is refused: for the hostname of the route, or the port of the
registry's database. -/
def overlayRefused? (settings : Settings) (config : Entries) : Component → Option Failure
  | .route => hostRefused? config
  | .postgres => portRefused? settings.registry
  | _ => none

/-- Why the configuration of a component's service is refused: for the port
of the scanner's database. -/
def serviceRefused? (settings : Settings) : Component → Option Failure
  | .clair => portRefused? settings.scanner
  | _ => none

/-- Why a component is refused. -/
def unrendered? (settings : Settings) (config : Entries) (c : Component) : Option Failure :=
  (overlayRefused? settings config c).or (serviceRefused? settings c)

/-- **The overlay of a component.** -/
theorem failure?_render (settings : Settings) (d : Descriptor) (config : Entries) (c : Component)
    (s : Session) :
    failure? ((Overlay.render settings d config c).perform s).1 =
      overlayRefused? settings config c := by
  have hrendered : ∀ g, FieldGroup.synthesize settings d c = .ok (some g) →
      (∀ t, ∃ g' t', (Overlay.withChoices config g).perform t = (.ok g', t')) →
      failure? ((Overlay.render settings d config c).perform s).1 = none := by
    intro g hg hchoices
    obtain ⟨files, s', h⟩ := Overlay.render_of_choices hg hchoices s
    rw [h]
    rfl
  cases c with
  | clair => exact hrendered _ (FieldGroup.synthesize_of_ne settings d (by decide)) fun t =>
      ⟨_, t, rfl⟩
  | redis => exact hrendered _ (FieldGroup.synthesize_of_ne settings d (by decide)) fun t =>
      ⟨_, t, rfl⟩
  | objectStorage => exact hrendered _ (FieldGroup.synthesize_of_ne settings d (by decide)) fun t =>
      ⟨_, t, rfl⟩
  | podAutoscaler => rfl
  | postgres =>
      rw [overlayRefused?, portRefused?]
      split
      · next h => exact hrendered _ (FieldGroup.synthesize_of_writable h d .postgres) fun t =>
          ⟨_, t, rfl⟩
      · next h =>
          rw [Overlay.render, FieldGroup.synthesize, if_pos ⟨rfl, h⟩]
          rfl
  | route =>
      have hg := FieldGroup.synthesize_of_ne settings d (c := .route) (by decide)
      rw [overlayRefused?, ← failure?_chosenHostname?]
      cases hchosen : Overlay.chosenHostname? config with
      | ok chosen =>
          obtain ⟨files, s', h⟩ := Overlay.render_of_synthesize hg hchosen s
          rw [h]
          rfl
      | error f =>
          rw [Overlay.render, hg, perform_bind_of_ok (perform_ofExcept _ _), perform_report_bind]
          simp only [FieldGroup.ofComponent]
          rw [Overlay.withChoices, hchosen]
          rfl

/-- **The configuration of a component's service.** -/
theorem failure?_build (settings : Settings) (d : Descriptor) (c : Component) (s : Session) :
    failure? ((ScannerConfig.build settings d c).perform s).1 = serviceRefused? settings c := by
  cases c with
  | clair =>
      have hpage : failure? (ScannerConfig.page d settings) = portRefused? settings.scanner := by
        rw [ScannerConfig.page, portRefused?]
        split
        · obtain ⟨page, hpage⟩ := Document.encode_of_not_holds
            (v := ScannerConfig.document d settings.scannerLogLevel (settings.scanner.connection d))
              rfl rfl
          rw [hpage]
          rfl
        · rfl
      rw [ScannerConfig.build, perform_report_bind, failure?_bind_of_none fun content t => rfl,
        perform_ofExcept]
      exact hpage
  | _ => rfl

/-- **One component.** -/
theorem failure?_addComponent (settings : Settings) (r : Request) (made : Artifacts) (c : Component)
    (s : Session) :
    failure? ((addComponent settings r made c).perform s).1 = unrendered? settings r.config c := by
  rw [addComponent, failure?_bind fun overlay t _ => ?_, failure?_render, unrendered?]
  rw [failure?_bind_of_none fun service u => rfl]
  exact failure?_build settings r.descriptor c t

/-! ## A pass -/

/-- **What refuses a pass**, the first of: a component that is not known; a managed key that
is no text, the secret key first; an object that no document can hold; and of the components
one that is not rendered. -/
def refusal? (settings : Settings) (r : Request) : Option Failure :=
  (r.components.findSome? Component.unnamed?).or <|
    (SecretKey.managedKeys.findSome? (misgiven? r.config)).or <|
      (if hasForeign r.config then some (.unwritable "dict") else none).or <|
        (r.components.filterMap Component.named?).findSome? (unrendered? settings r.config)

/-- **The steps from the keys on**, without a certificate. -/
theorem failure?_finish (hlong : (Value.map r.config).holds Value.isLong = false)
    (hissue : r.issueCertificate = false)
    (kinds : List Component) (keys : SecretKey.ResolvedPair) :
    failure? ((finish settings now r kinds keys).perform s).1 =
      (if hasForeign r.config then some (.unwritable "dict") else none).or
        (kinds.findSome? (unrendered? settings r.config)) := by
  have hlast : ∀ (message : String) (made : Artifacts) (t : Session), failure? ((do
      let certificate ← certificate? settings now r kinds
      Action.report .info .pass message
      return { made with certificate := certificate } : Action Artifacts).perform t).1 = none := by
    intro message made t
    rw [certificate?, hissue]
    rfl
  rw [finish, failure?_ofExcept_bind _ fun base _ => ?_, failure?_encode hlong]
  rw [failure?_bind_of_none fun made => hlast _ made]
  exact failure?_foldlM (failure?_addComponent settings r) kinds (start keys base) s

/-- **All steps.** -/
theorem failure?_run (hfaithful : s.random.source.Faithful)
    (hlegible : ∀ t, r.snapshot = some t → t.Legible)
    (hlong : (Value.map r.config).holds Value.isLong = false)
    (hissue : r.issueCertificate = false) :
    failure? ((run settings now r).perform s).1 = refusal? settings r := by
  have hparse : failure? (r.components.mapM Component.parse) =
      r.components.findSome? Component.unnamed? := by
    rw [failure?_mapM]
    exact congrArg (r.components.findSome? ·) (funext Component.failure?_parse)
  have hpair : SecretKey.PairResolution r.descriptor (80 : Nat) r.config r.snapshot s.random _ _
      _ :=
    SecretKey.pairResolution r.descriptor SecretKey.usualLength r.config r.snapshot s
  rw [run_eq, failure?_ofExcept_bind _ fun kinds hkinds => ?_, hparse, refusal?]
  rw [failure?_bind fun keys t _ => failure?_finish hlong hissue kinds keys,
    Component.filterMap_named? hkinds]
  exact congrArg (Option.or · _) (hpair.failure?_eq hfaithful hlegible)

/-- **A pass without a certificate fails exactly if something refuses it**, and then for
the first reason that there is. A component that is not known is reported before
anything is drawn or logged. -/
theorem run_error_iff (hfaithful : s.random.source.Faithful)
    (hlegible : ∀ t, r.snapshot = some t → t.Legible)
    (hlong : (Value.map r.config).holds Value.isLong = false)
    (hissue : r.issueCertificate = false) :
    (∀ f, ((run settings now r).perform s).1 = .error f ↔ refusal? settings r = some f) ∧
      ∀ f, r.components.findSome? Component.unnamed? = some f →
        (run settings now r).perform s = (.error f, s) := by
  refine ⟨fun f => ?_, fun f h => ?_⟩
  · rw [← failure?_eq_some_iff, failure?_run hfaithful hlegible hlong hissue]
  · rw [← funext Component.failure?_parse, ← failure?_mapM, failure?_eq_some_iff] at h
    rw [run_eq, h]
    rfl

/-- A pass that nothing refuses succeeds. -/
theorem run_succeeds (hfaithful : s.random.source.Faithful)
    (hlegible : ∀ t, r.snapshot = some t → t.Legible)
    (hlong : (Value.map r.config).holds Value.isLong = false) (hissue : r.issueCertificate = false)
    (h : refusal? settings r = none) :
      ∃ made s', (run settings now r).perform s = (.ok made, s') := by
  have hnone : failure? ((run settings now r).perform s).1 = refusal? settings r :=
    failure?_run hfaithful hlegible hlong hissue
  rw [h] at hnone
  generalize (run settings now r).perform s = last at hnone
  obtain ⟨f | made, s'⟩ := last
  · contradiction
  · exact ⟨made, s', rfl⟩

/-- A pass over a route for which the user gives a number as its hostname. -/
def numberedRequest : Request :=
  { descriptor := { name := "r" }, config := [(.str Overlay.hostnameKey, .int 3)]
    components := [.str Component.route.name], issueCertificate := false }

/-- It fails for that. -/
theorem run_error_iff_numbered :
    RandomSource.zeros.Faithful ∧ (Value.map numberedRequest.config).holds Value.isLong = false ∧
      ((run {} noon numberedRequest).perform .fresh).1 =
        .error (.malformedUserValue "SERVER_HOSTNAME" (.notText "int")) := by
  have hfaithful : RandomSource.zeros.Faithful := fun _ _ => rfl
  have hlong : (Value.map numberedRequest.config).holds Value.isLong = false := by decide
  have hlegible : ∀ t, numberedRequest.snapshot = some t → t.Legible := fun _ h => nomatch h
  refine ⟨hfaithful, hlong, ?_⟩
  exact ((run_error_iff (s := .fresh) hfaithful hlegible hlong rfl).1 _).mpr rfl

/-- A pass over components for which the user gives both keys. -/
def keyedRequest (components : List Value) : Request :=
  { descriptor := { name := "r" }, components := components, issueCertificate := false
    config := [(.str ManagedKey.secret.name, .str "s"), (.str ManagedKey.database.name, .str "d")] }

/-- **A number that is too long refuses a pass** where the user's configuration is not at fault: as
the port of the registry's database if that is a component, and as the name of a component, which is
then not reported as unknown. -/
theorem run_refused_for_number :
    RandomSource.zeros.Faithful ∧
      (∀ components, (Value.map (keyedRequest components).config).holds Value.isLong = false ∧
        (∀ k, misgiven? (keyedRequest components).config k = none) ∧
        hasForeign (keyedRequest components).config = false ∧
          hostRefused? (keyedRequest components).config = none) ∧
      (∀ v ∈ [Value.str "postgres"], Component.unnamed? v = none) ∧
      ((run { registry := { port := longNumber } } noon (keyedRequest [.str "postgres"])).perform
        .fresh).1 = .error (.breach .range) ∧
      ((run {} noon (keyedRequest [.int longNumber])).perform .fresh).1 =
        .error (.breach .range) := by
  have hfaithful : RandomSource.zeros.Faithful := fun _ _ => rfl
  have hconfig : ∀ components, (Value.map (keyedRequest components).config).holds Value.isLong =
    false ∧
      (∀ k, misgiven? (keyedRequest components).config k = none) ∧
      hasForeign (keyedRequest components).config = false ∧
        hostRefused? (keyedRequest components).config = none :=
    fun _ => ⟨rfl, fun k => by cases k <;> rfl, rfl, rfl⟩
  have hrun : ∀ settings components f, refusal? settings (keyedRequest components) = some f →
      ((run settings noon (keyedRequest components)).perform .fresh).1 = .error f := by
    intro settings components f h
    rw [← failure?_eq_some_iff, failure?_run (s := .fresh) hfaithful
      (fun t (ht : none = some t) => nomatch ht) rfl rfl]
    exact h
  refine ⟨hfaithful, hconfig, ?_, hrun _ _ _ ?_, hrun _ _ _ ?_⟩
  · intro v hv
    rw [List.mem_singleton.mp hv]
    rfl
  · have hpostgres : ∀ settings, refusal? settings (keyedRequest [.str "postgres"]) =
        portRefused? settings.registry := by
      intro settings
      change [Component.postgres].findSome? (unrendered? settings _) = _
      rw [List.findSome?_singleton, unrendered?]
      exact Option.or_none
    rw [hpostgres, portRefused?, Credentials.writable, intText?_longNumber]
    rfl
  · have htext : (.int longNumber : Value).text? = none := by
      change (intText? longNumber).map String.ofList = none
      rw [intText?_longNumber]
      rfl
    rw [refusal?, keyedRequest, List.findSome?_cons, Component.unnamed?, Component.refusedName,
      htext]
    rfl

end Pass

end RegistryBundle
