import RegistryBundle.Proofs.Pass.Choices
import RegistryBundle.Proofs.Pass.Refusals
import RegistryBundle.Proofs.Run.Steady
import RegistryBundle.Proofs.Value.Overlaid

/-!
# The overlays of a pass

A pass writes the overlays that its components have by themselves, whatever else it is asked: each
component is given only what is for it, and neither the order of the components nor their repetition
makes a difference.

* `Overlay.scope` is the part of the user's configuration that is for a component;
* `Overlay.IsUnion` says that a table holds the overlays of some components and nothing else,
  `Overlay.isUnion_foldlM` that it comes about by rendering them;
* `ScannerConfig.AreServices` and `Pass.areServices_foldlM` say the same of the
  scanner's own configuration;
* `Pass.gives_of_foldlM` compares the two ways of rendering several components;
* `Pass.overlays_of_run` is the main statement.
-/

namespace RegistryBundle

open RegistryBundle.Action

variable {settings : Settings} {d : Descriptor} {config config' : Entries} {c : Component}
  {s s' : Session}

/-! ## Overlays of single components -/

namespace Overlay

private theorem steady_withChoices (config : Entries) (g : FieldGroup) :
    Steady (withChoices config g) := by
  cases g with
  | host h =>
      apply (steady_ofExcept _).bind
      intro chosen
      cases chosen with
      | none => exact steady_pure _
      | some name => exact (steady_report _ _ _).bind fun _ => steady_pure _
  | _ => exact steady_pure _

/-- **An overlay** is rendered alike in every session. -/
theorem steady_render (settings : Settings) (d : Descriptor) (config : Entries) (c : Component) :
    Steady (render settings d config c) := by
  refine (steady_ofExcept _).bind fun group => (steady_report _ _ _).bind fun _ => ?_
  cases group with
  | none => exact (steady_report _ _ _).bind fun _ => steady_pure _
  | some g => exact (steady_withChoices config g).bind fun _ => (steady_ofExcept _).bind fun _ =>
      steady_pure _

/-- The part of the user's configuration that is for a component: the hostname for the route,
nothing for any other. -/
def scope (config : Entries) : Component → Entries
  | .route => config.filter fun e => e.1.sameKey (.str hostnameKey)
  | _ => []

/-- A component is rendered from the part that is for it. -/
theorem render_scope (settings : Settings) (d : Descriptor) (config : Entries) (c : Component) :
    render settings d (scope config c) c = render settings d config c := by
  cases c with
  | route =>
      have hget : Value.get? (scope config .route) hostnameKey = Value.get? config hostnameKey :=
        Value.get?_filter config hostnameKey
      apply render_congr
      rw [chosenHostname?, hget, chosenHostname?]
  | clair | redis | postgres | objectStorage | podAutoscaler =>
      exact render_of_ne_route (by decide) settings d _ _

/-- A component has one file of its own, or none. -/
theorem render_cases {files : Table String}
    (h : (render settings d config c).perform s = (.ok files, s')) :
    files = [] ∨ ∃ page, files = [(c.configFile, page)] := by
  obtain ⟨group, -, hfiles⟩ := render_ok h
  cases group with
  | none => exact .inl hfiles
  | some g =>
      obtain ⟨_, _, _, page, -, -, rfl⟩ := hfiles
      exact .inr ⟨page, rfl⟩

end Overlay

/-- Components have different files. -/
theorem Component.configFile_injective {c c' : Component} (h : c.configFile = c'.configFile) :
    c = c' := by
  have hname : c.name = c'.name := by
    simpa [configFile] using h
  have hfound := ofName?_name c
  rw [hname, ofName?_name] at hfound
  exact (Option.some.inj hfound).symm

/-! ## Overlays of several components -/

namespace Overlay

/-- A table holds the overlays of some components, each rendered from the part of the user's
configuration that is for it, and nothing else. -/
structure IsUnion (settings : Settings) (d : Descriptor) (config : Entries)
    (listed : Component → Prop)
    (files : Table String) : Prop where
  rendered : ∀ c, listed c → ∃ own, Gives (render settings d (scope config c) c) own
  lookup_iff : ∀ name page, files.lookup name = some page ↔
    ∃ c, listed c ∧ ∃ own, Gives (render settings d (scope config c) c) own ∧
      own.lookup name = some page

variable {listed : Component → Prop} {files own : Table String}

private theorem isUnion_nil : IsUnion settings d config (fun _ => False) [] where
  rendered _ h := h.elim
  lookup_iff name page := by simp

/-- What a component gives by itself it gives under its own name. -/
theorem eq_configFile_of_lookup (h : Gives (render settings d config c) own) {name page : String}
    (hown : own.lookup name = some page) : name = c.configFile := by
  obtain ⟨t, ht⟩ := h.exists_perform .fresh
  obtain rfl | ⟨written, rfl⟩ := render_cases ht
  · contradiction
  · by_cases hname : name = c.configFile
    · exact hname
    · have hother : (name == c.configFile) = false := beq_eq_false_iff_ne.mpr hname
      simp [List.lookup_cons, hother] at hown

/-- A table with the overlay of a component holds that overlay, and what
it held under other names. -/
theorem lookup_update_iff (h : Gives (render settings d config c) own) {name page : String} :
    (Table.update files own).lookup name = some page ↔
      own.lookup name = some page ∨ own.lookup name = none ∧ files.lookup name = some page := by
  obtain ⟨t, ht⟩ := h.exists_perform .fresh
  obtain rfl | ⟨written, rfl⟩ := render_cases ht
  · simp [Table.update]
  · have hput : Table.update files [(c.configFile, written)] =
      Table.put c.configFile written files := rfl
    rw [hput]
    by_cases hname : name = c.configFile
    · subst hname
      simp [Table.lookup_put_self]
    · have hother : (name == c.configFile) = false := beq_eq_false_iff_ne.mpr hname
      rw [Table.lookup_put_other (Ne.symm hname)]
      simp [List.lookup_cons, hother]

/-- **One component more**, listed before or not. -/
theorem IsUnion.update (hfiles : IsUnion settings d config listed files)
    (h : Gives (render settings d (scope config c) c) own) :
    IsUnion settings d config (fun c' => c' = c ∨ listed c') (Table.update files own) where
  rendered := by
    rintro c' (rfl | hc')
    · exact ⟨own, h⟩
    · exact hfiles.rendered c' hc'
  lookup_iff := by
    intro name page
    rw [lookup_update_iff h, hfiles.lookup_iff]
    constructor
    · rintro (hown | ⟨-, c', hc', hparts⟩)
      · exact ⟨c, .inl rfl, own, h, hown⟩
      · exact ⟨c', .inr hc', hparts⟩
    · rintro ⟨c', rfl | hc', own', h', hown'⟩
      · rw [h.unique h']
        exact .inl hown'
      · by_cases hsame : c' = c
        · subst hsame
          rw [h.unique h']
          exact .inl hown'
        · -- Another component has another file, so the overlay that is written has none under this
          -- name.
          refine .inr ⟨?_, c', hc', own', h', hown'⟩
          rw [Option.eq_none_iff_forall_ne_some]
          intro written hwritten
          have hname := (eq_configFile_of_lookup h' hown').symm.trans
            (eq_configFile_of_lookup h hwritten)
          exact hsame (Component.configFile_injective hname)

/-- What stands where in such a table is known beforehand. -/
theorem IsUnion.lookup_eq {files' : Table String} (h : IsUnion settings d config listed files)
    (h' : IsUnion settings d config' listed files')
    (hhost : listed .route → Value.get? config' hostnameKey = Value.get? config hostnameKey)
    (name : String) :
    files'.lookup name = files.lookup name := by
  have hrender : ∀ c, listed c →
      render settings d (scope config' c) c = render settings d (scope config c) c := by
    intro c hc
    rw [render_scope, render_scope]
    by_cases hroute : c = .route
    · subst hroute
      apply render_congr
      rw [chosenHostname?, hhost hc, chosenHostname?]
    · exact render_of_ne_route hroute settings d config config'
  apply Option.ext
  intro page
  rw [h.lookup_iff, h'.lookup_iff]
  refine exists_congr fun c => and_congr_right fun hc => ?_
  rw [hrender c hc]

/-- The files so far with the overlay of one more component. -/
def addOverlay (settings : Settings) (d : Descriptor) (config : Entries) (files : Table String)
    (c : Component) :
    Action (Table String) := do
  return Table.update files (← render settings d config c)

/-- **All components** of a list, rendered one after another. -/
theorem isUnion_foldlM {kinds : List Component} {all : Table String}
    (hfiles : IsUnion settings d config listed files)
    (h : (kinds.foldlM (addOverlay settings d config) files).perform s = (.ok all, s')) :
    IsUnion settings d config (fun c => c ∈ kinds ∨ listed c) all := by
  refine perform_foldlM_listed (P := IsUnion settings d config) ?_ hfiles h
  intro listed files later c s s' hfiles hadd
  obtain ⟨own, _, hown, hupdate⟩ := perform_bind_ok.mp hadd
  obtain ⟨rfl, -⟩ := perform_pure_ok hupdate
  apply hfiles.update
  rw [render_scope]
  exact (steady_render settings d config c).gives hown

/-- Components that are named by values are rendered as they are. -/
private theorem renderAll_eq {values : List Value} {kinds : List Component}
    (h : values.mapM Component.parse = .ok kinds)
    (settings : Settings) (d : Descriptor) (config : Entries) :
    renderAll settings d config values = kinds.foldlM (addOverlay settings d config) [] := by
  have hfold : ∀ files : Table String, values.foldlM (fun files kind => do
      let c ← Action.ofExcept (Component.parse kind)
      return Table.update files (← render settings d config c)) files =
      kinds.foldlM (addOverlay settings d config) files := by
    induction values generalizing kinds with
    | nil =>
        obtain rfl := Except.ok.inj h
        exact fun _ => rfl
    | cons v rest ih =>
        intro files
        rw [List.mapM_cons] at h
        obtain ⟨c, hc, h⟩ := Outcome.bind_eq_ok.mp h
        obtain ⟨others, hothers, h⟩ := Outcome.bind_eq_ok.mp h
        obtain rfl := Except.ok.inj h
        rw [List.foldlM_cons, List.foldlM_cons, hc]
        apply bind_congr
        intro next
        exact ih hothers next
  exact hfold []

end Overlay

/-! ## Services -/

namespace ScannerConfig

theorem steady_build (settings : Settings) (d : Descriptor) (c : Component) :
    Steady (build settings d c) := by
  cases c with
  | clair => exact (steady_report _ _ _).bind fun _ => (steady_ofExcept _).bind fun _ =>
      steady_pure _
  | _ => exact steady_pure _

/-- The service files of some components: the scanner's page if the scanner is
among them, and no other. -/
structure AreServices (settings : Settings) (d : Descriptor) (listed : Component → Prop)
    (files : List (Component × Table String)) : Prop where
  scanner : listed .clair → ∃ content, page d settings = .ok content ∧
    files = [(.clair, [(fileName, content)])]
  others : ¬ listed .clair → files = []

variable {listed : Component → Prop} {files : List (Component × Table String)}
  {file : Option (String × String)}

private theorem areServices_nil : AreServices settings d (fun _ => False) [] where
  scanner h := h.elim
  others _ := rfl

/-- **One component more**, listed before or not. -/
theorem AreServices.add (hfiles : AreServices settings d listed files)
    (h : (build settings d c).perform s = (.ok file, s')) :
    AreServices settings d (fun c' => c' = c ∨ listed c') (addService c file files) := by
  obtain ⟨rfl, content, hcontent, rfl⟩ | ⟨hne, rfl⟩ := build_ok h
  · refine ⟨fun _ => ⟨content, hcontent, ?_⟩, fun hnone => absurd (.inl rfl) hnone⟩
    by_cases hlisted : listed .clair
    · obtain ⟨written, -, rfl⟩ := hfiles.scanner hlisted
      rfl
    · obtain rfl := hfiles.others hlisted
      rfl
  · constructor
    · rintro (heq | hlisted)
      · exact absurd heq.symm hne
      · exact hfiles.scanner hlisted
    · intro hnone
      exact hfiles.others fun hlisted => hnone (.inr hlisted)

/-- The services are known beforehand. -/
theorem AreServices.unique {files' : List (Component × Table String)}
    (h : AreServices settings d listed files)
    (h' : AreServices settings d listed files') : files' = files := by
  by_cases hlisted : listed .clair
  · obtain ⟨content, hcontent, rfl⟩ := h.scanner hlisted
    obtain ⟨content', hcontent', rfl⟩ := h'.scanner hlisted
    obtain rfl := Except.ok.inj (hcontent.symm.trans hcontent')
    rfl
  · rw [h.others hlisted, h'.others hlisted]

end ScannerConfig

/-! ## A pass -/

/-- The files of a pass beside the base document. -/
def Artifacts.overlays (made : Artifacts) : Table String :=
  Table.erase Pass.baseFile made.configFiles

/-- Entries under other names are written behind the first one. -/
theorem Table.update_cons {name : String} {a : String} {t files : Table String}
    (h : ∀ f ∈ files, f.1 ≠ name) :
    Table.update ((name, a) :: t) files = (name, a) :: Table.update t files := by
  induction files generalizing t with
  | nil => rfl
  | cons f rest ih =>
      have hput : Table.put f.1 f.2 ((name, a) :: t) = (name, a) :: Table.put f.1 f.2 t :=
        if_neg (Ne.symm (h f List.mem_cons_self))
      rw [Table.update, List.foldl_cons, hput]
      exact ih fun g hg => h g (List.mem_cons_of_mem f hg)

namespace Pass

variable {now : Moment} {r : Request} {kinds : List Component} {made later : Artifacts}
  {base : String}

/-- A request lists a component by one of its names. -/
def Request.Lists (r : Request) (c : Component) : Prop :=
  ∃ v ∈ r.components, Component.parse v = .ok c

/-- **All components** of a pass: behind the base document stands what
rendering them alone gives. -/
theorem gives_of_foldlM {files : Table String}
    (hmade : made.configFiles = (baseFile, base) :: files)
    (h : (kinds.foldlM (addComponent settings r) made).perform s = (.ok later, s')) :
    ∃ all, later.configFiles = (baseFile, base) :: all ∧
      Gives (kinds.foldlM (Overlay.addOverlay settings r.descriptor r.config) files) all := by
  induction kinds generalizing made files s with
  | nil =>
      obtain ⟨rfl, -⟩ := perform_pure_ok h
      exact ⟨files, hmade, gives_pure files⟩
  | cons c rest ih =>
      rw [List.foldlM_cons] at h
      obtain ⟨next, t, hadd, h⟩ := perform_bind_ok.mp h
      obtain ⟨overlay, file, _, hoverlay, -, rfl⟩ := addComponent_ok hadd
      have hnames : ∀ f ∈ overlay, f.1 ≠ baseFile := by
        intro f hf
        rw [mem_overlay hoverlay f hf]
        exact c.configFile_ne_baseFile
      have hconfig : Table.update made.configFiles overlay =
          (baseFile, base) :: Table.update files overlay := by
        rw [hmade, Table.update_cons hnames]
      obtain ⟨all, hall, hgives⟩ := ih hconfig h
      refine ⟨all, hall, ?_⟩
      rw [List.foldlM_cons]
      have hrender := (Overlay.steady_render settings r.descriptor r.config c).gives hoverlay
      exact (hrender.bind (gives_pure (Table.update files overlay))).bind hgives

/-- **All components** of a pass have the services that they should. -/
theorem areServices_foldlM {listed : Component → Prop}
    (hmade : ScannerConfig.AreServices settings r.descriptor listed made.serviceFiles)
    (h : (kinds.foldlM (addComponent settings r) made).perform s = (.ok later, s')) :
    ScannerConfig.AreServices settings r.descriptor
      (fun c => c ∈ kinds ∨ listed c) later.serviceFiles := by
  refine perform_foldlM_listed (P := fun listed made =>
    ScannerConfig.AreServices settings r.descriptor listed (Artifacts.serviceFiles made)) ?_ hmade h
  intro listed made later c s s' hmade hadd
  obtain ⟨_, _, _, -, hfile, rfl⟩ := addComponent_ok hadd
  exact hmade.add hfile

/-- What a pass makes of its components. -/
private theorem rendered_of_run (h : (run settings now r).perform s = (.ok made, s')) :
    Gives (Overlay.renderAll settings r.descriptor r.config r.components) made.overlays ∧
      Overlay.IsUnion settings r.descriptor r.config r.Lists made.overlays ∧
      ScannerConfig.AreServices settings r.descriptor r.Lists made.serviceFiles := by
  obtain ⟨kinds, keys, t, hkinds, -, hfinish⟩ := run_steps h
  obtain ⟨base, rendered, _, _, certificate, -, hrendered, -, rfl⟩ := finish_steps hfinish
  have hstart : (start keys base).configFiles = [(baseFile, base)] := rfl
  obtain ⟨all, hall, hgives⟩ := gives_of_foldlM hstart hrendered
  have hlists : (fun c => c ∈ kinds ∨ False) = r.Lists := by
    funext c
    rw [or_false, Outcome.mem_of_mapM_eq_ok hkinds, Request.Lists]
  obtain ⟨_, hperform⟩ := hgives.exists_perform .fresh
  have hunion := Overlay.isUnion_foldlM Overlay.isUnion_nil hperform
  have hnone : ScannerConfig.AreServices settings r.descriptor (fun _ => False)
      (start keys base).serviceFiles :=
    ScannerConfig.areServices_nil
  have hservices := areServices_foldlM hnone hrendered
  rw [hlists] at hunion hservices
  -- No overlay is written over the base document.
  have hbase : all.lookup baseFile = none := by
    rw [Option.eq_none_iff_forall_ne_some]
    intro page hpage
    obtain ⟨c, -, own, hown, hlookup⟩ := (hunion.lookup_iff _ _).mp hpage
    exact c.configFile_ne_baseFile (Overlay.eq_configFile_of_lookup hown hlookup).symm
  have hoverlays : Table.erase baseFile rendered.configFiles = all := by
    rw [hall, Table.erase, List.filter_cons_of_neg (by simp), List.filter_eq_self]
    intro f hf
    rw [bne_comm]
    exact List.lookup_eq_none_iff.mp hbase f hf
  rw [Artifacts.overlays, hoverlays, Overlay.renderAll_eq hkinds]
  exact ⟨hgives, hunion, hservices⟩

/-- **The overlays of a pass** are what rendering its list of components gives: the union of what
each listed component has by itself, from the part of the user's configuration that is for it;
and the scanner has its own configuration exactly if it is listed. So any other pass over the
same components, in any order and with any repetitions, with the same hostname for the route if
that is listed, has the same overlays and services, whatever else the user's configuration, the
snapshot and the octets are. -/
theorem overlays_of_run (h : (run settings now r).perform s = (.ok made, s')) :
    Gives (Overlay.renderAll settings r.descriptor r.config r.components) made.overlays ∧
      Overlay.IsUnion settings r.descriptor r.config r.Lists made.overlays ∧
      ScannerConfig.AreServices settings r.descriptor r.Lists made.serviceFiles ∧
      ∀ (now' : Moment) (r' : Request) (t t' : Session) (made' : Artifacts),
        (run settings now' r').perform t = (.ok made', t') → r'.descriptor = r.descriptor →
        (∀ c, r'.Lists c ↔ r.Lists c) →
        (r.Lists .route → Value.get? r'.config Overlay.hostnameKey =
          Value.get? r.config Overlay.hostnameKey) →
        (∀ name, made'.overlays.lookup name = made.overlays.lookup name) ∧
          made'.serviceFiles = made.serviceFiles := by
  obtain ⟨hgives, hunion, hservices⟩ := rendered_of_run h
  refine ⟨hgives, hunion, hservices, ?_⟩
  intro now' r' t t' made' h' hdescriptor hlists hhost
  obtain ⟨-, hunion', hservices'⟩ := rendered_of_run h'
  have hsame : r'.Lists = r.Lists := funext fun c => propext (hlists c)
  rw [hdescriptor, hsame] at hunion' hservices'
  exact ⟨hunion.lookup_eq hunion' hhost, hservices.unique hservices'⟩

/-- A request that lists the route twice, for which the user chooses a
hostname and something else. -/
def repeatingRequest : Request :=
  { descriptor := { name := "r" }, components := [.str "route", .str "clair",
    .str "route"], issueCertificate := false
    config := [(.str Overlay.hostnameKey, .str "h"), (.str "REGISTRY_TITLE", .str "t")] }

/-- A request that lists the same components once, in another order. -/
def turnedRequest : Request :=
  { descriptor := { name := "r" }, components := [.str "clair",
    .str "route"], issueCertificate := false
    config := [(.str Overlay.hostnameKey, .str "h")] }

/-- A session whose source delivers ones. -/
def ones : Session :=
  { random := { source := { octet _ := 1, reply _ size := .octets size.toNat } } }

/-- Passes over the two have the same overlays, and one service. -/
theorem overlays_of_run_twice :
    ∃ made made' s' t', (run {} noon repeatingRequest).perform .fresh = (.ok made, s') ∧
      (run {} noon turnedRequest).perform ones = (.ok made', t') ∧
      (∀ name, made'.overlays.lookup name = made.overlays.lookup name) ∧
        made'.serviceFiles = made.serviceFiles ∧
      ∃ content, made.serviceFiles = [(.clair, [(ScannerConfig.fileName, content)])] := by
  have hsucceeds : ∀ r ∈ [repeatingRequest, turnedRequest], ∀ s ∈ [Session.fresh, ones],
      ∃ made s', (run {} noon r).perform s = (.ok made, s') := by
    intro r hr s hs
    rcases List.mem_pair.mp hr with rfl | rfl <;> rcases List.mem_pair.mp hs with rfl | rfl <;>
      exact run_succeeds (fun _ _ => rfl) (fun t ht => nomatch ht) rfl rfl rfl
  obtain ⟨made, s', h⟩ := hsucceeds repeatingRequest (by simp) .fresh (by simp)
  obtain ⟨made', t', h'⟩ := hsucceeds turnedRequest (by simp) ones (by simp)
  obtain ⟨-, -, hservices, hagain⟩ := overlays_of_run h
  have hmem : ∀ v, v ∈ turnedRequest.components ↔ v ∈ repeatingRequest.components := by
    intro v
    simp only [turnedRequest, repeatingRequest, List.mem_cons, List.not_mem_nil, or_false]
    exact ⟨.inr, fun hv => hv.elim .inr id⟩
  have hlists : ∀ c, turnedRequest.Lists c ↔ repeatingRequest.Lists c :=
    fun c => exists_congr fun v => and_congr_left' (hmem v)
  obtain ⟨hoverlays, hsame⟩ := hagain noon turnedRequest ones t' made' h' rfl hlists fun _ => rfl
  have hclair : repeatingRequest.Lists .clair := ⟨.str "clair", by simp [repeatingRequest], rfl⟩
  obtain ⟨content, -, hcontent⟩ := hservices.scanner hclair
  exact ⟨made, made', s', t', h, h', hoverlays, hsame, content, hcontent⟩

end Pass

end RegistryBundle
