import RegistryBundle.Proofs.Pass.Run

/-!
# What the user chooses

Beside the base document a pass looks at three keys of the user's configuration: the two managed
keys, and the hostname, which is for the overlay of the route only.

* `SecretKey.resolvePair_congr` says so of the keys;
* `Overlay.render_congr` and `Overlay.render_of_ne_route` say so of an overlay;
* `Pass.finish_congr` says so of a pass from its keys on, `Pass.run_congr` of a whole pass.
-/

namespace RegistryBundle

variable {config config' : Entries}

namespace SecretKey

/-- **One key** depends on what stands under its name. -/
theorem resolve_congr {name : String} (h : provided? config' name = provided? config name)
    (d : Descriptor)
    (length : Int) (snapshot : Option Snapshot) :
    resolve d length config' snapshot name = resolve d length config snapshot name := by
  unfold resolve
  rw [h]

/-- **Both keys** depend on what stands under their names. -/
theorem resolvePair_congr (h : ∀ k : ManagedKey, provided? config' k.name = provided? config k.name)
    (d : Descriptor)
    (length : Int) (snapshot : Option Snapshot) :
    resolvePair d length config' snapshot = resolvePair d length config snapshot := by
  unfold resolvePair
  rw [resolve_congr (h .secret)]
  apply bind_congr
  intro first
  rw [resolve_congr (h .database)]

end SecretKey

namespace Overlay

private theorem withChoices_congr (h : chosenHostname? config' = chosenHostname? config)
    (g : FieldGroup) :
    withChoices config' g = withChoices config g := by
  cases g with
  | host g =>
      unfold withChoices
      simp only
      rw [h]
  | _ => rfl

/-- **An overlay** depends on the hostname that the user chooses. -/
theorem render_congr (h : chosenHostname? config' = chosenHostname? config) (settings : Settings)
    (d : Descriptor)
    (c : Component) : render settings d config' c = render settings d config c := by
  unfold render
  apply bind_congr
  intro group
  apply bind_congr
  intro _
  cases group with
  | none => rfl
  | some g =>
      simp only
      rw [withChoices_congr h]

/-- Only the route has a group with a hostname. -/
theorem eq_route_of_synthesize {settings : Settings} {d : Descriptor} {c : Component}
    {g : HostGroup}
    (h : FieldGroup.synthesize settings d c = .ok (some (.host g))) : c = .route := by
  unfold FieldGroup.synthesize at h
  split at h
  · contradiction
  · have hgroup := Except.ok.inj h
    cases c with
    | route => rfl
    | clair | redis | postgres | objectStorage | podAutoscaler => cases hgroup

/-- **The overlay of any other component** depends on nothing that the user chooses. -/
theorem render_of_ne_route {c : Component} (hc : c ≠ .route) (settings : Settings) (d : Descriptor)
    (config config' : Entries) : render settings d config' c = render settings d config c := by
  unfold render
  cases hgroup : FieldGroup.synthesize settings d c with
  | error e => rfl
  | ok group =>
      cases group with
      | none => rfl
      | some g =>
          cases g with
          | host g => exact absurd (eq_route_of_synthesize hgroup) hc
          | scanner | redis | database | storage => rfl

private theorem routeHostname_congr (h : chosenHostname? config' = chosenHostname? config)
    (settings : Settings)
    (d : Descriptor) : routeHostname settings d config' = routeHostname settings d config := by
  unfold routeHostname
  rw [render_congr h]

end Overlay

namespace Pass

variable {settings : Settings} {now : Moment} {r : Request}

/-- **From its keys on** a pass depends on its base document and on the
hostname that the user chooses. -/
theorem finish_congr {keys : SecretKey.ResolvedPair}
    (hhost : Overlay.chosenHostname? config = Overlay.chosenHostname? r.config)
    (hbase : Document.encode (.map (document config keys.secret keys.database)) =
      Document.encode (.map (document r.config keys.secret keys.database))) (kinds :
        List Component) :
    finish settings now { r with config := config } kinds keys =
      finish settings now r kinds keys := by
  have hadd : addComponent settings { r with config := config } = addComponent settings r := by
    funext made c
    unfold addComponent
    rw [Overlay.render_congr hhost]
  have hcertificate : certificate? settings now { r with config := config } kinds =
      certificate? settings now r kinds := by
    unfold certificate? certify
    rw [Overlay.routeHostname_congr hhost]
  unfold finish
  rw [hbase, hadd, hcertificate]

/-- **A pass** depends on what stands under the managed keys, on the hostname that the user chooses
and on the base document with the keys that it finds. -/
theorem run_congr (hkeys : ∀ k : ManagedKey, SecretKey.provided? config k.name =
    SecretKey.provided? r.config k.name)
    (hhost : Overlay.chosenHostname? config = Overlay.chosenHostname? r.config)
    (hbase : ∀ secretKey databaseKey,
      Document.encode (.map (document config secretKey databaseKey)) =
      Document.encode (.map (document r.config secretKey databaseKey))) :
    run settings now { r with config := config } = run settings now r := by
  rw [run_eq, run_eq]
  apply bind_congr
  intro kinds
  rw [SecretKey.resolvePair_congr hkeys]
  apply bind_congr
  intro keys
  exact finish_congr hhost (hbase keys.secret keys.database) kinds

end Pass

end RegistryBundle
