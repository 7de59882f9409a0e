import RegistryBundle.FieldGroup.Synthesis
import RegistryBundle.Run.Action

/-!
# Overlays

The overlay of a component is the page of its field group. The user may choose the hostname of the
route; nothing else of an overlay comes from the user's configuration.

* `Overlay.render` gives the file of one component, `Overlay.renderAll` those of several;
* `Overlay.routeHostname` is the hostname that the rendered route overlay holds.
-/

namespace RegistryBundle.Overlay

/-- The key under which the user chooses the hostname. -/
def hostnameKey : String := "SERVER_HOSTNAME"

/-- The hostname that the user chooses, which must be a text and not empty. -/
def chosenHostname? (config : Entries) : Except Failure (Option String) :=
  match Value.get? config hostnameKey with
  | none => .ok none
  | some v =>
    match v.bare with
    | .str s => if s = "" then .error (.malformedUserValue hostnameKey .empty) else .ok (some s)
    | v => .error (.malformedUserValue hostnameKey (.notText v.typeName))

/-- A group with the user's choices: the hostname of the route. -/
def withChoices (config : Entries) (g : FieldGroup) : Action FieldGroup :=
  match g with
  | .host h => do
    match ← Action.ofExcept (chosenHostname? config) with
    | some s =>
      Action.report .info .overlays s!"Using configured {hostnameKey} {s}"
      return .host { h with hostname := s }
    | none => return .host h
  | g => return g

/-- The overlay of a component: one file, or none for a component without a field group. -/
def render (settings : Settings) (d : Descriptor) (config : Entries) (c : Component) :
    Action (Table String) := do
  let group ← Action.ofExcept (FieldGroup.synthesize settings d c)
  Action.report .debug .fieldGroups s!"Synthesized {c.name} field group for {d.name}"
  match group with
  | none =>
    Action.report .debug .overlays s!"Component {c.name} has no configuration overlay"
    return []
  | some g =>
    let g ← withChoices config g
    let page ← Action.ofExcept g.encode
    return [(c.configFile, page)]

/-- The overlays of components, named by values, written into one table. -/
def renderAll (settings : Settings) (d : Descriptor) (config : Entries) (kinds : List Value) :
    Action (Table String) :=
  kinds.foldlM (fun files kind => do
    let c ← Action.ofExcept (Component.parse kind)
    return Table.update files (← render settings d config c)) []

/-- The hostname that a page of the route overlay holds. -/
def hostnameOfPage (page : String) : Except Failure String := do
  let v ← Document.decode page
  (HostGroup.ofValue v.plain).map HostGroup.hostname |>.orFail .invalid

/-- The hostname of the route: what its rendered overlay holds. -/
def routeHostname (settings : Settings) (d : Descriptor) (config : Entries) : Action String := do
  let files ← render settings d config .route
  match files.lookup Component.route.configFile with
  | some page => Action.ofExcept (hostnameOfPage page)
  | none => throw (.breach .key)

end RegistryBundle.Overlay
