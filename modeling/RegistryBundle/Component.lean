import RegistryBundle.Failure

/-!
# Components

The backing services that are managed beside the registry.

* `Component.parse` finds a component by its name, `Component.ofName?_name` says
  that every one is found.
-/

namespace RegistryBundle

/-- A backing service. -/
inductive Component where
  | clair
  | redis
  | postgres
  | objectStorage
  | route
  | podAutoscaler
deriving DecidableEq, Repr

namespace Component

/-- The name of a component. -/
def name : Component → String
  | clair => "clair"
  | redis => "redis"
  | postgres => "postgres"
  | objectStorage => "objectstorage"
  | route => "route"
  | podAutoscaler => "horizontalpodautoscaler"

/-- All components, in the order in which they are rendered by default. -/
def all : List Component :=
  [clair, redis, postgres, objectStorage, route, podAutoscaler]

/-- The component of a name. -/
def ofName? (s : String) : Option Component :=
  all.find? fun c => c.name == s

/-- The component that a value names. -/
def parse (v : Value) : Except Failure Component :=
  let found := match v.bare with
    | .str s => ofName? s
    | _ => none
  match found with
  | some c => .ok c
  | none =>
    match v.text? with
    | some shown => .error (.unknownComponent shown)
    | none => .error (.breach .range)

/-- The name of the file that holds a component's overlay. -/
def configFile (c : Component) : String :=
  c.name ++ ".config.yaml"

/-- Every component is found by its name. -/
theorem ofName?_name (c : Component) : ofName? c.name = some c := by
  cases c <;> rfl

/-- Every component is among all. -/
theorem mem_all (c : Component) : c ∈ all := by
  cases c <;> decide

/-- A component is found only by its own name. -/
theorem ofName?_eq_some_iff (s : String) (c : Component) : ofName? s = some c ↔ s = c.name := by
  constructor
  · intro h
    have h' := List.find?_some h
    exact (eq_of_beq h').symm
  · rintro rfl
    exact ofName?_name c

end Component

end RegistryBundle
