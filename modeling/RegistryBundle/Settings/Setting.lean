import RegistryBundle.Settings.Conversion

/-!
# Settings before use

What a source says about a setting: a value, a group of settings by name, a recipe for a value that
is found only when all settings are known, or an order about the setting that was there before.

* `Setting.ofValue` takes a value as it is; `Setting.evaluate` gives the value back, recipes being
  cooked: `evaluate_ofValue_str`;
* `Setting.keyFor` finds the key of a group that a name means.
-/

namespace RegistryBundle

/-- How a recipe gives its value. -/
inductive Recipe.Method where
  /-- A text with fields to fill in. -/
  | template
  /-- The name of another setting. -/
  | reference
  /-- A script in a language of templates that is not at hand. -/
  | script
deriving DecidableEq, Repr

/-- How the value of a setting is found when all settings are known. -/
structure Recipe where
  method : Recipe.Method
  text : List Char
  conversion : Option Conversion := none
deriving DecidableEq, Repr

/-- What happens to the setting that was there before. -/
inductive Order where
  /-- The new setting takes its place. -/
  | reset
  | delete
  /-- The new setting is merged into it, in a list perhaps without the
  items that are there already. -/
  | merge (unique : Bool)
  /-- The new setting becomes an item of it. -/
  | insert (place : Int)
deriving DecidableEq, Repr

/-- A setting before use. -/
inductive Setting where
  /-- A value without parts. -/
  | value (v : Value)
  | list (items : List Setting)
  | group (entries : List (Value × Setting))
  | later (r : Recipe)
  | order (o : Order) (s : Setting)

instance : Inhabited Setting := ⟨.value .null⟩

namespace Setting

/-- The settings of a group, in the order they were made. -/
abbrev Group := List (Value × Setting)

/-- A text as a setting. -/
def text (cs : List Char) : Setting :=
  .value (.str (String.ofList cs))

mutual

/-- A value as a setting. -/
def ofValue : Value → Setting
  | .list items => .list (ofItems items)
  | .map entries => .group (ofEntries entries)
  | .shared _ v => ofValue v
  | v => .value v

/-- Each item as a setting. -/
def ofItems : List Value → List Setting
  | [] => []
  | v :: rest => ofValue v :: ofItems rest

/-- Each entry with its value as a setting. -/
def ofEntries : List (Value × Value) → Group
  | [] => []
  | (k, v) :: rest => (k, ofValue v) :: ofEntries rest

end

mutual

/-- The value of a setting; an order that found nothing to act on is an
object that no document holds. -/
def evaluate (cook : Recipe → Except ε Value) : Setting → Except ε Value
  | .value v => .ok v
  | .list items => (evaluateItems cook items).map .list
  | .group entries => (evaluateGroup cook entries).map .map
  | .later r => cook r
  | .order _ _ => .ok .foreign

/-- The value of each item. -/
def evaluateItems (cook : Recipe → Except ε Value) : List Setting → Except ε (List Value)
  | [] => .ok []
  | s :: rest => do
    let v ← evaluate cook s
    let vs ← evaluateItems cook rest
    return v :: vs

/-- The value under each key. -/
def evaluateGroup (cook : Recipe → Except ε Value) : List (Value × Setting) → Except ε Entries
  | [] => .ok []
  | (k, s) :: rest => do
    let v ← evaluate cook s
    let vs ← evaluateGroup cook rest
    return (k, v) :: vs

end

mutual

/-- How many recipes a setting holds. -/
def recipes : Setting → Nat
  | .value _ => 0
  | .list items => recipesOfItems items
  | .group entries => recipesOfGroup entries
  | .later _ => 1
  | .order _ s => recipes s

/-- How many recipes items hold. -/
def recipesOfItems : List Setting → Nat
  | [] => 0
  | s :: rest => recipes s + recipesOfItems rest

/-- How many recipes a group holds. -/
def recipesOfGroup : List (Value × Setting) → Nat
  | [] => 0
  | (_, s) :: rest => recipes s + recipesOfGroup rest

end

/-- A setting counts as true unless it is null, false, zero or empty. -/
def truthy : Setting → Bool
  | .value v => v.truthy
  | .list items => !items.isEmpty
  | .group entries => !entries.isEmpty
  | _ => true

/-- Whether a setting is null. -/
def isNull : Setting → Bool
  | .value .null => true
  | _ => false

/-- The settings of a group; what is no group has none. -/
def entries : Setting → Group
  | .group es => es
  | _ => []

/-- The key of a group that a name means: the name itself, else the first key that is the name in
another case, a blank counting as an underscore. A key that is no text ends the search. -/
def keyFor (es : List (Value × α)) (name : String) : Option String :=
  if (Value.get? es name).isSome then some name else search es
where
  /-- The name without regard to case. -/
  bare (s : String) : List Char := LetterCase.lowerText s.toList
  /-- The first key that is the name in another case. -/
  search : List (Value × α) → Option String
    | [] => none
    | e :: rest =>
      match e.1.bare with
      | .str s =>
        let joined := s.map fun c => if c = ' ' then '_' else c
        if bare s = bare name ∨ bare joined = bare name then some s else search rest
      | _ => none

/-- What a group holds under a name in any case. -/
def child? (es : List (Value × α)) (name : String) : Option α := do
  Value.get? es (← keyFor es name)

/-- A text keeps its value. -/
theorem evaluate_ofValue_str (cook : Recipe → Except ε Value) (s : String) :
    evaluate cook (ofValue (.str s)) = .ok (.str s) := rfl

/-- A name that is a key means that key. -/
theorem keyFor_of_isSome {es : List (Value × α)} {name : String}
    (h : (Value.get? es name).isSome = true) :
    keyFor es name = some name := by
  simp [keyFor, h]

end Setting

end RegistryBundle
