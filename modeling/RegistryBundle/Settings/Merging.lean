import RegistryBundle.Settings.Setting

/-!
# Merging of settings

A new setting is merged into the one that was there before: of two groups the entries are joined, of
two lists the items, and anything else takes the place of what was there. Words inside a new list or
group ask for a merge as well, and orders inside a new group act on the entries of the old one.

* `Setting.merge` merges two settings; what is no group and no list is replaced: `merge_value`;
* `Setting.mergeAlong` merges a setting whose last group is reached along a path of names: the entry
  at the end of the path is replaced;
* `Setting.selfMerged` merges a setting that itself asks for it.
-/

namespace RegistryBundle.Setting

/-- What asks for a merge inside a list or a group. -/
def mergeWord : String := "dynaconf_merge"

/-- What asks for a merge without the items that are there already. -/
def uniqueWord : String := "dynaconf_merge_unique"

/-- What forbids a merge inside a list. -/
def replaceWord : String := "dynaconf_merge_false"

/-- How an old setting takes up a new one: without items that are there already, along a path. -/
abbrev Merger := Bool → List String → Setting → Setting

/-- Whether a setting is a text. -/
def isWord (word : String) : Setting → Bool
  | .value (.str s) => s == word
  | _ => false

/-- Whether two settings are the same value without parts. -/
def same : Setting → Setting → Bool
  | .value a, .value b => a.sameKey b
  | _, _ => false

/-- New items behind the old ones. -/
def joinLists (unique : Bool) (old new : List Setting) : List Setting :=
  if new.any (isWord replaceWord) then new.eraseP (isWord replaceWord)
  else old.foldr (fun s items => if unique && items.any (same s) then items else s :: items) new

/-- New entries under the keys that they mean in an old group; those come last. -/
def renamed (old : List (Value × α)) (new : Group) : Group :=
  new.foldl (fun acc e =>
    match e.1.bare with
    | .str name =>
      match keyFor old name with
      | some "" | none => acc
      | some key => Value.put (Value.erase acc name) (.str key) ((Value.get? acc name).getD e.2)
    | _ => acc) new

/-- Whether a path ends at a key. -/
def endsAt (path : List String) (key : Value) : Bool :=
  match path, key.bare with
  | [name], .str s => LetterCase.lowerText s.toList == LetterCase.lowerText name.toList
  | _, _ => false

/-- What a group says about its own merge, and its other entries. -/
def takeMergeEntry (es : Group) : Option Setting × Group :=
  ((Value.get? es mergeWord).or (Value.get? es uniqueWord),
    Value.erase (Value.erase es uniqueWord) mergeWord)

/-- Whether a setting is a truth value or null, ones and zeros counting as truth values. -/
def isSwitch : Setting → Bool
  | .value .null => true
  | .value v => v.sameKey (.bool true) || v.sameKey (.bool false)
  | _ => false

/-- A group without its entry about merging, and whether it asks for a merge. An entry that is
no truth value, and the only one, is what is merged; `always` tells whether that asks for a
merge even if it is empty. -/
def asked (always : Bool) (es : Group) : Setting × Bool :=
  match takeMergeEntry es with
  | (none, _) => (.group es, false)
  | (some s, rest) =>
    if !isSwitch s && rest.isEmpty then (s, always || s.truthy) else (.group rest, s.truthy)

/-- The items of a list without the word that asks for a merge, and whether it asks for one without
the items that are there already; none if no word asks. -/
def askedItems? (items : List Setting) : Option (List Setting × Bool) :=
  if items.any (isWord mergeWord) then some (items.eraseP (isWord mergeWord), false)
  else if items.any (isWord uniqueWord) then some (items.eraseP (isWord uniqueWord), true)
  else none

/-- A list with an item in front of the one at a place; places below zero count from the end. -/
def insertAt (place : Int) (s : Setting) (items : List Setting) : List Setting :=
  let n := (if place < 0 then place + items.length else place).toNat
  items.take n ++ s :: items.drop n

/-- What an order makes of a setting and the old one with its merger; none if nothing is left. -/
def carriedOut (old : Option (Setting × Merger)) : Setting → Option Setting
  | .order .reset s => some s
  | .order .delete _ => none
  | .order (.merge unique) s =>
    match old with
    | some (_, m) => some (m unique [] s)
    | none => some s
  | .order (.insert place) s =>
    match old with
    | some (.list items, _) => some (.list (insertAt place s items))
    | _ => some (.list [s])
  | s => some s

/-- A setting that asks for a merge, merged. -/
def selfMergedInto (always : Bool) (old : Option (Setting × Merger)) : Setting → Setting
  | .list items =>
    match askedItems? items, old with
    | some (items, unique), some (.list before, _) => .list (joinLists unique before items)
    | some (items, _), _ => .list items
    | none, _ => .list items
  | .group es =>
    match asked always es, old with
    | (s, true), some (_, m) => m false [] s
    | (s, _), _ => s
  | s => s

/-- The entries of a new group with its orders carried out. -/
def settled (old : List (Value × Setting × Merger)) (new : Group) : Group :=
  new.filterMap fun e =>
    let before := Value.find? old e.1
    (carriedOut before e.2).map fun s => (e.1, selfMergedInto false before s)

/-- New entries joined with those of an old group, each given with its merger. -/
def joinGroups (old : List (Value × Setting × Merger)) (path : List String) (new : Group) : Group :=
  settled old <| old.foldl (fun acc e =>
    match Value.find? acc e.1 with
    | none => Value.put acc e.1 e.2.1
    | some s => if endsAt path e.1 then acc else Value.put acc e.1 (e.2.2 false (path.drop 1) s))
        (renamed old new)

mutual

/-- How a setting takes up a new one. -/
def merger : Setting → Merger
  | .list old => fun unique _ new =>
    match new with
    | .list items => .list (joinLists unique old items)
    | new => new
  | .group old => fun _ path new =>
    match new with
    | .group es => .group (joinGroups (mergers old) path es)
    | new => new
  | _ => fun _ _ new => new

/-- The entries of a group, each with its merger. -/
def mergers : List (Value × Setting) → List (Value × Setting × Merger)
  | [] => []
  | (k, s) :: rest => (k, s, merger s) :: mergers rest

end

/-- A new setting merged into an old one. -/
def merge (unique : Bool) (old new : Setting) : Setting :=
  merger old unique [] new

/-- A new setting merged into an old one, what the path leads to being replaced. -/
def mergeAlong (path : List String) (old new : Setting) : Setting :=
  merger old false path new

/-- A new setting, merged into the old one if it asks for that. -/
def selfMerged (old new : Setting) : Setting :=
  match new with
  | .list items =>
    match askedItems? items with
    | some (items, unique) => merge unique old (.list items)
    | none => new
  | new => selfMergedInto true (some (old, merger old)) new

/-- A value without parts takes the place of whatever was there. -/
theorem merge_value (unique : Bool) (old : Setting) (v : Value) :
    merge unique old (.value v) = .value v := by
  cases old <;> simp [merge, merger]

/-- Nothing is merged into a value without parts. -/
theorem merge_into_value (unique : Bool) (v : Value) (new : Setting) :
    merge unique (.value v) new = new := by
  simp [merge, merger]

end RegistryBundle.Setting
