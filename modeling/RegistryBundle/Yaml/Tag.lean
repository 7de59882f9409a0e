/-!
# Tags of nodes

A tag names the type of a node.  The tags of the standard types share the handle `!!`.

* `Tag.ofName` inverts `Tag.name` (`ofName_name`).
-/

namespace RegistryBundle.Yaml

/-- The type of a node. -/
inductive Tag where
  | null
  | bool
  | int
  | float
  | timestamp
  | merge
  | value
  | str
  | binary
  | seq
  | map
  | set
  | omap
  | pairs
  | other (name : String)
deriving DecidableEq, Repr

namespace Tag

/-- What the handle of the standard types stands for. -/
def standard : String := "tag:yaml.org,2002:"

/-- The standard types by the part of the name after the handle. -/
def shortNames : List (Tag × String) :=
  [(null, "null"), (bool, "bool"), (int, "int"), (float, "float"), (timestamp, "timestamp"),
    (merge, "merge"), (value, "value"), (str, "str"), (binary, "binary"), (seq, "seq"),
      (map, "map"),
    (set, "set"), (omap, "omap"), (pairs, "pairs")]

/-- The tag with a full name. -/
def ofName (name : String) : Tag :=
  ((shortNames.find? fun p => standard ++ p.2 == name).map Prod.fst).getD (other name)

/-- The part of the name after the handle. -/
def shortName (t : Tag) : String :=
  match t with
  | other name => name
  | t => ((shortNames.find? fun p => p.1 == t).map Prod.snd).getD ""

/-- The full name of a tag. -/
def name (t : Tag) : String :=
  match t with
  | other name => name
  | t => standard ++ t.shortName

/-- A standard tag as it is written before a node. -/
def text (t : Tag) : List Char :=
  '!' :: '!' :: t.shortName.toList

/-- A standard tag is found again by its name. -/
theorem ofName_name : ∀ p ∈ shortNames, ofName p.1.name = p.1 := by
  decide +kernel

end Tag

end RegistryBundle.Yaml
