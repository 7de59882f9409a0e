import RegistryBundle.Text.Letter
import RegistryBundle.Yaml.Tag

/-!
# Nodes

A document as a tree of tagged nodes. A node that is met again carries an anchor, and the later
places refer to it.

* `Node.label` gives labels to the objects inside anchored mappings;
* `Node.expand` puts an anchored node at every place that refers to it; a reference
  inside its own node stays;
* `Node.fold` undoes that for writing: of several places with one label the first carries the
  anchor, and anchors are numbered in the order in which they are first referred to.
-/

namespace RegistryBundle.Yaml

/-- A tagged tree over an alphabet. -/
inductive Node (A : Alphabet := .characters) where
  | scalar (tag : Tag) (text : List Char)
  /-- A scalar whose text is broken. -/
  | broken (h : A = .letters) (tag : Tag) (t : BrokenText)
  | sequence (tag : Tag) (items : List (Node A))
  | mapping (tag : Tag) (entries : List (Node A × Node A))
  /-- A node that may be referred to. -/
  | anchored (label : Nat) (node : Node A)
  /-- A place where the anchored node of that label stands. -/
  | reference (label : Nat)

namespace Node

variable {A : Alphabet}

/-- Whether a node makes an object of its own, which a document may hold at several places. -/
def isObject : Node A → Bool
  | .scalar t _ | .broken _ t _ => t == .timestamp
  | .sequence .. | .mapping .. => true
  | .anchored .. | .reference _ => false

/-- A node under a fresh label, if it makes an object and lies inside an anchored mapping. -/
def labelled (inside : Bool) (next : Nat) (n : Node A) : Node A × Nat :=
  if inside && n.isObject then (.anchored next n, next + 1) else (n, next)

mutual

/-- The tree with labels from `next` on for the objects inside anchored mappings, whose entries may
come to stand in other mappings too. -/
def label (inside : Bool) (next : Nat) : Node A → Node A × Nat
  | .scalar t s => labelled inside next (.scalar t s)
  | .broken h t s => labelled inside next (.broken h t s)
  | .sequence t items =>
    let (items, next) := labelItems inside next items
    labelled inside next (.sequence t items)
  | .mapping t entries =>
    let (entries, next) := labelEntries inside next entries
    labelled inside next (.mapping t entries)
  | .anchored l (.mapping t entries) =>
    let (entries, next) := labelEntries true next entries
    (.anchored l (.mapping t entries), next)
  | .anchored l (.sequence t items) =>
    let (items, next) := labelItems inside next items
    (.anchored l (.sequence t items), next)
  | .anchored l n => (.anchored l n, next)
  | .reference l => (.reference l, next)

/-- Each item in turn. -/
def labelItems (inside : Bool) (next : Nat) : List (Node A) → List (Node A) × Nat
  | [] => ([], next)
  | n :: rest =>
    let (n, next) := label inside next n
    let (rest, next) := labelItems inside next rest
    (n :: rest, next)

/-- Each key and value in turn. -/
def labelEntries (inside : Bool) (next : Nat) :
    List (Node A × Node A) → List (Node A × Node A) × Nat
  | [] => ([], next)
  | (k, v) :: rest =>
    let (k, next) := label inside next k
    let (v, next) := label inside next v
    let (rest, next) := labelEntries inside next rest
    ((k, v) :: rest, next)

end

/-- The nodes that carry an anchor, the latest first. -/
abbrev Anchors (A : Alphabet := .characters) := List (Nat × Node A)

/-- What a label stands for. -/
def Anchors.find? (anchors : Anchors A) (label : Nat) : Option (Node A) :=
  (List.find? (fun a => a.1 == label) anchors).map Prod.snd

mutual

/-- The tree with anchored nodes in the place of references to them. -/
def expand (anchors : Anchors A) : Node A → Node A × Anchors A
  | .scalar t s => (.scalar t s, anchors)
  | .broken h t s => (.broken h t s, anchors)
  | .sequence t items =>
    let (items, anchors) := expandItems anchors items
    (.sequence t items, anchors)
  | .mapping t entries =>
    let (entries, anchors) := expandEntries anchors entries
    (.mapping t entries, anchors)
  | .anchored l n =>
    let (n, anchors) := expand anchors n
    (.anchored l n, (l, n) :: anchors)
  | .reference l =>
    match anchors.find? l with
    | some n => (.anchored l n, anchors)
    | none => (.reference l, anchors)

/-- Each item expanded, the anchors of earlier items known to later ones. -/
def expandItems (anchors : Anchors A) : List (Node A) → List (Node A) × Anchors A
  | [] => ([], anchors)
  | n :: rest =>
    let (n, anchors) := expand anchors n
    let (rest, anchors) := expandItems anchors rest
    (n :: rest, anchors)

/-- Each key and value expanded. -/
def expandEntries (anchors : Anchors A) :
    List (Node A × Node A) → List (Node A × Node A) × Anchors A
  | [] => ([], anchors)
  | (k, v) :: rest =>
    let (k, anchors) := expand anchors k
    let (v, anchors) := expand anchors v
    let (rest, anchors) := expandEntries anchors rest
    ((k, v) :: rest, anchors)

end

/-- The labels met so far and those of them that were met again, in the
order of the second meeting. -/
structure Meetings where
  seen : List Nat := []
  again : List Nat := []

/-- A label is met once more. -/
def Meetings.meetAgain (m : Meetings) (label : Nat) : Meetings :=
  if m.again.contains label then m else { m with again := m.again ++ [label] }

mutual

/-- The labels of a tree, a node that was met before not entered again. -/
def meet (m : Meetings) : Node → Meetings
  | .scalar .. => m
  | .sequence _ items => meetItems m items
  | .mapping _ entries => meetEntries m entries
  | .anchored l n =>
      if m.seen.contains l then m.meetAgain l else meet { m with seen := l :: m.seen } n
  | .reference l => m.meetAgain l

/-- The labels of the items in turn. -/
def meetItems (m : Meetings) : List Node → Meetings
  | [] => m
  | n :: rest => meetItems (meet m n) rest

/-- The labels of keys and values in turn. -/
def meetEntries (m : Meetings) : List (Node × Node) → Meetings
  | [] => m
  | (k, v) :: rest => meetEntries (meet (meet m k) v) rest

end

mutual

/-- The tree with an anchor at the first place of each repeated label and references at the others;
`written` holds the labels whose anchor was placed. -/
def settle (again written : List Nat) : Node → Node × List Nat
  | .scalar t s => (.scalar t s, written)
  | .sequence t items =>
    let (items, written) := settleItems again written items
    (.sequence t items, written)
  | .mapping t entries =>
    let (entries, written) := settleEntries again written entries
    (.mapping t entries, written)
  | .anchored l n =>
    if written.contains l then (.reference (again.idxOf l + 1), written)
    else if again.contains l then
      let (n, written) := settle again (l :: written) n
      (.anchored (again.idxOf l + 1) n, written)
    else settle again written n
  | .reference l => (.reference (again.idxOf l + 1), written)

/-- Each item in turn. -/
def settleItems (again written : List Nat) : List Node → List Node × List Nat
  | [] => ([], written)
  | n :: rest =>
    let (n, written) := settle again written n
    let (rest, written) := settleItems again written rest
    (n :: rest, written)

/-- Each key and value in turn. -/
def settleEntries (again written : List Nat) : List (Node × Node) → List (Node × Node) × List Nat
  | [] => ([], written)
  | (k, v) :: rest =>
    let (k, written) := settle again written k
    let (v, written) := settle again written v
    let (rest, written) := settleEntries again written rest
    ((k, v) :: rest, written)

end

/-- The tree as it is written, each repeated node once. -/
def fold (n : Node) : Node :=
  (settle (meet {} n).again [] n).1

end Node

end RegistryBundle.Yaml
