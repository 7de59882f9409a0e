import RegistryBundle.Time.Calendar
import RegistryBundle.Yaml.Implicit
import RegistryBundle.Yaml.Node.Basic
import RegistryBundle.Yaml.Scalar

/-!
# Nodes on the page

Collections are laid out in block style, one entry a line, two columns deeper at each level; a
sequence that is the value of a key stays at the column of the key. Empty collections are `[]` and
`{}`. A key that is short and on one line stands before its colon; any other key follows a question
mark, and its value a colon on a line of its own.

* `Node.isSimpleKey` tells which keys stand before their colon;
* `Node.layout` is a node after the indicator it belongs to, ending with a line break;
* `Node.page` is a whole document: a bare plain scalar is followed by the
  mark of the document's end.
-/

namespace RegistryBundle.Yaml.Node

open Scalar

/-- What stands before a node: the hyphen of an item, a key and its colon, or an
indicator alone on its line. -/
inductive Place where
  | item
  | value
  | part
deriving DecidableEq, Repr

/-- The name of an anchor. -/
def anchorName (label : Nat) : List Char :=
  'i' :: 'd' :: padded 3 label

/-- The anchor of a node. -/
def anchorText (label : Nat) : List Char :=
  '&' :: anchorName label

/-- The longest key, with its tag and its anchor, that stands before its colon. -/
def maxKeyLength : Nat := 127

/-- Whether a key stands on the line of its colon; `anchor` is the length of its anchor's name. -/
def isSimpleKey (anchor : Nat) : Node → Bool
  | .scalar t s =>
    anchor + t.text.length + s.length ≤ maxKeyLength && !s.isEmpty && !s.any isLineBreak
  | .sequence t items => anchor + t.text.length ≤ maxKeyLength && items.isEmpty
  | .mapping t entries => anchor + t.text.length ≤ maxKeyLength && entries.isEmpty
  | .anchored l n => isSimpleKey (anchorName l).length n
  | .reference l => (anchorName l).length ≤ maxKeyLength

/-- Whether a scalar read plain would have its tag. -/
def isImplicit (t : Tag) (s : List Char) : Bool :=
  Implicit.tag .older s == t

/-- The tag of a scalar, where its style does not imply it. -/
def scalarTag (t : Tag) (s : List Char) (st : Style) : List (List Char) :=
  if (st == .plain && isImplicit t s) || (st != .plain && t == .str) then [] else [t.text]

/-- The tag of a collection, where it is not the usual one. -/
def collectionTag (usual t : Tag) : List (List Char) :=
  if t == usual then [] else [t.text]

/-- Properties, each followed by a space. -/
def propertyText (properties : List (List Char)) : List Char :=
  properties.flatMap fun p => p ++ [' ']

/-- Properties alone on their line: a space between them, none after. -/
def propertyLine (properties : List (List Char)) : List Char :=
  (propertyText properties).dropLast

/-- The lines of a block scalar. -/
def literalLines (indent : Nat) (s : List Char) : List Char :=
  ((Reading.fields '\n' s).filter (!·.isEmpty)).flatMap fun line => spaces indent ++ line ++ ['\n']

/-- A scalar with its properties, from `column` on; bytes stand in a block scalar. -/
def scalarText (properties : List (List Char)) (column indent : Nat) (key : Bool) (t : Tag)
    (s : List Char) :
    List Char :=
  if t == .binary then
    if s.isEmpty then propertyText (properties ++ [t.text]) ++ ['"', '"', '\n']
    else propertyText (properties ++ [t.text]) ++ '|' :: '\n' :: literalLines indent s
  else
    let st := style (isImplicit t s) key s
    let front := propertyText (properties ++ scalarTag t s st)
    front ++ body st (column + front.length) indent (!key) s ++ ['\n']

/-- A key that stands before its colon. -/
def keyText (properties : List (List Char)) : Node → List Char
  | .scalar t s => (scalarText properties 0 0 true t s).dropLast
  | .sequence t _ => propertyText (properties ++ collectionTag .seq t) ++ ['[', ']']
  | .mapping t _ => propertyText (properties ++ collectionTag .map t) ++ ['\x7b', '\x7d']
  | .anchored l n => keyText (properties ++ [anchorText l]) n
  | .reference l => '*' :: anchorName l

mutual

/-- A node after the indicator before it, which ends at `column`; `indent` is the column of the
collection that the node belongs to. -/
def layout (place : Place) (indent column : Nat) (properties : List (List Char)) : Node → List Char
  | .scalar t s => ' ' :: scalarText properties (column + 1) (indent + 2) false t s
  | .sequence t [] => ' ' :: (propertyText (properties ++ collectionTag .seq t) ++ ['[', ']', '\n'])
  | .mapping t [] => ' ' :: (propertyText (properties ++ collectionTag .map t) ++
      ['\x7b', '\x7d', '\n'])
  | .sequence t items =>
    let properties := properties ++ collectionTag .seq t
    if properties.isEmpty then
      if place == .value then '\n' :: (spaces indent ++ layoutItems indent items)
      else ' ' :: layoutItems (indent + 2) items
    else
      let depth := if place == .item then indent + 2 else indent
      ' ' :: (propertyLine properties ++ '\n' :: (spaces depth ++ layoutItems depth items))
  | .mapping t entries =>
    let properties := properties ++ collectionTag .map t
    if properties.isEmpty then
      if place == .value then '\n' :: (spaces (indent + 2) ++ layoutEntries (indent + 2) entries)
      else ' ' :: layoutEntries (indent + 2) entries
    else
      ' ' :: (propertyLine properties ++
        '\n' :: (spaces (indent + 2) ++ layoutEntries (indent + 2) entries))
  | .anchored l n => layout place indent column (properties ++ [anchorText l]) n
  | .reference l => ' ' :: '*' :: (anchorName l ++ ['\n'])

/-- The items of a sequence, each after a hyphen. -/
def layoutItems (indent : Nat) : List Node → List Char
  | [] => []
  | n :: rest =>
    '-' :: (layout .item indent (indent + 1) [] n ++
      (if rest.isEmpty then [] else spaces indent ++ layoutItems indent rest))

/-- The entries of a mapping. -/
def layoutEntries (indent : Nat) : List (Node × Node) → List Char
  | [] => []
  | (k, v) :: rest =>
    (if isSimpleKey 0 k then
      let key := keyText [] k
      key ++ ':' :: layout .value indent (indent + key.length + 1) [] v
    else
      '?' :: (layout .part indent (indent + 1) [] k ++ spaces indent ++
        ':' :: layout .part indent (indent + 1) [] v)) ++
      (if rest.isEmpty then [] else spaces indent ++ layoutEntries indent rest)

end

/-- A document from its first column on. -/
def root (properties : List (List Char)) : Node → List Char
  | .scalar t s =>
    scalarText properties 0 2 false t s ++
      (if t != .binary && style (isImplicit t s) false s == .plain then ['.', '.', '.', '\n']
        else [])
  | .sequence t items =>
    let properties := properties ++ collectionTag .seq t
    if items.isEmpty then propertyText properties ++ ['[', ']', '\n']
    else if properties.isEmpty then layoutItems 0 items
    else propertyLine properties ++ '\n' :: layoutItems 0 items
  | .mapping t entries =>
    let properties := properties ++ collectionTag .map t
    if entries.isEmpty then propertyText properties ++ ['\x7b', '\x7d', '\n']
    else if properties.isEmpty then layoutEntries 0 entries
    else propertyLine properties ++ '\n' :: layoutEntries 0 entries
  | .anchored l n => root (properties ++ [anchorText l]) n
  | .reference l => '*' :: (anchorName l ++ ['\n'])

/-- The page of a document. -/
def page (n : Node) : List Char :=
  root [] n.fold

end RegistryBundle.Yaml.Node
