import RegistryBundle.Yaml.Node.Layout

/-!
# The line of an entry

Wherever an entry from one text to another stands in a document, there is a line on the page that
holds the text of the key, a colon and the text of the value, or the last two alone if the key has
lines of its own.

* `OnLine` says that something stands on a line of a text behind nothing but spaces
  and marks of collections;
* `EndsLine` says that a text ends with its line, as every node does (`Node.endsLine_layout`);
* `Node.HasEntry` says that a node has an entry somewhere, `Node.HasEntry.onLine` that its layout
  has the line of the entry, `Node.HasEntry.onLine_root` that a whole document has it.
-/

namespace RegistryBundle.Yaml

open Scalar

/-! ## Lines -/

/-- Something stands on a line of its own, behind nothing but spaces and the marks of items, keys
and values; `start` tells whether nothing else stands on the line in front of the text. -/
def OnLine (start : Bool) (line cs : List Char) : Prop :=
  ∃ before front after, cs = before ++ (front ++ (line ++ after)) ∧
    (∀ c ∈ front, c ∈ [' ', '-', '?', ':']) ∧
    (before.getLast? = some '\n' ∨ start = true ∧ before = [])

namespace OnLine

variable {start : Bool} {line cs : List Char}

theorem here (line after : List Char) : OnLine true line (line ++ after) :=
  ⟨[], [], after, rfl, by simp, .inr ⟨rfl, rfl⟩⟩

theorem append (h : OnLine start line cs) (after : List Char) :
    OnLine start line (cs ++ after) := by
  obtain ⟨before, front, rest, rfl, hfront, hbefore⟩ := h
  exact ⟨before, front, rest ++ after, by simp, hfront, hbefore⟩

/-- Spaces and marks may stand in front. -/
theorem marked (h : OnLine true line cs) (marks : List Char)
    (hmarks : ∀ c ∈ marks, c ∈ [' ', '-', '?', ':']) :
    OnLine true line (marks ++ cs) := by
  obtain ⟨before, front, rest, rfl, hfront, hbefore⟩ := h
  rcases hbefore with hbefore | ⟨-, rfl⟩
  · refine ⟨marks ++ before, front, rest, by simp, hfront, .inl ?_⟩
    rw [List.getLast?_append, hbefore]
    rfl
  · refine ⟨[], marks ++ front, rest, by simp, ?_, .inr ⟨rfl, rfl⟩⟩
    simp only [List.mem_append]
    rintro c (hc | hc)
    · exact hmarks c hc
    · exact hfront c hc

private theorem indented (h : OnLine true line cs) (indent : Nat) :
    OnLine true line (spaces indent ++ cs) :=
  h.marked _ fun c hc => by
    rw [List.eq_of_mem_replicate hc]
    exact List.mem_cons_self

/-- Whole lines may stand in front. -/
theorem below (h : OnLine true line cs) {lines : List Char} (hlines : lines.getLast? = some '\n')
    (start : Bool) :
    OnLine start line (lines ++ cs) := by
  obtain ⟨before, front, rest, rfl, hfront, hbefore⟩ := h
  refine ⟨lines ++ before, front, rest, by simp, hfront, .inl ?_⟩
  rcases hbefore with hbefore | ⟨-, rfl⟩
  · rw [List.getLast?_append, hbefore]
    rfl
  · rw [List.append_nil, hlines]

/-- Anything may stand in front of what has line breaks in front already. -/
theorem behind (h : OnLine false line cs) (ds : List Char) (start : Bool) :
    OnLine start line (ds ++ cs) := by
  obtain ⟨before, front, rest, rfl, hfront, hbefore⟩ := h
  have hbefore : before.getLast? = some '\n' := hbefore.resolve_right fun hstart =>
    Bool.false_ne_true hstart.1
  refine ⟨ds ++ before, front, rest, by simp, hfront, .inl ?_⟩
  rw [List.getLast?_append, hbefore]
  rfl

end OnLine

/-- A text that ends with its line. -/
def EndsLine (cs : List Char) : Prop :=
  cs.getLast? = some '\n'

theorem EndsLine.append {cs : List Char} (h : EndsLine cs) (ds : List Char) :
    EndsLine (ds ++ cs) := by
  rw [EndsLine, List.getLast?_append, h]
  rfl

theorem EndsLine.cons {cs : List Char} (h : EndsLine cs) (c : Char) : EndsLine (c :: cs) :=
  h.append [c]

private theorem endsLine_concat (cs : List Char) : EndsLine (cs ++ ['\n']) :=
  List.getLast?_concat ..

namespace Node

/-! ## Ends of lines -/

private theorem endsLine_literalLines {cs : List Char} (h : EndsLine cs) (indent : Nat)
    (s : List Char) :
    EndsLine (cs ++ literalLines indent s) := by
  unfold literalLines
  generalize (Reading.fields '\n' s).filter (!·.isEmpty) = lines
  induction lines generalizing cs with
  | nil => rwa [List.flatMap_nil, List.append_nil]
  | cons line lines ih =>
      rw [List.flatMap_cons, ← List.append_assoc]
      exact ih ((endsLine_concat _).append cs)

private theorem endsLine_scalarText (properties : List (List Char)) (column indent : Nat)
    (key : Bool)
    (t : Tag)
    (s : List Char) : EndsLine (scalarText properties column indent key t s) := by
  unfold scalarText
  split
  · split
    · exact (endsLine_concat ['"', '"']).append _
    · exact (endsLine_literalLines (show EndsLine ['|', '\n'] from rfl) indent s).append _
  · exact endsLine_concat _

/-- What stands between the mark in front of a collection and its first part: the end of the line
and indentation, or a space, but never a space behind a key. -/
def Opens (place : Place) (opening : List Char) : Prop :=
  (∃ ds k, opening = ds ++ '\n' :: spaces k) ∨ place ≠ .value ∧ opening = [' ']

private theorem exists_opening_sequence (place : Place) (indent column : Nat)
    (properties : List (List Char)) (t : Tag)
    (n : Node) (rest : List Node) : ∃ opening depth, Opens place opening ∧
      layout place indent column properties (.sequence t (n :: rest)) = opening ++
        layoutItems depth (n :: rest) := by
  simp only [layout]
  split
  · split
    · exact ⟨'\n' :: spaces indent, indent, .inl ⟨[], indent, rfl⟩, rfl⟩
    · next hplace => exact ⟨[' '], indent + 2, .inr ⟨by simpa using hplace, rfl⟩, rfl⟩
  · generalize (if place == .item then indent + 2 else indent) = depth
    exact ⟨_, depth, .inl ⟨' ' :: propertyLine (properties ++ collectionTag .seq t), depth, rfl⟩, by
      simp⟩

private theorem exists_opening_mapping (place : Place) (indent column : Nat)
    (properties : List (List Char))
    (t : Tag)
    (e : Node × Node) (rest : List (Node × Node)) : ∃ opening depth, Opens place opening ∧
      layout place indent column properties (.mapping t (e :: rest)) = opening ++
        layoutEntries depth (e :: rest) := by
  simp only [layout]
  split
  · split
    · exact ⟨'\n' :: spaces (indent + 2), indent + 2, .inl ⟨[], indent + 2, rfl⟩, rfl⟩
    · next hplace => exact ⟨[' '], indent + 2, .inr ⟨by simpa using hplace, rfl⟩, rfl⟩
  · exact ⟨_, indent + 2, .inl ⟨' ' :: propertyLine (properties ++ collectionTag .map t),
      indent + 2, rfl⟩, by simp⟩

mutual

/-- A node ends its line. -/
theorem endsLine_layout : ∀ (n : Node) (place : Place) (indent column : Nat)
    (properties : List (List Char)), EndsLine (layout place indent column properties n)
  | .scalar t s, place, indent, column, properties => by
      rw [layout]
      exact (endsLine_scalarText ..).cons ' '
  | .sequence t [], place, indent, column, properties => by
      rw [layout]
      exact ((show EndsLine ['[', ']', '\n'] from rfl).append _).cons ' '
  | .mapping t [], place, indent, column, properties => by
      rw [layout]
      exact ((show EndsLine ['\x7b', '\x7d', '\n'] from rfl).append _).cons ' '
  | .sequence t (n :: rest), place, indent, column, properties => by
      obtain ⟨opening, depth, -, heq⟩ :=
        exists_opening_sequence place indent column properties t n rest
      rw [heq]
      exact (endsLine_items (n :: rest) (List.cons_ne_nil n rest) depth).append opening
  | .mapping t (e :: rest), place, indent, column, properties => by
      obtain ⟨opening, depth, -, heq⟩ :=
        exists_opening_mapping place indent column properties t e rest
      rw [heq]
      exact (endsLine_entries (e :: rest) (List.cons_ne_nil e rest) depth).append opening
  | .anchored l n, place, indent, column, properties => by
      rw [layout]
      exact endsLine_layout n place indent column _
  | .reference l, place, indent, column, properties => by
      rw [layout]
      exact ((endsLine_concat (anchorName l)).cons '*').cons ' '

/-- So do items. -/
theorem endsLine_items : ∀ (items : List Node), items ≠ [] →
    ∀ indent : Nat, EndsLine (layoutItems indent items)
  | [], h, _ => absurd rfl h
  | [n], _, indent => by
      rw [layoutItems, List.isEmpty_nil, if_pos rfl, List.append_nil]
      exact (endsLine_layout n .item indent (indent + 1) []).cons '-'
  | n :: m :: rest, _, indent => by
      rw [layoutItems, List.isEmpty_cons, if_neg Bool.false_ne_true]
      exact (((endsLine_items (m :: rest) (List.cons_ne_nil m rest) indent).append _).append _).cons
        '-'

/-- So do entries. -/
theorem endsLine_entries : ∀ (entries : List (Node × Node)), entries ≠ [] → ∀ indent : Nat,
    EndsLine (layoutEntries indent entries)
  | [], h, _ => absurd rfl h
  | [(k, v)], _, indent => by
      rw [layoutEntries, List.isEmpty_nil, if_pos rfl, List.append_nil]
      split
      · exact ((endsLine_layout v .value indent _ []).cons ':').append _
      · exact (((endsLine_layout v .part indent (indent + 1) []).cons ':').append _).cons '?'
  | (k, v) :: f :: rest, _, indent => by
      rw [layoutEntries, List.isEmpty_cons, if_neg Bool.false_ne_true]
      exact ((endsLine_entries (f :: rest) (List.cons_ne_nil f rest) indent).append _).append _

end

/-! ## Lines of entries -/

/-- An entry from one text to another, in a mapping at any depth. -/
inductive HasEntry (name text : List Char) : Node → Prop where
  | here {t : Tag} {entries : List (Node × Node)}
      (h : (.scalar .str name, .scalar .str text) ∈ entries) :
      HasEntry name text (.mapping t entries)
  | under {t : Tag} {entries : List (Node × Node)} {k v : Node} (h : (k, v) ∈ entries)
      (hv : HasEntry name text v) :
      HasEntry name text (.mapping t entries)
  | inKey {t : Tag} {entries : List (Node × Node)} {k v : Node} (h : (k, v) ∈ entries)
      (hk : HasEntry name text k) :
      HasEntry name text (.mapping t entries)
  | item {t : Tag} {items : List Node} {n : Node} (h : n ∈ items) (hn : HasEntry name text n) :
      HasEntry name text (.sequence t items)
  | anchored {l : Nat} {n : Node} (h : HasEntry name text n) : HasEntry name text (.anchored l n)

/-- The end of the line on which a value is shown. -/
def valueLine (shown : List Char) : List Char :=
  ':' :: ' ' :: (shown ++ ['\n'])

/-- The line of an entry whose value is shown on it; a name that does not stand before its colon has
lines of its own. -/
def entryLine (name shown : List Char) : List Char :=
  (if isSimpleKey 0 (.scalar .str name) then keyText [] (.scalar .str name) else []) ++
    valueLine shown

variable {name text shown line : List Char}

theorem Opens.onLine {place : Place} {opening cs : List Char} (ho : Opens place opening)
    (h : OnLine true line cs) :
    OnLine (place != .value) line (opening ++ cs) := by
  rcases ho with ⟨ds, k, rfl⟩ | ⟨hplace, rfl⟩
  · simpa using (h.indented k).below (endsLine_concat ds) (place != .value)
  · rw [bne_iff_ne.mpr hplace]
    exact h.marked _ (by simp)

private theorem onLine_items {items : List Node} {n : Node} (hn : n ∈ items)
    (h : ∀ indent column, OnLine true line (layout .item indent column [] n)) (indent : Nat) :
    OnLine true line (layoutItems indent items) := by
  induction items with
  | nil => exact absurd hn List.not_mem_nil
  | cons m rest ih =>
      rw [layoutItems]
      rcases List.mem_cons.mp hn with rfl | hn
      · exact ((h _ _).append _).marked ['-'] (by simp)
      · have hrest : rest.isEmpty = false := List.isEmpty_eq_false_iff.mpr (List.ne_nil_of_mem hn)
        rw [hrest, if_neg Bool.false_ne_true]
        exact ((ih hn).indented indent).below
          ((endsLine_layout m .item indent (indent + 1) []).cons '-') true

/-- The line of an entry that stands among others. -/
theorem onLine_entries {entries : List (Node × Node)} {k v : Node} (he : (k, v) ∈ entries)
    (h : ∀ indent, OnLine true line (layoutEntries indent [(k, v)])) (indent : Nat) :
    OnLine true line (layoutEntries indent entries) := by
  induction entries with
  | nil => exact absurd he List.not_mem_nil
  | cons f rest ih =>
      have hsingle : layoutEntries indent (f :: rest) = layoutEntries indent [f] ++
          (if rest.isEmpty then [] else spaces indent ++ layoutEntries indent rest) := by
        rw [layoutEntries, layoutEntries, List.isEmpty_nil, if_pos rfl, List.append_nil]
      rw [hsingle]
      rcases List.mem_cons.mp he with rfl | he
      · exact (h indent).append _
      · have hrest : rest.isEmpty = false := List.isEmpty_eq_false_iff.mpr (List.ne_nil_of_mem he)
        rw [hrest, if_neg Bool.false_ne_true]
        exact ((ih he).indented indent).below (endsLine_entries [f] (List.cons_ne_nil f []) indent)
          true

/-- The line of an entry inside the value of another. -/
theorem onLine_entry {k v : Node}
    (h : ∀ place indent column, OnLine (place != .value) line (layout place indent column [] v))
    (indent : Nat) :
    OnLine true line (layoutEntries indent [(k, v)]) := by
  rw [layoutEntries, List.isEmpty_nil, if_pos rfl, List.append_nil]
  split
  · have hvalue := (h .value indent (indent + (keyText [] k).length + 1)).behind
      (keyText [] k ++ [':']) true
    simpa using hvalue
  · have hvalue := (h .part indent (indent + 1)).marked [':'] (by simp)
    have hbelow := (hvalue.indented indent).below
      ((endsLine_layout k .part indent (indent + 1) []).cons '?') true
    simpa using hbelow

/-- What has entries is no key before a colon. -/
theorem HasEntry.not_isSimpleKey {n : Node} (h : HasEntry name text n) (anchor : Nat) :
    isSimpleKey anchor n = false := by
  induction h generalizing anchor with
  | here h => simp [isSimpleKey, List.ne_nil_of_mem h]
  | under h => simp [isSimpleKey, List.ne_nil_of_mem h]
  | inKey h => simp [isSimpleKey, List.ne_nil_of_mem h]
  | item h => simp [isSimpleKey, List.ne_nil_of_mem h]
  | anchored h ih =>
      rw [isSimpleKey]
      exact ih _

/-- The line of an entry inside a key. -/
theorem onLine_key {k v : Node} (hk : isSimpleKey 0 k = false)
    (h : ∀ indent column, OnLine true line (layout .part indent column [] k)) (indent : Nat) :
    OnLine true line (layoutEntries indent [(k, v)]) := by
  rw [layoutEntries, hk, if_neg Bool.false_ne_true, List.append_assoc, ← List.cons_append]
  exact (((h indent (indent + 1)).append _).marked ['?'] (by simp)).append _

section

variable (hshown : ∀ column indent, scalarText [] column indent false .str text = shown ++ ['\n'])

include hshown

private theorem onLine_here (indent : Nat) :
    OnLine true (entryLine name shown)
      (layoutEntries indent [(.scalar .str name, .scalar .str text)]) := by
  by_cases hsimple : isSimpleKey 0 (.scalar .str name) = true
  · simp only [layoutEntries, entryLine, hsimple, if_true, layout, hshown]
    exact .here _ []
  · have hvalue : OnLine true (valueLine shown) (valueLine shown ++ []) := .here _ []
    have hbelow := (hvalue.indented indent).below
      ((endsLine_layout (.scalar .str name) .part indent (indent + 1) []).cons '?') true
    have hline : entryLine name shown = valueLine shown := by
      rw [entryLine, if_neg hsimple, List.nil_append]
    rw [hline, layoutEntries, if_neg hsimple, List.isEmpty_nil, if_pos rfl, List.append_nil]
    simpa [layout, hshown, valueLine] using hbelow

/-- **The line of an entry** stands in the layout of every node that has the entry. -/
theorem HasEntry.onLine {n : Node} (h : HasEntry name text n) (place : Place) (indent column : Nat)
    (properties : List (List Char)) :
    OnLine (place != .value) (entryLine name shown) (layout place indent column properties n) := by
  induction h generalizing place indent column properties with
  | @here t entries h =>
      obtain ⟨e, rest, rfl⟩ := List.exists_cons_of_ne_nil (List.ne_nil_of_mem h)
      obtain ⟨opening, depth, ho, heq⟩ :=
        exists_opening_mapping place indent column properties t e rest
      rw [heq]
      exact ho.onLine (onLine_entries h (onLine_here hshown) depth)
  | @under t entries k v h hv ih =>
      obtain ⟨e, rest, rfl⟩ := List.exists_cons_of_ne_nil (List.ne_nil_of_mem h)
      obtain ⟨opening, depth, ho, heq⟩ :=
        exists_opening_mapping place indent column properties t e rest
      rw [heq]
      exact ho.onLine (onLine_entries h (onLine_entry fun place i c => ih place i c []) depth)
  | @inKey t entries k v h hk ih =>
      obtain ⟨e, rest, rfl⟩ := List.exists_cons_of_ne_nil (List.ne_nil_of_mem h)
      obtain ⟨opening, depth, ho, heq⟩ :=
        exists_opening_mapping place indent column properties t e rest
      rw [heq]
      exact ho.onLine (onLine_entries h
        (onLine_key (hk.not_isSimpleKey 0) fun i c => ih .part i c []) depth)
  | @item t items n h hn ih =>
      obtain ⟨m, rest, rfl⟩ := List.exists_cons_of_ne_nil (List.ne_nil_of_mem h)
      obtain ⟨opening, depth, ho, heq⟩ :=
        exists_opening_sequence place indent column properties t m rest
      rw [heq]
      exact ho.onLine (onLine_items h (fun i c => ih .item i c []) depth)
  | anchored h ih =>
      rw [layout]
      exact ih ..

/-- So it does in a whole document. -/
theorem HasEntry.onLine_root {n : Node} (h : HasEntry name text n) (properties : List (List Char)) :
    OnLine true (entryLine name shown) (root properties n) := by
  have hroot : ∀ {cs : List Char} (ps : List (List Char)), OnLine true (entryLine name shown) cs →
      OnLine true (entryLine name shown)
        (if ps.isEmpty then cs else propertyLine ps ++ '\n' :: cs) := by
    intro cs ps hcs
    split
    · exact hcs
    · simpa using hcs.below (endsLine_concat (propertyLine ps)) true
  induction h generalizing properties with
  | @here t entries h =>
      have hne : entries.isEmpty = false := List.isEmpty_eq_false_iff.mpr (List.ne_nil_of_mem h)
      rw [root, hne]
      exact hroot _ (onLine_entries h (onLine_here hshown) 0)
  | @under t entries k v h hv =>
      have hne : entries.isEmpty = false := List.isEmpty_eq_false_iff.mpr (List.ne_nil_of_mem h)
      rw [root, hne]
      exact hroot _ (onLine_entries h (onLine_entry fun place i c => hv.onLine hshown place i c [])
        0)
  | @inKey t entries k v h hk =>
      have hne : entries.isEmpty = false := List.isEmpty_eq_false_iff.mpr (List.ne_nil_of_mem h)
      rw [root, hne]
      exact hroot _ (onLine_entries h (onLine_key (hk.not_isSimpleKey 0)
        fun i c => hk.onLine hshown .part i c []) 0)
  | @item t items n h hn =>
      have hne : items.isEmpty = false := List.isEmpty_eq_false_iff.mpr (List.ne_nil_of_mem h)
      rw [root, hne]
      exact hroot _ (onLine_items h (fun i c => hn.onLine hshown .item i c []) 0)
  | anchored h ih =>
      rw [root]
      exact ih _

end

end Node

end RegistryBundle.Yaml
