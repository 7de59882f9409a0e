import RegistryBundle.Proofs.Outcome
import RegistryBundle.Proofs.Value.Overlaid
import RegistryBundle.Yaml.Node.ToValue

/-!
# Documents have each key once

A document may write one key several times, and take entries over from other mappings under merge
keys. The value that is read has each key once all the same, in every mapping at any depth, as its
entries are written one after another.

* `Value.KeysOnce` are these values;
* `Yaml.Yields` says what a part of a reading gives, if it gives anything, with a rule for each way
  to put parts together;
* `Yaml.keysOnce_readOver` is the reading of a text.
-/

namespace RegistryBundle

open Outcome

/-! ## Values -/

namespace Value

variable {A : Alphabet}

mutual

/-- The mappings of a value, at any depth, have each key once. -/
def KeysOnce : Value A → Prop
  | .list items => AreKeysOnce items
  | .pair a b => KeysOnce a ∧ KeysOnce b
  | .map entries => DistinctKeys entries ∧ CarryKeysOnce entries
  | .shared _ v => KeysOnce v
  | _ => True

/-- Items that are such values. -/
def AreKeysOnce : List (Value A) → Prop
  | [] => True
  | v :: rest => KeysOnce v ∧ AreKeysOnce rest

/-- Entries that carry such values. -/
def CarryKeysOnce : List (Value A × Value A) → Prop
  | [] => True
  | (_, v) :: rest => KeysOnce v ∧ CarryKeysOnce rest

end

private theorem carryKeysOnce_iff {es : Entries A} : CarryKeysOnce es ↔ ∀ e ∈ es, KeysOnce e.2 := by
  induction es with
  | nil => simp [CarryKeysOnce]
  | cons e rest ih => rw [CarryKeysOnce, ih, List.forall_mem_cons]

theorem CarryKeysOnce.append {es fs : Entries A} (hes : CarryKeysOnce es) (hfs : CarryKeysOnce fs) :
    CarryKeysOnce (es ++ fs) := by
  rw [carryKeysOnce_iff] at *
  exact List.forall_mem_append.mpr ⟨hes, hfs⟩

/-- A write carries what is written and what was carried before. -/
theorem CarryKeysOnce.put {es : Entries A} (hes : CarryKeysOnce es) (k : Value A) {v : Value A}
    (hv : KeysOnce v) :
    CarryKeysOnce (put es k v) := by
  induction es with
  | nil => exact ⟨hv, trivial⟩
  | cons e rest ih =>
      rw [Value.put]
      split
      · exact ⟨hv, hes.2⟩
      · exact ⟨hes.1, ih hes.2⟩

/-- **What several writes make** has each key once. -/
theorem keysOnce_ofList {es : Entries A} (h : CarryKeysOnce es) : KeysOnce (.map (ofList es)) := by
  have hcarry : ∀ (l acc : Entries A), CarryKeysOnce l → CarryKeysOnce acc →
      CarryKeysOnce (l.foldl (fun acc e => Value.put acc e.1 e.2) acc) := by
    intro l
    induction l with
    | nil => exact fun _ _ hacc => hacc
    | cons e rest ih => exact fun acc hl hacc => ih _ hl.2 (hacc.put e.1 hl.1)
  rw [KeysOnce, ofList]
  exact ⟨distinctKeys_foldl_put List.Pairwise.nil es, hcarry es [] h trivial⟩

/-- The object behind the labels of a value is a value of the kind. -/
theorem KeysOnce.bare : ∀ {v : Value A}, KeysOnce v → KeysOnce v.bare
  | .shared _ v, h => KeysOnce.bare (v := v) h
  | .null, h | .bool _, h | .int _, h | .float _, h | .str _, h | .broken .., h | .bytes _, h
  | .date _, h | .moment _, h | .list _, h | .pair .., h | .set _, h | .map _, h | .foreign, h
  | .cycle _, h => h

theorem KeysOnce.distinctKeys {v : Value A} {es : Entries A} (h : KeysOnce v)
    (hv : v.bare = .map es) : DistinctKeys es := by
  have hmap := h.bare
  rw [hv, KeysOnce] at hmap
  exact hmap.1

/-- What stands under a text is such a value. -/
theorem KeysOnce.get? {v w : Value A} {es : Entries A} (h : KeysOnce v) (hv : v.bare = .map es)
    {name : String}
    (hw : get? es name = some w) : KeysOnce w := by
  have hmap := h.bare
  rw [hv, KeysOnce] at hmap
  obtain ⟨e, hfound, rfl⟩ := Option.map_eq_some_iff.mp hw
  exact carryKeysOnce_iff.mp hmap.2 e (List.mem_of_find?_eq_some hfound)

end Value

/-! ## Readings -/

namespace Yaml

open Value

variable {A : Alphabet} {ε φ α β γ : Type} {P : α → Prop} {Q : β → Prop} {R : γ → Prop}

/-- What a part of a reading gives, if it gives anything. -/
def Yields (P : α → Prop) (x : Except ε α) : Prop :=
  ∀ a, x = .ok a → P a

namespace Yields

theorem ok {a : α} (h : P a) : Yields P (.ok a : Except ε α) :=
  fun _ ha => Except.ok.inj ha ▸ h

theorem error (e : ε) : Yields P (.error e : Except ε α) :=
  nofun

theorem map {x : Except ε α} {f : α → β} (h : Yields P x) (hf : ∀ a, P a → Q (f a)) :
    Yields Q (x.map f) := by
  intro b hb
  obtain ⟨a, ha, rfl⟩ := map_eq_ok.mp hb
  exact hf a (h a ha)

theorem mapError {x : Except ε α} (h : Yields P x) (f : ε → φ) : Yields P (x.mapError f) := by
  cases x with
  | ok a => exact ok (h a rfl)
  | error e => exact error (f e)

theorem both {x : Except PlacedFault α} {y : Except PlacedFault β} {f : α → β → γ} (hx : Yields P x)
    (hy : Yields Q y)
    (hf : ∀ a b, P a → Q b → R (f a b)) : Yields R (PlacedFault.both f x y) := by
  cases x with
  | ok a =>
      cases y with
      | ok b => exact ok (hf a b (hx a rfl) (hy b rfl))
      | error e => exact error e
  | error d => cases y <;> exact error _

end Yields

/-- A scalar is no mapping. -/
theorem keysOnce_scalar (r : Version) (t : Tag) (cs : List Char) :
    Yields KeysOnce (ScalarText.value r t cs : Except Fault (Value A)) := by
  have hmap : ∀ {α : Type} (x : Except Fault α) (f : α → Value A), (∀ a, KeysOnce (f a)) →
      Yields KeysOnce (x.map f) :=
    fun x f hf => Yields.map (P := fun _ => True) (fun _ _ => trivial) fun a _ => hf a
  unfold ScalarText.value
  split
  · exact .ok trivial
  · exact hmap _ _ fun _ => trivial
  · exact hmap _ _ fun _ => trivial
  · exact hmap _ _ fun _ => trivial
  · unfold ScalarText.timestamp
    split
    · exact .error _
    · dsimp only
      split <;> split <;> first | exact .ok trivial | exact .error _
  · exact .ok trivial
  · unfold ScalarText.octets
    split
    · split
      · exact .ok trivial
      · exact .error _
    · exact .error _
  · exact .error _

namespace Node

private theorem keysOnce_brokenValue (h : A = .letters) (t : Tag) (text : BrokenText) :
    Yields KeysOnce (ScalarText.brokenValue h t text) := by
  unfold ScalarText.brokenValue
  split <;> first | exact .ok trivial | exact .error _

mutual

private theorem keysOnce_scalarValue (r : Version) (t : Tag) :
    ∀ n : Node A, Yields KeysOnce (scalarValue r t n)
  | .scalar _ cs => by
      rw [scalarValue.eq_def]
      exact keysOnce_scalar r t cs
  | .broken h _ text => by
      rw [scalarValue.eq_def]
      exact keysOnce_brokenValue h t text
  | .mapping _ entries => by
      rw [scalarValue.eq_def]
      exact keysOnce_scalarValueOfEntries r t entries
  | .anchored _ n => by
      rw [scalarValue.eq_def]
      exact keysOnce_scalarValue r t n
  | .sequence .. | .reference _ => by
      rw [scalarValue.eq_def]
      exact .error _

private theorem keysOnce_scalarValueOfEntries (r : Version) (t : Tag) :
    ∀ entries : List (Node A × Node A), Yields KeysOnce (scalarValueOfEntries r t entries)
  | [] => by
      rw [scalarValueOfEntries.eq_def]
      exact .error _
  | (k, v) :: rest => by
      rw [scalarValueOfEntries.eq_def]
      dsimp only
      split
      · exact keysOnce_scalarValue r t v
      · exact keysOnce_scalarValueOfEntries r t rest

end

private theorem keysOnce_labelValue {l : Nat} {v : Value A} (h : KeysOnce v) :
    KeysOnce (labelValue l v) := by
  unfold labelValue
  split <;> exact h

/-- The entries of a mapping are written one after another. -/
theorem keysOnce_entriesOf (r : Version) (depth : Nat) (merges : Bool)
    {parts : Except PlacedFault (Entries A × Entries A)}
    (h : Yields (fun e => CarryKeysOnce e.1 ∧ CarryKeysOnce e.2) parts) :
    Yields (fun es => KeysOnce (.map es)) (entriesOf r depth merges parts) := by
  cases parts with
  | error e => exact .error e
  | ok e =>
      obtain ⟨hmerged, hown⟩ := h e rfl
      rw [entriesOf]
      split
      · exact .error _
      · exact .ok (keysOnce_ofList (hmerged.append hown))

mutual

/-- **The value of a node** has each key once. -/
theorem keysOnce_construct (r : Version) (depth : Nat) :
    ∀ n : Node A, Yields KeysOnce (construct r depth n)
  | .scalar t cs => by
      rw [construct.eq_def]
      dsimp only
      split
      all_goals first
        | exact .error _
        | exact (keysOnce_scalar r _ cs).mapError _
  | .broken h t text => by
      rw [construct.eq_def]
      dsimp only
      split
      all_goals first
        | exact .error _
        | exact (keysOnce_brokenValue h _ text).mapError _
  | .sequence t items => by
      rw [construct.eq_def]
      dsimp only
      split
      · exact (areKeysOnce_constructItems r (depth + 1) items).map fun _ h => h
      · exact (areKeysOnce_constructPairs r (depth + 1) items).map fun _ h => h
      · exact (areKeysOnce_constructPairs r (depth + 1) items).map fun _ h => h
      all_goals exact .error _
  | .mapping t entries => by
      have hentries := keysOnce_entriesOf r (depth + 1) (entries.any fun e => e.1.isMergeKey)
        (carryKeysOnce_constructEntries r (depth + 1) entries)
      rw [construct.eq_def]
      dsimp only
      -- A mapping, a set of its keys, or the scalar under the key `=`.
      split
      · split
        · exact hentries.map fun _ h => h
        · exact .error _
      · split
        · exact hentries.map fun _ _ => trivial
        · exact .error _
      all_goals first
        | exact .error _
        | exact (keysOnce_scalarValueOfEntries r _ entries).mapError _
  | .anchored l n => by
      rw [construct.eq_def]
      exact (keysOnce_construct r depth n).map fun _ h => keysOnce_labelValue h
  | .reference l => by
      rw [construct.eq_def]
      exact .ok trivial

private theorem areKeysOnce_constructItems (r : Version) (depth : Nat) :
    ∀ items : List (Node A), Yields AreKeysOnce (constructItems r depth items)
  | [] => by
      rw [constructItems.eq_def]
      exact .ok trivial
  | n :: rest => by
      rw [constructItems.eq_def]
      exact (keysOnce_construct r depth n).both (areKeysOnce_constructItems r depth rest)
        fun _ _ hv hrest => ⟨hv, hrest⟩

private theorem keysOnce_constructPair (r : Version) (depth : Nat) :
    ∀ n : Node A, Yields KeysOnce (constructPair r depth n)
  | .mapping _ [(k, v)] => by
      rw [constructPair.eq_def]
      exact (keysOnce_construct r depth k).both (keysOnce_construct r depth v) fun _ _ hk hv =>
        ⟨hk, hv⟩
  | .anchored _ n => by
      rw [constructPair.eq_def]
      exact keysOnce_constructPair r depth n
  | .mapping _ [] | .mapping _ (_ :: _ :: _) | .scalar .. | .broken .. | .sequence ..
  | .reference _ => by
      rw [constructPair.eq_def]
      exact .error _

private theorem areKeysOnce_constructPairs (r : Version) (depth : Nat) :
    ∀ items : List (Node A), Yields AreKeysOnce (constructPairs r depth items)
  | [] => by
      rw [constructPairs.eq_def]
      exact .ok trivial
  | n :: rest => by
      rw [constructPairs.eq_def]
      exact (keysOnce_constructPair r depth n).both (areKeysOnce_constructPairs r depth rest)
        fun _ _ hv hrest => ⟨hv, hrest⟩

private theorem carryKeysOnce_constructEntries (r : Version) (depth : Nat) :
    ∀ entries : List (Node A × Node A), Yields (fun e => CarryKeysOnce e.1 ∧ CarryKeysOnce e.2)
    (constructEntries r depth entries)
  | [] => by
      rw [constructEntries.eq_def]
      exact .ok ⟨trivial, trivial⟩
  | (k, v) :: rest => by
      have hrest := carryKeysOnce_constructEntries r depth rest
      rw [constructEntries.eq_def]
      dsimp only
      split
      · exact (carryKeysOnce_mergedEntries r depth v).both hrest fun _ _ hmerged h =>
          ⟨hmerged.append h.1, h.2⟩
      · -- Nothing is said of the key: a mapping is none.
        have hentry : Yields (fun e : Value A × Value A => KeysOnce e.2)
            (PlacedFault.both Prod.mk (constructKey r depth k) (construct r depth v)) :=
          Yields.both (P := fun _ => True) (fun _ _ => trivial) (keysOnce_construct r depth v)
            fun _ _ _ hv => hv
        exact hentry.both hrest fun _ _ hv h => ⟨h.1, hv, h.2⟩

private theorem carryKeysOnce_mergedEntries (r : Version) (depth : Nat) :
    ∀ n : Node A, Yields CarryKeysOnce (mergedEntries r depth n)
  | .mapping _ entries => by
      rw [mergedEntries.eq_def]
      exact (carryKeysOnce_constructEntries r depth entries).map fun _ h => h.1.append h.2
  | .sequence _ items => by
      rw [mergedEntries.eq_def]
      exact carryKeysOnce_mergedItems r depth items
  | .anchored _ n => by
      rw [mergedEntries.eq_def]
      exact carryKeysOnce_mergedEntries r depth n
  | .scalar .. | .broken .. | .reference _ => by
      rw [mergedEntries.eq_def]
      exact .ok trivial

private theorem carryKeysOnce_mergedItems (r : Version) (depth : Nat) :
    ∀ items : List (Node A), Yields CarryKeysOnce (mergedItems r depth items)
  | [] => by
      rw [mergedItems.eq_def]
      exact .ok trivial
  | n :: rest => by
      rw [mergedItems.eq_def]
      exact (carryKeysOnce_mergedEntries r depth n).both (carryKeysOnce_mergedItems r depth rest)
        fun _ _ h hrest => hrest.append h

end

end Node

/-- **The value of a text** has each key once, in every mapping at any depth. -/
theorem keysOnce_readOver {r : Version} {s : String} {v : Value A} (h : readOver A r s = .ok v) :
    KeysOnce v := by
  obtain ⟨node, -, hnode⟩ := bind_eq_ok.mp h
  cases node with
  | none =>
      obtain rfl := Except.ok.inj hnode
      exact trivial
  | some n =>
      have hvalue : n.toValue r = .ok v := hnode
      unfold Node.toValue at hvalue
      split at hvalue
      · next w hw =>
          obtain rfl := Except.ok.inj hvalue
          exact Node.keysOnce_construct r 0 n w hw
      · contradiction

theorem keysOnce_readAs {r : Version} {s : String} {v : Value} (h : readAs r s = .ok v) :
    KeysOnce v :=
  keysOnce_readOver h

end Yaml

end RegistryBundle
