import RegistryBundle.Document
import RegistryBundle.Proofs.Outcome
import RegistryBundle.Proofs.Value.Entries

/-!
# What can be written

A value has a page unless some part of it, at any depth, is a foreign object or a whole
number that is too long.

* `Value.holds` asks for a part at any depth, `Value.isForeign` and `Value.isLong` are the two that
  cannot be written;
* `Yaml.Settles` is what an attempt to write tells of these parts, `Yaml.Node.settles_ofValue` is
  induction on values;
* `Document.encode_cases` says how writing ends, `Document.encode_of_holds` and
  `Document.encode_of_not_holds` are the two ends without long numbers.
-/

namespace RegistryBundle

namespace Value

mutual

/-- Some part of a value passes a test: the value itself, or what stands in it at
any depth, keys included. -/
def holds (p : Value → Bool) : Value → Bool
  | .list items => p (.list items) || holdsItems p items
  | .pair a b => p (.pair a b) || (a.holds p || b.holds p)
  | .set items => p (.set items) || holdsItems p items
  | .map entries => p (.map entries) || holdsEntries p entries
  | .shared l v => p (.shared l v) || v.holds p
  | v => p v

/-- Some part of an item does. -/
def holdsItems (p : Value → Bool) : List Value → Bool
  | [] => false
  | v :: rest => v.holds p || holdsItems p rest

/-- Some part of a key or a value does. -/
def holdsEntries (p : Value → Bool) : List (Value × Value) → Bool
  | [] => false
  | (k, v) :: rest => (k.holds p || v.holds p) || holdsEntries p rest

end

/-- An object that no document can hold. -/
def isForeign : Value → Bool
  | .foreign => true
  | _ => false

/-- A whole number that has no text. -/
def isLong : Value → Bool
  | .int n => (intText? n).isNone
  | _ => false

/-- A number with one digit too many. -/
def longNumber : Int :=
  Nat.pow 10 maxDigits

theorem intText?_longNumber : intText? longNumber = none := by
  have hdigits : ∀ n, 0 < n → ¬ (Nat.toDigits 10 (Nat.pow 10 n)).length ≤ n := by
    intro n hn
    rw [Nat.length_toDigits_le_iff (by decide) hn, Nat.pow_eq]
    exact Nat.lt_irrefl _
  rw [intText?, longNumber, Int.natAbs_natCast]
  exact if_neg (hdigits maxDigits (by decide))

/-- Among entries a part is found in one of them. -/
theorem holdsEntries_eq_any (p : Value → Bool) (entries : Entries) :
    holdsEntries p entries = entries.any fun e => e.1.holds p || e.2.holds p := by
  induction entries with
  | nil => rfl
  | cons e rest ih => rw [holdsEntries, ih, List.any_cons]

/-- Entries without a part hold none after one more write without it. -/
theorem holdsEntries_put {p : Value → Bool} {entries : Entries} (h : holdsEntries p entries = false)
    {key v : Value} (hkey : key.holds p = false) (hv : v.holds p = false) :
    holdsEntries p (put entries key v) = false := by
  induction entries with
  | nil => simp [put, holdsEntries, hkey, hv]
  | cons e rest ih =>
      obtain ⟨k, w⟩ := e
      simp only [holdsEntries, Bool.or_eq_false_iff] at h
      rw [put]
      split
      · simp [holdsEntries, h, hv]
      · simp [holdsEntries, h, ih h.2]

/-- So it is after several. -/
theorem holdsEntries_foldl_put {p : Value → Bool} {entries acc : Entries}
    (h : holdsEntries p entries = false)
    (hacc : holdsEntries p acc = false) :
    holdsEntries p (entries.foldl (fun acc e => put acc e.1 e.2) acc) = false := by
  induction entries generalizing acc with
  | nil => exact hacc
  | cons e rest ih =>
      obtain ⟨k, v⟩ := e
      simp only [holdsEntries, Bool.or_eq_false_iff] at h
      exact ih h.2 (holdsEntries_put hacc h.1.1 h.1.2)

end Value

namespace Yaml

open Value

/-- What an attempt to write tells of what is written: it gives a result only without numbers that
are too long and without foreign objects, and it fails for one of the two that is there. -/
structure Settles {α : Type} (long foreign : Bool) (x : Except WriteError α) : Prop where
  written : ∀ a, x = .ok a → long = false ∧ foreign = false
  longInteger : x = .error .longInteger → long = true
  foreignObject : x = .error .foreignObject → foreign = true

namespace Settles

variable {α β : Type} {b b' c c' : Bool} {x : Except WriteError α}
  {l : List (Value × Except WriteError α)}

theorem ok (a : α) : Settles false false (.ok a : Except WriteError α) :=
  ⟨fun _ _ => ⟨rfl, rfl⟩, nofun, nofun⟩

theorem map (h : Settles b c x) (f : α → β) : Settles b c (x.map f) := by
  cases x with
  | ok a => exact ⟨fun _ _ => h.written a rfl, nofun, nofun⟩
  | error e =>
      refine ⟨nofun, fun he => h.longInteger ?_, fun he => h.foreignObject ?_⟩ <;>
        exact congrArg _ (Except.error.inj he)

/-- **Two attempts**, of which the second does not depend on what the first gives. -/
theorem bind {f : α → Except WriteError β} (h : Settles b c x) (hf : ∀ a, Settles b' c' (f a)) :
    Settles (b || b') (c || c') (x >>= f) := by
  cases x with
  | ok a =>
      obtain ⟨rfl, rfl⟩ := h.written a rfl
      exact hf a
  | error e =>
      refine ⟨nofun, fun he => ?_, fun he => ?_⟩
      · rw [h.longInteger (congrArg _ (Except.error.inj he)), Bool.true_or]
      · rw [h.foreignObject (congrArg _ (Except.error.inj he)), Bool.true_or]

/-- Several attempts that each go with a key. -/
structure All (long foreign : Bool) (l : List (Value × Except WriteError α)) : Prop where
  written : (∀ e ∈ l, ∃ a, e.2 = .ok a) → long = false ∧ foreign = false
  longInteger : ∀ e ∈ l, e.2 = .error .longInteger → long = true
  foreignObject : ∀ e ∈ l, e.2 = .error .foreignObject → foreign = true

theorem All.nil : All false false ([] : List (Value × Except WriteError α)) :=
  ⟨fun _ => ⟨rfl, rfl⟩, fun _ he => absurd he List.not_mem_nil,
    fun _ he => absurd he List.not_mem_nil⟩

/-- One attempt more. -/
theorem All.cons (h : Settles b c x) (hl : All b' c' l) (k : Value) :
    All (b || b') (c || c') ((k, x) :: l) := by
  refine ⟨fun hall => ?_, fun e he hlong => ?_, fun e he hforeign => ?_⟩
  · obtain ⟨a, ha⟩ := hall (k, x) List.mem_cons_self
    obtain ⟨rfl, rfl⟩ := h.written a ha
    exact hl.written fun e he => hall e (List.mem_cons_of_mem _ he)
  · rcases List.mem_cons.mp he with rfl | he
    · rw [h.longInteger hlong, Bool.true_or]
    · rw [hl.longInteger e he hlong, Bool.or_true]
  · rcases List.mem_cons.mp he with rfl | he
    · rw [h.foreignObject hforeign, Bool.true_or]
    · rw [hl.foreignObject e he hforeign, Bool.or_true]

/-- One after another they give a result if each does, and fail as one of them does. -/
theorem mapM_cases (l : List (Value × Except WriteError α)) :
    (∃ as, l.mapM Prod.snd = .ok as) ∧ (∀ e ∈ l, ∃ a, e.2 = .ok a) ∨
      ∃ f, l.mapM Prod.snd = .error f ∧ ∃ e ∈ l, e.2 = .error f := by
  induction l with
  | nil => exact .inl ⟨⟨[], rfl⟩, fun _ he => absurd he List.not_mem_nil⟩
  | cons e rest ih =>
      rw [List.mapM_cons]
      cases he : e.2 with
      | error f => exact .inr ⟨f, rfl, e, List.mem_cons_self, he⟩
      | ok a =>
          obtain ⟨⟨as, has⟩, hall⟩ | ⟨f, hf, g, hg, hgf⟩ := ih
          · rw [has]
            refine .inl ⟨⟨a :: as, rfl⟩, fun g hg => ?_⟩
            rcases List.mem_cons.mp hg with rfl | hg
            · exact ⟨a, he⟩
            · exact hall g hg
          · rw [hf]
            exact .inr ⟨f, rfl, g, List.mem_cons_of_mem e hg, hgf⟩

/-- The order of the keys makes no difference to what they tell. -/
theorem All.mapM_sorted (h : All b c l) : Settles b c ((sortByKey l).mapM Prod.snd) := by
  have hmem : ∀ e, e ∈ sortByKey l ↔ e ∈ l := fun e => (sortByKey_perm l).mem_iff
  obtain ⟨⟨as, has⟩, hall⟩ | ⟨f, hf, e, he, hef⟩ :=
    mapM_cases (sortByKey l) <;> simp only [hmem] at *
  · rw [has]
    exact ⟨fun _ _ => h.written hall, nofun, nofun⟩
  · rw [hf]
    refine ⟨nofun, fun heq => h.longInteger e he ?_, fun heq => h.foreignObject e he ?_⟩
    · rw [hef, Except.error.inj heq]
    · rw [hef, Except.error.inj heq]

end Settles

namespace Node

mutual

/-- **An attempt to write a value** tells which of the two it holds. -/
theorem settles_ofValue : ∀ v : Value, Settles (v.holds isLong) (v.holds isForeign) (ofValue v)
  | .null => .ok _
  | .bool _ => .ok _
  | .int n => by
      have hlong : (Value.int n).holds isLong = (intText? n).isNone := rfl
      have hforeign : (Value.int n).holds isForeign = false := rfl
      rw [hlong, hforeign, ofValue]
      cases intText? n with
      | some s => exact .ok _
      | none => exact ⟨nofun, fun _ => rfl, nofun⟩
  | .float _ => .ok _
  | .str _ => .ok _
  | .bytes _ => .ok _
  | .date _ => .ok _
  | .moment _ => .ok _
  | .list items => (settles_ofItems items).map _
  | .pair a b => (settles_ofValue a).bind fun x => (settles_ofValue b).map fun y =>
      sequence .seq [x, y]
  | .set items => (settles_ofMembers items).mapM_sorted.map (mapping .set)
  | .map entries => (settles_ofEntries entries).mapM_sorted.map (mapping .map)
  | .foreign => ⟨nofun, nofun, fun _ => rfl⟩
  | .shared _ v => (settles_ofValue v).map _
  | .cycle _ => .ok _

/-- So do items. -/
theorem settles_ofItems : ∀ items : List Value,
    Settles (holdsItems isLong items) (holdsItems isForeign items) (ofItems items)
  | [] => .ok _
  | v :: rest => (settles_ofValue v).bind fun n => (settles_ofItems rest).map fun ns => n :: ns

/-- So do the members of a set. -/
theorem settles_ofMembers : ∀ items : List Value,
    Settles.All (holdsItems isLong items) (holdsItems isForeign items) (ofMembers items)
  | [] => .nil
  | v :: rest => .cons ((settles_ofValue v).map _) (settles_ofMembers rest) v

/-- So do entries. -/
theorem settles_ofEntries : ∀ entries : List (Value × Value),
    Settles.All (holdsEntries isLong entries) (holdsEntries isForeign entries) (ofEntries entries)
  | [] => .nil
  | (k, v) :: rest =>
      .cons ((settles_ofValue k).bind fun x => (settles_ofValue v).map fun y => (x, y))
        (settles_ofEntries rest) k

end

end Node

end Yaml

namespace Document

open Value Yaml

variable {v : Value}

/-- **A value is written** unless it holds a number that is too long or a foreign object, and it
fails for one of them. -/
theorem encode_cases (v : Value) :
    (∃ page, encode v = .ok page) ∧ v.holds isLong = false ∧ v.holds isForeign = false ∨
      encode v = .error (.breach .range) ∧ v.holds isLong = true ∨
        encode v = .error (.unwritable v.typeName) ∧ v.holds isForeign = true := by
  have hsettles := Node.settles_ofValue v
  rw [encode, Yaml.write]
  generalize Node.ofValue v = x at hsettles
  obtain (_ | _) | n := x
  · exact .inr (.inr ⟨rfl, hsettles.foreignObject rfl⟩)
  · exact .inr (.inl ⟨rfl, hsettles.longInteger rfl⟩)
  · exact .inl ⟨⟨_, rfl⟩, hsettles.written n rfl⟩

/-- **A value that holds one of them** has no page. -/
theorem exists_encode_error (h : v.holds isLong = true ∨ v.holds isForeign = true) :
    ∃ f, encode v = .error f := by
  obtain ⟨-, hlong, hforeign⟩ | ⟨hencode, -⟩ | ⟨hencode, -⟩ := encode_cases v
  · simp [hlong, hforeign] at h
  · exact ⟨_, hencode⟩
  · exact ⟨_, hencode⟩

/-- **A foreign object** at any depth refuses the whole document. -/
theorem encode_of_holds (hlong : v.holds isLong = false) (h : v.holds isForeign = true) :
    encode v = .error (.unwritable v.typeName) := by
  obtain ⟨-, -, hnone⟩ | ⟨-, hlong'⟩ | ⟨hencode, -⟩ := encode_cases v
  · exact absurd (hnone.symm.trans h) Bool.false_ne_true
  · exact absurd (hlong.symm.trans hlong') Bool.false_ne_true
  · exact hencode

/-- **A document without one** has a page. -/
theorem encode_of_not_holds (hlong : v.holds isLong = false) (h : v.holds isForeign = false) :
    ∃ page, encode v = .ok page := by
  obtain ⟨hpage, -⟩ | ⟨-, hlong'⟩ | ⟨-, hforeign⟩ := encode_cases v
  · exact hpage
  · exact absurd (hlong.symm.trans hlong') Bool.false_ne_true
  · exact absurd (h.symm.trans hforeign) Bool.false_ne_true

end Document

end RegistryBundle
