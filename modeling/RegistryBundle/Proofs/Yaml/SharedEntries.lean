import RegistryBundle.Proofs.Yaml.EntryLine

/-!
# Entries of objects that stand at several places

An object that stands at several places of a document is written at the first of them, and the
others refer to it. All its entries are written there.

* `Node.Coherent` says that each label means one object;
* `Node.Lost` are the entries that a label whose object was written before keeps from being written
  again, `Node.Keeps` says that none is lost but for these (`Node.keeps_settle`);
* `Node.HasEntry.fold`: in a whole document no entry is lost.
-/

namespace RegistryBundle.Yaml.Node

mutual

/-- Every label means one object. -/
def Coherent (meaning : Nat → Node) : Node → Prop
  | .scalar .. => True
  | .sequence _ items => CoherentItems meaning items
  | .mapping _ entries => CoherentEntries meaning entries
  | .anchored l n => n = meaning l ∧ Coherent meaning n
  | .reference _ => True

/-- The same in items. -/
def CoherentItems (meaning : Nat → Node) : List Node → Prop
  | [] => True
  | n :: rest => Coherent meaning n ∧ CoherentItems meaning rest

/-- The same in entries. -/
def CoherentEntries (meaning : Nat → Node) : List (Node × Node) → Prop
  | [] => True
  | (k, v) :: rest => Coherent meaning k ∧ Coherent meaning v ∧ CoherentEntries meaning rest

end

variable {meaning : Nat → Node} {name text : List Char}

/-- The entry stands in an object of less than some size that was written before. -/
def Lost (meaning : Nat → Node) (name text : List Char) (size : Nat) (written : List Nat) : Prop :=
  ∃ l ∈ written, HasEntry name text (meaning l) ∧ sizeOf (meaning l) < size

theorem Lost.mono {size size' : Nat} {written : List Nat} (h : Lost meaning name text size written)
    (hle : size ≤ size') : Lost meaning name text size' written := by
  obtain ⟨l, hl, hentry, hlt⟩ := h
  exact ⟨l, hl, hentry, Nat.lt_of_lt_of_le hlt hle⟩

private theorem lost_cons {size l : Nat} {written : List Nat} :
    Lost meaning name text size (l :: written) ↔
    (HasEntry name text (meaning l) ∧ sizeOf (meaning l) < size) ∨
      Lost meaning name text size written := by
  simp [Lost]

/-- What becomes of an entry where labels are settled: it is still found if it was found
before, and if some object that has it was written on the way, unless it was written
before in a smaller object. -/
structure Keeps (meaning : Nat → Node) (name text : List Char) (before after : Prop) (size : Nat)
    (written written' : List Nat) : Prop where
  found : before → after ∨ Lost meaning name text size written
  lost : ∀ k, Lost meaning name text k written' → after ∨ Lost meaning name text k written

namespace Keeps

variable {before after before' after' : Prop} {size size' k : Nat}
  {written written' written'' : List Nat}

/-- Where nothing is settled. -/
theorem refl (h : before → after) (size : Nat) (written : List Nat) :
    Keeps meaning name text before after size written written :=
  ⟨fun hb => .inl (h hb), fun _ hl => .inr hl⟩

/-- One part after another. -/
theorem both (h : Keeps meaning name text before after size written written')
    (h' : Keeps meaning name text before' after' size' written' written'') (hle : size ≤ k)
    (hle' : size' ≤ k) :
    Keeps meaning name text (before ∨ before') (after ∨ after') k written written'' := by
  constructor
  · rintro (hb | hb)
    · exact (h.found hb).imp .inl fun hl => hl.mono hle
    · rcases h'.found hb with ha | hl
      · exact .inl (.inr ha)
      · exact (h.lost _ hl).imp .inl fun hl => hl.mono hle'
  · intro k hl
    rcases h'.lost k hl with ha | hl
    · exact .inl (.inr ha)
    · exact (h.lost k hl).imp .inl id

theorem imp (h : Keeps meaning name text before after size written written') (hb : before' → before)
    (ha : after → after') (hle : size ≤ k) :
      Keeps meaning name text before' after' k written written' :=
  ⟨fun hb' => (h.found (hb hb')).imp ha fun hl => hl.mono hle, fun k hl => (h.lost k hl).imp ha id⟩

end Keeps

private theorem hasEntry_items {t : Tag} {n : Node} {rest : List Node} :
    HasEntry name text (.sequence t (n :: rest)) ↔ HasEntry name text n ∨
      HasEntry name text (.sequence t rest) := by
  constructor
  · intro h
    cases h with
    | item hm hn =>
        rcases List.mem_cons.mp hm with rfl | hm
        · exact .inl hn
        · exact .inr (.item hm hn)
  · rintro (hn | h)
    · exact .item List.mem_cons_self hn
    · cases h with
      | item hm hn => exact .item (List.mem_cons_of_mem n hm) hn

/-- An entry is the first of a mapping, inside it, or among the others. -/
theorem hasEntry_entries {t : Tag} {k v : Node} {rest : List (Node × Node)} :
    HasEntry name text (.mapping t ((k, v) :: rest)) ↔
      (((k, v) = (.scalar .str name, .scalar .str text) ∨ HasEntry name text k) ∨
        HasEntry name text v) ∨ HasEntry name text (.mapping t rest) := by
  constructor
  · intro h
    cases h with
    | here hm =>
        rcases List.mem_cons.mp hm with heq | hm
        · exact .inl (.inl (.inl heq.symm))
        · exact .inr (.here hm)
    | under hm hv =>
        rcases List.mem_cons.mp hm with heq | hm
        · obtain ⟨rfl, rfl⟩ := Prod.mk.inj heq
          exact .inl (.inr hv)
        · exact .inr (.under hm hv)
    | inKey hm hk =>
        rcases List.mem_cons.mp hm with heq | hm
        · obtain ⟨rfl, rfl⟩ := Prod.mk.inj heq
          exact .inl (.inl (.inr hk))
        · exact .inr (.inKey hm hk)
  · rintro (((heq | hk) | hv) | h)
    · exact .here (heq ▸ List.mem_cons_self)
    · exact .inKey List.mem_cons_self hk
    · exact .under List.mem_cons_self hv
    · cases h with
      | here hm => exact .here (List.mem_cons_of_mem _ hm)
      | under hm hv => exact .under (List.mem_cons_of_mem _ hm) hv
      | inKey hm hk => exact .inKey (List.mem_cons_of_mem _ hm) hk

mutual

/-- **No entry is lost** but with an object that was written before. By induction on the node; an
object is larger than those inside it, so none of its entries is lost with the object itself. -/
theorem keeps_settle : ∀ n : Node, Coherent meaning n → ∀ again written,
    Keeps meaning name text (HasEntry name text n) (HasEntry name text (settle again written n).1)
      (sizeOf n) written
      (settle again written n).2
  | .scalar t s, _, again, written => .refl id _ written
  | .sequence t items, h, again, written => by
      rw [settle]
      exact (keeps_settleItems items h again written t).imp id id (by simp)
  | .mapping t entries, h, again, written => by
      rw [settle]
      exact (keeps_settleEntries entries h again written t).imp id id (by simp)
  | .reference l, _, again, written => .refl nofun _ written
  | .anchored l n, h, again, written => by
      obtain ⟨hn, hinside⟩ := h
      have hentry : HasEntry name text (.anchored l n) → HasEntry name text n := fun h => by
        cases h with
        | anchored h => exact h
      rw [settle]
      split
      · next hl =>
          have hl : l ∈ written := by simpa using hl
          have hsize : sizeOf (meaning l) < sizeOf (anchored l n) := by
            rw [← hn, anchored.sizeOf_spec]
            omega
          exact ⟨fun hb => .inr ⟨l, hl, hn ▸ hentry hb, hsize⟩, fun k hk => .inr hk⟩
      · split
        · have ih := keeps_settle n hinside again (l :: written)
          have hfound : HasEntry name text n →
              HasEntry name text (settle again (l :: written) n).1 ∨
                Lost meaning name text (sizeOf n) written := by
            intro hb
            refine (ih.found hb).imp id fun hlost => ?_
            rcases lost_cons.mp hlost with ⟨-, hlt⟩ | hlost
            · rw [← hn] at hlt
              exact absurd hlt (Nat.lt_irrefl _)
            · exact hlost
          refine ⟨fun hb => (hfound (hentry hb)).imp .anchored fun hlost => hlost.mono (by simp),
            fun k hlost => ?_⟩
          rcases ih.lost k hlost with ha | hlost
          · exact .inl (.anchored ha)
          · rcases lost_cons.mp hlost with ⟨hb, hlt⟩ | hlost
            · rw [← hn] at hb hlt
              exact (hfound hb).imp .anchored fun hlost => hlost.mono (Nat.le_of_lt hlt)
            · exact .inr hlost
        · exact (keeps_settle n hinside again written).imp hentry id (by simp)

/-- The same of items. -/
theorem keeps_settleItems : ∀ items : List Node, CoherentItems meaning items → ∀ again written t,
    Keeps meaning name text (HasEntry name text (.sequence t items))
      (HasEntry name text (.sequence t (settleItems again written items).1)) (sizeOf items) written
      (settleItems again written items).2
  | [], _, again, written, t => .refl id _ written
  | n :: rest, h, again, written, t => by
      rw [settleItems, hasEntry_items, hasEntry_items]
      exact (keeps_settle n h.1 again written).both (keeps_settleItems rest h.2 again _ t)
        (by simp; omega) (by simp)

/-- The same of entries. -/
theorem keeps_settleEntries : ∀ entries : List (Node × Node), CoherentEntries meaning entries →
    ∀ again written t, Keeps meaning name text (HasEntry name text (.mapping t entries))
      (HasEntry name text (.mapping t (settleEntries again written entries).1))
        (sizeOf entries) written
      (settleEntries again written entries).2
  | [], _, again, written, t => .refl id _ written
  | (k, v) :: rest, h, again, written, t => by
      rw [settleEntries, hasEntry_entries, hasEntry_entries]
      have hentry : (k, v) = (.scalar .str name, .scalar .str text) →
          ((settle again written k).1, (settle again (settle again written k).2 v).1) =
            (.scalar .str name, .scalar .str text) := by
        intro heq
        obtain ⟨rfl, rfl⟩ := Prod.mk.inj heq
        rfl
      have hkey := Keeps.both (.refl hentry 0 written) (keeps_settle k h.1 again written)
        (Nat.zero_le _) (Nat.le_refl _)
      have hvalue := hkey.both (keeps_settle v h.2.1 again _) (Nat.le_add_right _ _)
        (Nat.le_add_left _ _)
      exact hvalue.both (keeps_settleEntries rest h.2.2 again _ t) (by simp; omega) (by simp)

end

/-- **In a whole document** no entry is lost. -/
theorem HasEntry.fold {n : Node} (h : HasEntry name text n) (hcoherent : Coherent meaning n) :
    HasEntry name text n.fold := by
  rcases (keeps_settle n hcoherent (meet {} n).again []).found h with hfold | ⟨l, hl, -⟩
  · exact hfold
  · exact absurd hl List.not_mem_nil

end RegistryBundle.Yaml.Node
