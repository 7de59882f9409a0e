import RegistryBundle.Proofs.Value.Overlaid

/-!
# Entries made in another order

Two values say the same if they differ only in the order in which the entries of their mappings were
made, whatever stands around these mappings and in them.

* `Value.Keyed` are the values whose mappings all have texts for keys, each once;
* `Value.Reordered` says of two values that one is the other with entries in another order;
* `Value.Reordered.get?_rel` and `Value.Reordered.asText_eq` say what is read from them;
* `Value.put_perm` is a write to entries in another order.
-/

namespace RegistryBundle.Value

variable {α : Type} {es fs l : List (Value × α)}

/-! ## Keys that are texts -/

/-- Texts are distinct keys exactly if they differ. -/
theorem distinctKeys_iff_nodup (hkeys : TextKeys es) :
    DistinctKeys es ↔ (es.map Prod.fst).Nodup := by
  rw [DistinctKeys, List.Nodup, List.pairwise_map]
  apply List.Pairwise.iff_of_mem
  intro e f he hf
  obtain ⟨s, hs⟩ := hkeys e he
  obtain ⟨t, ht⟩ := hkeys f hf
  rw [hs, ht, sameKey_str_str, beq_eq_false_iff_ne, Ne, Ne, Value.str.injEq]

theorem TextKeys.of_perm (hkeys : TextKeys es) (h : es.Perm l) : TextKeys l :=
  fun e he => hkeys e (h.mem_iff.mpr he)

/-- Keys stay distinct in another order. -/
theorem DistinctKeys.of_perm (hes : DistinctKeys es) (hkeys : TextKeys es) (h : es.Perm l) :
    DistinctKeys l := by
  rw [distinctKeys_iff_nodup (hkeys.of_perm h)]
  exact (h.map Prod.fst).nodup_iff.mp ((distinctKeys_iff_nodup hkeys).mp hes)

/-! ## Writes -/

/-- What several writes make does not depend on what the entries carry. -/
theorem map_foldl_put {β : Type} (f : α → β) (l acc : List (Value × α)) :
    (l.foldl (fun acc e => put acc e.1 e.2) acc).map (fun e => (e.1, f e.2)) =
      (l.map fun e => (e.1, f e.2)).foldl (fun acc e => put acc e.1 e.2)
        (acc.map fun e => (e.1, f e.2)) := by
  induction l generalizing acc with
  | nil => rfl
  | cons e rest ih => rw [List.foldl_cons, ih, map_put, List.map_cons, List.foldl_cons]

/-- A write under a text leaves the other entries, and one under that text. -/
theorem put_perm_cons (hkeys : TextKeys es) (h : DistinctKeys es) (s : String) (a : α) :
    (put es (.str s) a).Perm ((.str s, a) :: erase es s) := by
  induction es with
  | nil => exact .refl _
  | cons e rest ih =>
      obtain ⟨k, b⟩ := e
      obtain ⟨t, rfl⟩ := hkeys (k, b) List.mem_cons_self
      obtain ⟨hhead, hrest⟩ := List.pairwise_cons.mp h
      rw [put, erase, List.filter_cons, sameKey_str_str]
      by_cases heq : t = s
      · subst heq
        -- The key is there, so no other entry is under it.
        simp [filter_of_apart hhead]
      · simp only [beq_eq_false_iff_ne.mpr heq, Bool.false_eq_true, if_false, Bool.not_false,
          if_true]
        have hput := ih (fun f hf => hkeys f (List.mem_cons_of_mem _ hf)) hrest
        exact (hput.cons _).trans (List.Perm.swap _ _ _)

/-- **A write under a text** to entries in another order. -/
theorem put_perm (hkeys : TextKeys es) (hes : DistinctKeys es) (h : es.Perm l) (s : String)
    (a : α) :
    (put es (.str s) a).Perm (put l (.str s) a) := by
  have hothers : (erase es s).Perm (erase l s) := h.filter _
  have hl := put_perm_cons (hkeys.of_perm h) (hes.of_perm hkeys h) s a
  exact (put_perm_cons hkeys hes s a).trans ((hothers.cons _).trans hl.symm)

/-! ## Values -/

mutual

/-- The mappings of a value, at any depth, have texts for keys, each once. -/
def Keyed : Value → Prop
  | .list items => AreKeyed items
  | .pair a b => Keyed a ∧ Keyed b
  | .map entries => TextKeys entries ∧ DistinctKeys entries ∧ CarryKeyed entries
  | .shared _ v => Keyed v
  | _ => True

/-- Items that are such values. -/
def AreKeyed : List Value → Prop
  | [] => True
  | v :: rest => Keyed v ∧ AreKeyed rest

/-- Entries that carry such values. -/
def CarryKeyed : List (Value × Value) → Prop
  | [] => True
  | (_, v) :: rest => Keyed v ∧ CarryKeyed rest

end

mutual

/-- The second value is the first with the entries of its mappings, at any
depth, in another order. -/
inductive Reordered : Value → Value → Prop
  | same (v : Value) : Reordered v v
  | list {xs ys : List Value} (h : ReorderedItems xs ys) : Reordered (.list xs) (.list ys)
  | pair {a b c d : Value} (hfirst : Reordered a c) (hsecond : Reordered b d) :
      Reordered (.pair a b) (.pair c d)
  /-- What the entries carry may be reordered where it stands, and then the entries themselves. -/
  | map {es fs gs : Entries} (h : ReorderedEntries es fs) (hperm : fs.Perm gs) :
      Reordered (.map es) (.map gs)
  | shared {v w : Value} (label : Nat) (h : Reordered v w) :
      Reordered (.shared label v) (.shared label w)

/-- Each item is reordered in its place. -/
inductive ReorderedItems : List Value → List Value → Prop
  | nil : ReorderedItems [] []
  | cons {v w : Value} {xs ys : List Value} (hv : Reordered v w) (h : ReorderedItems xs ys) :
      ReorderedItems (v :: xs) (w :: ys)

/-- What each entry carries is reordered in its place. -/
inductive ReorderedEntries : Entries → Entries → Prop
  | nil : ReorderedEntries [] []
  | cons {v w : Value} {es fs : Entries} (k : Value) (hv : Reordered v w)
      (h : ReorderedEntries es fs) :
      ReorderedEntries ((k, v) :: es) ((k, w) :: fs)

end

/-! ## Reading -/

/-- The text that a value is, or the name of its type. -/
def asText (v : Value) : Except String String :=
  match v.bare with
  | .str s => .ok s
  | w => .error w.typeName

/-- **A text is read** from reordered values alike. -/
theorem Reordered.asText_eq : ∀ {v w : Value}, Reordered v w → v.asText = w.asText
  | _, _, .same _ => rfl
  | .list _, _, .list _ => rfl
  | .pair .., _, .pair .. => rfl
  | .map _, _, .map .. => rfl
  | .shared .., _, .shared _ h => h.asText_eq

variable {entries others : Entries}

theorem ReorderedEntries.refl (entries : Entries) : ReorderedEntries entries entries := by
  induction entries with
  | nil => exact .nil
  | cons e rest ih => exact .cons e.1 (.same e.2) ih

/-- A reordered mapping has its entries reordered in their places, and then in another order. -/
theorem Reordered.of_map (h : Reordered (.map entries) (.map others)) :
    ∃ between, ReorderedEntries entries between ∧ between.Perm others := by
  cases h with
  | same => exact ⟨entries, .refl entries, .refl entries⟩
  | map h hperm => exact ⟨_, h, hperm⟩

/-- The keys stay where they are. -/
theorem ReorderedEntries.keys_eq (h : ReorderedEntries entries others) :
    others.map Prod.fst = entries.map Prod.fst := by
  induction entries generalizing others with
  | nil =>
      cases h
      rfl
  | cons e rest ih =>
      cases h with
      | cons k hv hrest => rw [List.map_cons, List.map_cons, ih hrest]

theorem ReorderedEntries.textKeys (h : ReorderedEntries entries others) (hkeys : TextKeys entries) :
    TextKeys others := by
  intro e he
  apply hkeys.exists_str
  rw [← h.keys_eq]
  exact List.mem_map_of_mem he

theorem ReorderedEntries.distinctKeys (h : ReorderedEntries entries others)
    (hkeys : TextKeys entries)
    (hdistinct : DistinctKeys entries) : DistinctKeys others := by
  rw [distinctKeys_iff_nodup (h.textKeys hkeys), h.keys_eq]
  exact (distinctKeys_iff_nodup hkeys).mp hdistinct

/-- What stands under a text is reordered, where the keys keep their places. -/
theorem ReorderedEntries.get?_rel (h : ReorderedEntries entries others) (name : String) :
    Option.Rel Reordered (get? entries name) (get? others name) := by
  induction entries generalizing others with
  | nil =>
      cases h
      exact .none
  | cons e rest ih =>
      cases h with
      | cons k hv hrest =>
          rw [get?_cons, get?_cons]
          cases k.sameKey (.str name) with
          | true => exact .some hv
          | false => exact ih hrest

/-- **What stands under a text** of a reordered mapping is reordered. -/
theorem Reordered.get?_rel (hkeyed : Keyed (.map entries))
    (h : Reordered (.map entries) (.map others)) (name : String) :
    Option.Rel Reordered (get? entries name) (get? others name) := by
  rw [Keyed] at hkeyed
  obtain ⟨hkeys, hdistinct, -⟩ := hkeyed
  obtain ⟨between, hentries, hperm⟩ := h.of_map
  have hbetween := hentries.distinctKeys hkeys hdistinct
  rw [← get?_eq_of_perm hbetween (hbetween.of_perm (hentries.textKeys hkeys) hperm) hperm name]
  exact hentries.get?_rel name

end RegistryBundle.Value
