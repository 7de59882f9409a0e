import RegistryBundle.Value.Order

/-!
# Entries under texts

What writing, ordering and looking up do to entries whose keys are texts.

* `Value.sortByKey_map`, `Value.sortByKey_perm`: what the order of keys does to entries;
* `Value.ofList_eq_self`: entries whose keys differ are the entries made by
  writing them one after another;
* `Value.get?_eq_some_iff`, `Value.get?_eq_none_iff`: what the entries hold under a text.
-/

namespace RegistryBundle

/-! ## Sorting by insertion -/

/-- The run and the rest make up the list. -/
theorem spanRun_append {α : Type} (keep : α → α → Bool) (previous : α) (l : List α) :
    (spanRun keep previous l).1 ++ (spanRun keep previous l).2 = l := by
  induction l generalizing previous with
  | nil => rfl
  | cons x rest ih =>
      unfold spanRun
      split
      · exact congrArg (x :: ·) (ih x)
      · rfl

/-- Elements put into places of a list are added to it. -/
theorem foldl_place_perm {α : Type} (place : List α → α → Nat) (tail run : List α) :
    (tail.foldl (fun sorted z => sorted.take (place sorted z) ++ z :: sorted.drop (place sorted z))
      run).Perm
      (run ++ tail) := by
  induction tail generalizing run with
  | nil => rw [List.append_nil]; rfl
  | cons z rest ih =>
      rw [List.foldl_cons]
      have hput : (run.take (place run z) ++ z :: run.drop (place run z)).Perm (z :: run) := by
        have hparts : (run.take (place run z) ++ z :: run.drop (place run z)).Perm
            (z :: (run.take (place run z) ++ run.drop (place run z))) := List.perm_middle
        rwa [List.take_append_drop] at hparts
      exact (ih _).trans ((hput.append_right rest).trans List.perm_middle.symm)

/-- Sorting by insertion rearranges. -/
theorem insertionSort_perm {α : Type} (below : α → α → Bool) (l : List α) :
    (insertionSort below l).Perm l := by
  match l with
  | [] => rfl
  | [x] => rfl
  | x :: y :: rest =>
      rw [insertionSort]
      split
      next parts run tail heq =>
      refine (foldl_place_perm (fun sorted z =>
        placeByHalving below sorted.toArray z sorted.length 0 sorted.length)
        tail run).trans ?_
      split at heq
      · obtain ⟨rfl, rfl⟩ := Prod.mk.inj heq
        exact ((List.reverse_perm _).append_right _).trans (by simp [spanRun_append])
      · obtain ⟨rfl, rfl⟩ := Prod.mk.inj heq
        simp [spanRun_append]

namespace Value

/-! ## The order of keys -/

/-- Entries whose keys are texts. -/
def TextKeys {A : Alphabet} {α : Type} (entries : List (Value A × α)) : Prop :=
  ∀ e ∈ entries, ∃ s, e.1 = .str s

variable {α β : Type}

theorem TextKeys.exists_str {entries : List (Value × α)} (h : TextKeys entries) {k : Value}
    (hk : k ∈ entries.map Prod.fst) : ∃ s, k = .str s := by
  obtain ⟨e, he, rfl⟩ := List.mem_map.mp hk
  exact h e he

/-- Texts can all be compared, and none is a NaN. -/
theorem sortByKey_of_texts {entries : List (Value × α)}
    (h : ∀ e ∈ entries, ∃ s, e.1.bare = .str s) :
    sortByKey entries = entries.mergeSort fun f g => !before g.1 f.1 := by
  match entries with
  | [] => rw [sortByKey, List.mergeSort_nil]
  | [e] => rw [sortByKey, List.mergeSort_singleton]
  | e :: f :: rest =>
      have hcompared : ((f :: rest).all fun g => (before? e.1 g.1).isSome) = true := by
        rw [List.all_eq_true]
        intro g hg
        obtain ⟨s, hs⟩ := h e List.mem_cons_self
        obtain ⟨t, ht⟩ := h g (List.mem_cons_of_mem e hg)
        rw [before?, hs, ht]
        rfl
      have hnan : ((e :: f :: rest).any fun g => g.1.isNaN) = false := by
        rw [List.any_eq_false]
        intro g hg
        obtain ⟨s, hs⟩ := h g hg
        rw [isNaN, hs]
        exact Bool.false_ne_true
      rw [sortByKey]
      · rw [if_pos hcompared, hnan, if_neg Bool.false_ne_true]
      · simp

theorem sortByKey_of_textKeys {entries : List (Value × α)} (h : TextKeys entries) :
    sortByKey entries = entries.mergeSort fun f g => !before g.1 f.1 :=
  sortByKey_of_texts fun e he => (h e he).imp fun _ hs => by rw [hs]; rfl

/-- The order does not depend on what the keys carry. -/
theorem sortByKey_map {entries : List (Value × α)} (h : TextKeys entries) (f : Value × α → β) :
    sortByKey (entries.map fun e => (e.1, f e)) = (sortByKey entries).map fun e => (e.1, f e) := by
  have hmap : TextKeys (entries.map fun e => (e.1, f e)) := by
    intro e he
    obtain ⟨e', he', rfl⟩ := List.mem_map.mp he
    exact h e' he'
  rw [sortByKey_of_textKeys h, sortByKey_of_textKeys hmap]
  exact (List.map_mergeSort (f := fun e => (e.1, f e)) fun _ _ _ _ => rfl).symm

/-- Ordered entries are the same entries. -/
theorem sortByKey_perm (entries : List (Value × α)) : (sortByKey entries).Perm entries := by
  match entries with
  | [] => rfl
  | [e] => rfl
  | e :: f :: rest =>
      rw [sortByKey]
      · split
        · split
          · exact insertionSort_perm _ _
          · exact List.mergeSort_perm _ _
        · rfl
      · simp

/-! ## Entries written one after another -/

/-- What is put into entries does not depend on what the entries carry. -/
theorem map_put (f : α → β) (entries : List (Value × α)) (key : Value) (a : α) :
    (put entries key a).map (fun e => (e.1, f e.2)) =
      put (entries.map fun e => (e.1, f e.2)) key (f a) := by
  induction entries with
  | nil => rfl
  | cons e rest ih =>
      rw [put, List.map_cons, put]
      split
      · rfl
      · rw [List.map_cons, ih]

/-- A write under a new text stands at the end. -/
theorem put_of_notMem {entries : List (Value × α)} (hkeys : TextKeys entries) {s : String}
    (h : .str s ∉ entries.map Prod.fst) (a : α) :
      put entries (.str s) a = entries ++ [(.str s, a)] := by
  induction entries with
  | nil => rfl
  | cons e rest ih =>
      obtain ⟨t, ht⟩ := hkeys e List.mem_cons_self
      rw [List.map_cons, List.mem_cons, not_or] at h
      have hne : t ≠ s := by
        intro heq
        subst heq
        exact h.1 ht.symm
      have hsame : e.1.sameKey (.str s) = false := by
        rw [ht, sameKey_str_str]
        exact beq_eq_false_iff_ne.mpr hne
      rw [put, hsame, ih (fun f hf => hkeys f (List.mem_cons_of_mem e hf)) h.2]
      rfl

/-- A write under a text that is there leaves the keys as they are. -/
theorem keys_put_of_mem {entries : List (Value × α)} {s : String}
    (h : .str s ∈ entries.map Prod.fst) (a : α) :
    (put entries (.str s) a).map Prod.fst = entries.map Prod.fst := by
  induction entries with
  | nil => exact absurd h List.not_mem_nil
  | cons e rest ih =>
      unfold put
      split
      · rfl
      · next hsame =>
          rw [List.map_cons, List.mem_cons] at h
          rcases h with he | h
          · rw [← he, sameKey_str_str, beq_self_eq_true] at hsame
            exact absurd rfl hsame
          · rw [List.map_cons, ih h, List.map_cons]

/-- After a write there are the entry that was written and others of before. -/
theorem mem_put {entries : List (Value × α)} (hkeys : TextKeys entries) {s : String} {a : α}
    {e : Value × α}
    (h : e ∈ put entries (.str s) a) : e = (.str s, a) ∨ e ∈ entries := by
  induction entries with
  | nil => exact .inl (List.mem_singleton.mp h)
  | cons f rest ih =>
      obtain ⟨t, ht⟩ := hkeys f List.mem_cons_self
      unfold put at h
      split at h
      · next hsame =>
          rw [ht, sameKey_str_str, beq_iff_eq] at hsame
          rcases List.mem_cons.mp h with rfl | h
          · exact .inl (by rw [ht, hsame])
          · exact .inr (List.mem_cons_of_mem f h)
      · rcases List.mem_cons.mp h with rfl | h
        · exact .inr List.mem_cons_self
        · exact (ih (fun e he => hkeys e (List.mem_cons_of_mem f he)) h).imp_right
            (List.mem_cons_of_mem f)

/-- Keys stay texts. -/
theorem textKeys_put {entries : List (Value × α)} (hkeys : TextKeys entries) (s : String) (a : α) :
    TextKeys (put entries (.str s) a) := by
  intro e he
  rcases mem_put hkeys he with rfl | he
  · exact ⟨s, rfl⟩
  · exact hkeys e he

/-- Keys stay different. -/
theorem nodup_put {entries : List (Value × α)} (hkeys : TextKeys entries)
    (h : (entries.map Prod.fst).Nodup)
    (s : String) (a : α) : ((put entries (.str s) a).map Prod.fst).Nodup := by
  by_cases hm : .str s ∈ entries.map Prod.fst
  · rw [keys_put_of_mem hm]
    exact h
  · rw [put_of_notMem hkeys hm, List.map_append, List.nodup_append]
    refine ⟨h, List.nodup_cons.mpr ⟨List.not_mem_nil, List.nodup_nil⟩, ?_⟩
    intro x hx y hy heq
    subst heq
    obtain rfl : x = .str s := List.mem_singleton.mp hy
    exact hm hx

/-- Of entries written behind others none is lost exactly if each key is new. -/
theorem foldl_put {entries acc : List (Value × α)} (hkeys : TextKeys entries)
    (hacc : TextKeys acc) :
    (entries.foldl (fun acc e => put acc e.1 e.2) acc).length ≤ acc.length + entries.length ∧
      ((entries.foldl (fun acc e => put acc e.1 e.2) acc).length = acc.length + entries.length →
        ((acc.map Prod.fst).Nodup → ((acc ++ entries).map Prod.fst).Nodup)) ∧
      (((acc ++ entries).map Prod.fst).Nodup →
        entries.foldl (fun acc e => put acc e.1 e.2) acc = acc ++ entries) := by
  induction entries generalizing acc with
  | nil => simp
  | cons e rest ih =>
      obtain ⟨s, hs⟩ := hkeys e List.mem_cons_self
      obtain ⟨k, a⟩ := e
      replace hs : k = .str s := hs
      subst hs
      have hrest : TextKeys rest := fun f hf => hkeys f (List.mem_cons_of_mem _ hf)
      obtain ⟨hle, hnodup, heq⟩ := ih hrest (textKeys_put hacc s a)
      simp only [List.foldl_cons, List.length_cons]
      by_cases hm : .str s ∈ acc.map Prod.fst
      · have hlen : (put acc (.str s) a).length = acc.length := by
          simpa using congrArg List.length (keys_put_of_mem hm a)
        rw [hlen] at hle hnodup
        refine ⟨by omega, fun h => by omega, ?_⟩
        intro h
        rw [List.map_append, List.nodup_append] at h
        exact absurd rfl (h.2.2 _ hm _ List.mem_cons_self)
      · rw [put_of_notMem hacc hm] at hle hnodup heq ⊢
        rw [List.length_append, List.length_singleton] at hle hnodup
        rw [List.append_assoc] at hnodup heq
        refine ⟨by omega, fun h hnew => hnodup (by omega) ?_, heq⟩
        have := nodup_put hacc hnew s a
        rwa [put_of_notMem hacc hm] at this

/-- Entries whose keys differ are made by writing them one after another. -/
theorem ofList_eq_self {entries : List (Value × α)} (hkeys : TextKeys entries)
    (h : (entries.map Prod.fst).Nodup) : ofList entries = entries :=
  (foldl_put hkeys fun _ he => absurd he List.not_mem_nil).2.2 h

/-- Entries that were written one after another have different keys. -/
theorem textKeys_nodup_ofList {entries : List (Value × α)} (hkeys : TextKeys entries) :
    TextKeys (ofList entries) ∧ ((ofList entries).map Prod.fst).Nodup := by
  have hfold : ∀ acc : List (Value × α), TextKeys acc → (acc.map Prod.fst).Nodup →
      TextKeys (entries.foldl (fun acc e => put acc e.1 e.2) acc) ∧
        ((entries.foldl (fun acc e => put acc e.1 e.2) acc).map Prod.fst).Nodup := by
    induction entries with
    | nil => exact fun acc hacc hnodup => ⟨hacc, hnodup⟩
    | cons e rest ih =>
        intro acc hacc hnodup
        obtain ⟨s, hs⟩ := hkeys e List.mem_cons_self
        rw [List.foldl_cons, hs]
        exact ih (fun f hf => hkeys f (List.mem_cons_of_mem e hf)) _ (textKeys_put hacc s _)
          (nodup_put hacc hnodup s _)
  exact hfold [] (fun _ he => absurd he List.not_mem_nil) List.nodup_nil

/-- If none is lost, the keys differ. -/
theorem nodup_of_length_ofList {entries : List (Value × α)} (hkeys : TextKeys entries)
    (h : (ofList entries).length = entries.length) : (entries.map Prod.fst).Nodup :=
  (foldl_put hkeys fun _ he => absurd he List.not_mem_nil).2.1
    (by simpa [ofList] using h) List.nodup_nil

/-! ## Lookup -/

/-- Nothing stands under a text that is no key. -/
theorem get?_eq_none_iff {entries : List (Value × α)} (hkeys : TextKeys entries) {name : String} :
    get? entries name = none ↔ .str name ∉ entries.map Prod.fst := by
  induction entries with
  | nil => simp
  | cons e rest ih =>
      obtain ⟨s, hs⟩ := hkeys e List.mem_cons_self
      have hrest : TextKeys rest := fun f hf => hkeys f (List.mem_cons_of_mem e hf)
      rw [get?_cons, hs, sameKey_str_str, List.map_cons, List.mem_cons, not_or, ← ih hrest, hs]
      by_cases h : s = name
      · simp [h]
      · simp [h, Ne.symm h]

/-- What stands under a text is the value of an entry. -/
theorem mem_of_get? {entries : List (Value × α)} (hkeys : TextKeys entries) {name : String} {a : α}
    (h : get? entries name = some a) : (.str name, a) ∈ entries := by
  induction entries with
  | nil => exact absurd h (by simp)
  | cons e rest ih =>
      obtain ⟨s, hs⟩ := hkeys e List.mem_cons_self
      rw [get?_cons, hs, sameKey_str_str] at h
      split at h
      · next heq =>
          have hname : s = name := by simpa using heq
          rw [← hname, ← hs, ← Option.some.inj h]
          exact List.mem_cons_self
      · exact List.mem_cons_of_mem e (ih (fun f hf => hkeys f (List.mem_cons_of_mem e hf)) h)

/-- Where keys differ, every entry is found. -/
theorem get?_eq_some_iff {entries : List (Value × α)} (hkeys : TextKeys entries)
    (hnodup : (entries.map Prod.fst).Nodup) {name : String} {a : α} :
    get? entries name = some a ↔ (.str name, a) ∈ entries := by
  refine ⟨mem_of_get? hkeys, ?_⟩
  intro h
  induction entries with
  | nil => exact absurd h List.not_mem_nil
  | cons e rest ih =>
      obtain ⟨s, hs⟩ := hkeys e List.mem_cons_self
      rw [List.map_cons, List.nodup_cons] at hnodup
      rw [get?_cons, hs, sameKey_str_str]
      rcases List.mem_cons.mp h with rfl | h
      · rw [← Value.str.inj hs, beq_self_eq_true, if_pos rfl]
      · have hne : s ≠ name := by
          intro heq
          subst heq
          exact hnodup.1 (hs ▸ List.mem_map.mpr ⟨_, h, rfl⟩)
        rw [if_neg (by simpa using hne)]
        exact ih (fun f hf => hkeys f (List.mem_cons_of_mem e hf)) hnodup.2 h

end Value

end RegistryBundle
