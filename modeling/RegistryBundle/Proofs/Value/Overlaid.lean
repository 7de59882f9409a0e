import RegistryBundle.Proofs.Value.Entries

/-!
# Entries over entries

Entries with keys of any kind, written one after another over entries under texts.

* `Value.filter_put` is a write as a part of the keys sees it, `Value.distinctKeys_foldl_put` says
  that each key still occurs once after several;
* `Value.foldl_put_self` and `Value.put_of_get?_eq` say that to write again what
  is there changes nothing;
* `Value.get?_eq_of_perm` says that the order of entries makes no difference to
  what stands under a text;
* `Value.foldl_put_perm` says that the order of what is written makes none but to
  the order of what is there.
-/

namespace RegistryBundle.Value

variable {A : Alphabet} {α : Type} {es acc l : List (Value A × α)} {k : Value A}

/-! ## Keys that are texts -/

/-- A key that is a text is the same as the keys of that text. -/
theorem sameKey_iff_of_bare {a : Value A} {s : String} (h : a.bare = .str s) (b : Value A) :
    a.sameKey b = true ↔ b.bare = .str s := by
  rw [sameKey, h]
  cases b.bare with
  | str t => simpa using eq_comm
  | _ => simp [quantity?]

theorem sameKey_iff_of_bare_right {b : Value A} {s : String} (h : b.bare = .str s) (a : Value A) :
    a.sameKey b = true ↔ a.bare = .str s := by
  rw [sameKey, h]
  cases a.bare <;> simp [quantity?]

/-- Entries of which none is under a text, as that text sees them. -/
theorem filter_of_apart {s : String} (h : ∀ e ∈ es, (Value.str s).sameKey e.1 = false) :
    es.filter (fun e => !e.1.sameKey (.str s)) = es := by
  rw [List.filter_eq_self]
  intro e he
  rw [Bool.not_eq_true', Bool.eq_false_iff, Ne, sameKey_str_iff,
    ← sameKey_iff_of_bare (a := .str s) rfl]
  exact Bool.eq_false_iff.mp (h e he)

/-! ## Single writes -/

/-- A write under a new key stands at the end. -/
theorem put_of_new (h : ∀ e ∈ es, e.1.sameKey k = false) (a : α) : put es k a = es ++ [(k, a)] := by
  induction es with
  | nil => rfl
  | cons e rest ih =>
      obtain ⟨k₀, a₀⟩ := e
      rw [put, h (k₀, a₀) List.mem_cons_self, ih fun f hf => h f (List.mem_cons_of_mem _ hf)]
      rfl

/-- After a write there are the key that was written and others of before. -/
theorem mem_keys_put {e : Value A × α} {a : α} (h : e ∈ put es k a) :
    e.1 = k ∨ e.1 ∈ es.map Prod.fst := by
  induction es with
  | nil => exact .inl (congrArg Prod.fst (List.mem_singleton.mp h))
  | cons f rest ih =>
      obtain ⟨k₀, a₀⟩ := f
      unfold put at h
      split at h <;> rcases List.mem_cons.mp h with rfl | h
      · exact .inr List.mem_cons_self
      · exact .inr (List.mem_cons_of_mem _ (List.mem_map_of_mem h))
      · exact .inr List.mem_cons_self
      · exact (ih h).imp_right (List.mem_cons_of_mem _)

/-- A write as a part of the keys sees it, to which of two equal keys both belong or neither. -/
theorem filter_put {p : Value A → Bool} (hp : ∀ a b : Value A, a.sameKey b = true → p a = p b)
    (es : List (Value A × α)) (k : Value A) (a : α) :
    (put es k a).filter (fun e => p e.1) =
      if p k then put (es.filter fun e => p e.1) k a else es.filter fun e => p e.1 := by
  induction es with
  | nil => cases h : p k <;> simp [put, h]
  | cons e rest ih =>
      obtain ⟨k₀, a₀⟩ := e
      rw [put]
      split
      · next hsame => cases h : p k <;> simp [hp _ _ hsame, h, put, hsame]
      · next hsame =>
          rw [List.filter_cons, ih, List.filter_cons]
          cases h : p k <;> cases h₀ : p k₀ <;> simp [put, hsame]

/-- A write leaves the keys that were there in their places. -/
theorem keys_prefix_put (es : List (Value A × α)) (k : Value A) (a : α) :
    es.map Prod.fst <+: (put es k a).map Prod.fst := by
  induction es with
  | nil => exact List.nil_prefix
  | cons e rest ih =>
      rw [put]
      split
      · exact List.prefix_refl _
      · exact List.cons_prefix_cons.mpr ⟨rfl, ih⟩

/-- To write what stands there already changes nothing. -/
theorem put_of_get?_eq {s : String} {a : α} (h : get? es s = some a) : put es (.str s) a = es := by
  induction es with
  | nil => exact nomatch h
  | cons e rest ih =>
      rw [get?_cons] at h
      rw [put]
      split at h
      · next hsame => rw [if_pos hsame, ← Option.some.inj h]
      · next hsame => rw [if_neg hsame, ih h]

/-- What stands under a text is found among the entries under that text. -/
theorem get?_filter (es : List (Value A × α)) (name : String) :
    get? (es.filter fun e => e.1.sameKey (.str name)) name = get? es name := by
  rw [get?, find?, List.find?_filter]
  simp only [and_self, Bool.decide_eq_true]
  rfl

/-! ## Keys that occur once -/

/-- No key is the same as an earlier one, as in every mapping that is read. Entries without this are
found by their first occurrence and written by their last. -/
def DistinctKeys (es : List (Value A × α)) : Prop :=
  es.Pairwise fun e f => e.1.sameKey f.1 = false

instance (es : List (Value A × α)) : Decidable (DistinctKeys es) :=
  inferInstanceAs (Decidable (es.Pairwise fun e f => e.1.sameKey f.1 = false))

/-- A write leaves each key once. -/
theorem distinctKeys_put (h : DistinctKeys es) (k : Value A) (a : α) :
    DistinctKeys (put es k a) := by
  induction es with
  | nil => exact List.pairwise_singleton _ _
  | cons e rest ih =>
      obtain ⟨k₀, a₀⟩ := e
      obtain ⟨hhead, hrest⟩ := List.pairwise_cons.mp h
      unfold put
      split
      · exact List.pairwise_cons.mpr ⟨hhead, hrest⟩
      · next hne =>
          refine List.pairwise_cons.mpr ⟨fun f hf => ?_, ih hrest⟩
          rcases mem_keys_put hf with heq | hmem
          · rw [heq]
            exact Bool.eq_false_iff.mpr hne
          · obtain ⟨g, hg, heq⟩ := List.mem_map.mp hmem
            rw [← heq]
            exact hhead g hg

/-- One text is the key of one entry at most. -/
theorem DistinctKeys.eq_of_bare (h : DistinctKeys es) {e f : Value A × α} (he : e ∈ es)
    (hf : f ∈ es) {s : String} (hes : e.1.bare = .str s) (hfs : f.1.bare = .str s) : e = f := by
  have hapart : ∀ {x y : Value A × α}, x.1.bare = .str s → y.1.bare = .str s →
      x.1.sameKey y.1 ≠ false :=
    fun hx hy => Bool.ne_false_iff.mpr ((sameKey_iff_of_bare hx _).mpr hy)
  induction es with
  | nil => exact absurd he List.not_mem_nil
  | cons g rest ih =>
      obtain ⟨hhead, hrest⟩ := List.pairwise_cons.mp h
      rcases List.mem_cons.mp he with heg | he <;> rcases List.mem_cons.mp hf with hfg | hf
      · rw [heg, hfg]
      · exact absurd (hhead f hf) (hapart (heg ▸ hes) hfs)
      · exact absurd (hhead e he) (hapart (hfg ▸ hfs) hes)
      · exact ih hrest he hf

/-- Where keys are distinct, what stands under a text is the value of the entry with that text. -/
theorem DistinctKeys.get?_eq_some_iff (h : DistinctKeys es) {name : String} {a : α} :
    get? es name = some a ↔ ∃ e ∈ es, e.1.bare = .str name ∧ e.2 = a := by
  rw [get?, find?, Option.map_eq_some_iff]
  constructor
  · rintro ⟨e, hfound, ha⟩
    exact ⟨e, List.mem_of_find?_eq_some hfound,
      (sameKey_str_iff e.1 name).mp (by simpa using List.find?_some hfound), ha⟩
  · rintro ⟨e, he, hbare, ha⟩
    have hsome : (es.find? fun e => e.1.sameKey (.str name)).isSome :=
      List.find?_isSome.mpr ⟨e, he, (sameKey_str_iff e.1 name).mpr hbare⟩
    obtain ⟨f, hfound⟩ := Option.isSome_iff_exists.mp hsome
    have hfbare : f.1.bare = .str name :=
      (sameKey_str_iff f.1 name).mp (by simpa using List.find?_some hfound)
    rw [h.eq_of_bare (List.mem_of_find?_eq_some hfound) he hfbare hbare] at hfound
    exact ⟨e, hfound, ha⟩

/-- The order of the entries makes no difference to what stands under a text. -/
theorem get?_eq_of_perm (hes : DistinctKeys es) (hl : DistinctKeys l) (h : es.Perm l)
    (name : String) :
    get? es name = get? l name := by
  apply Option.ext
  intro a
  simp only [hes.get?_eq_some_iff, hl.get?_eq_some_iff, h.mem_iff]

/-! ## Several writes -/

/-- What holds of the keys that were there and of those that are written holds of all. -/
theorem forall_mem_foldl_put {P : Value A → Prop} (hacc : ∀ e ∈ acc, P e.1) (hl : ∀ e ∈ l, P e.1) :
    ∀ e ∈ l.foldl (fun acc e => put acc e.1 e.2) acc, P e.1 := by
  induction l generalizing acc with
  | nil => exact hacc
  | cons f rest ih =>
      refine ih (fun e he => ?_) fun e he => hl e (List.mem_cons_of_mem f he)
      rcases mem_keys_put he with heq | hmem
      · rw [heq]
        exact hl f List.mem_cons_self
      · obtain ⟨g, hg, heq⟩ := List.mem_map.mp hmem
        rw [← heq]
        exact hacc g hg

/-- Several writes as a part of the keys sees them, to which of two equal
keys both belong or neither. -/
theorem filter_foldl_put {p : Value A → Bool} (hp : ∀ a b : Value A, a.sameKey b = true → p a = p b)
    (l acc : List (Value A × α)) :
    (l.foldl (fun acc e => put acc e.1 e.2) acc).filter (fun e => p e.1) =
      (l.filter fun e => p e.1).foldl (fun acc e => put acc e.1 e.2)
        (acc.filter fun e => p e.1) := by
  induction l generalizing acc with
  | nil => rfl
  | cons e rest ih =>
      rw [List.foldl_cons, ih, filter_put hp, List.filter_cons]
      cases p e.1 <;> rfl

/-- Several writes leave the keys that were there in their places. -/
theorem keys_prefix_foldl_put (l acc : List (Value A × α)) :
    acc.map Prod.fst <+: (l.foldl (fun acc e => put acc e.1 e.2) acc).map Prod.fst := by
  induction l generalizing acc with
  | nil => exact List.prefix_refl _
  | cons e rest ih => exact (keys_prefix_put acc e.1 e.2).trans (ih _)

theorem distinctKeys_foldl_put (h : DistinctKeys acc) (l : List (Value A × α)) :
    DistinctKeys (l.foldl (fun acc e => put acc e.1 e.2) acc) := by
  induction l generalizing acc with
  | nil => exact h
  | cons e rest ih => exact ih (distinctKeys_put h e.1 e.2)

/-- Entries with new keys stand behind those that were there. -/
theorem foldl_put_of_distinct (h : DistinctKeys (acc ++ l)) :
    l.foldl (fun acc e => put acc e.1 e.2) acc = acc ++ l := by
  induction l generalizing acc with
  | nil => exact (List.append_nil acc).symm
  | cons e rest ih =>
      have hnew : ∀ f ∈ acc, f.1.sameKey e.1 = false :=
        fun f hf => (List.pairwise_append.mp h).2.2 f hf e List.mem_cons_self
      have hmoved : acc ++ [e] ++ rest = acc ++ e :: rest := by
        rw [List.append_assoc, List.singleton_append]
      rw [List.foldl_cons, put_of_new hnew, ih (by rw [hmoved]; exact h), hmoved]

private theorem foldl_put_nil (h : DistinctKeys l) :
    l.foldl (fun acc e => put acc e.1 e.2) [] = l :=
  foldl_put_of_distinct h

/-- The first of the entries that were there keeps its place, and takes the value that
is written under its text. -/
theorem foldl_put_cons (hl : DistinctKeys l) (s : String) (a : α) (acc : List (Value A × α)) :
    l.foldl (fun acc e => put acc e.1 e.2) ((.str s, a) :: acc) =
      (.str s, (get? l s).getD a) ::
        (l.filter fun e => !e.1.sameKey (.str s)).foldl (fun acc e => put acc e.1 e.2) acc := by
  induction l generalizing a acc with
  | nil => rfl
  | cons e rest ih =>
      obtain ⟨hhead, hrest⟩ := List.pairwise_cons.mp hl
      have hsame : (Value.str s).sameKey e.1 = e.1.sameKey (.str s) :=
        Bool.eq_iff_iff.mpr ((sameKey_iff_of_bare rfl e.1).trans (sameKey_str_iff e.1 s).symm)
      rw [List.foldl_cons, put, hsame, get?_cons, List.filter_cons]
      cases hs : e.1.sameKey (.str s) with
      | true =>
          have hnone : get? rest s = none := by
            rw [Option.eq_none_iff_forall_ne_some]
            intro b hb
            obtain ⟨f, hf, hfs, -⟩ := (DistinctKeys.get?_eq_some_iff hrest).mp hb
            have hsame := (sameKey_iff_of_bare ((sameKey_str_iff e.1 s).mp hs) f.1).mpr hfs
            exact absurd ((hhead f hf).symm.trans hsame) Bool.false_ne_true
          simp only [if_true, ih hrest, hnone, Option.getD_none, Option.getD_some, Bool.not_true,
            Bool.false_eq_true, if_false]
      | false =>
          simp only [Bool.false_eq_true, if_false, ih hrest, Bool.not_false, if_true,
            List.foldl_cons]

/-- **Entries written over some of their own keys**, with which they start, are as they were. -/
theorem foldl_put_self (hkeys : TextKeys acc) (hl : DistinctKeys l)
    (h : acc.map Prod.fst <+: l.map Prod.fst) :
    l.foldl (fun acc e => put acc e.1 e.2) acc = l := by
  induction acc generalizing l with
  | nil => exact foldl_put_nil hl
  | cons e rest ih =>
      obtain ⟨k, a⟩ := e
      obtain ⟨s, rfl⟩ := hkeys (k, a) List.mem_cons_self
      cases l with
      | nil => exact absurd (List.prefix_nil.mp h) (List.cons_ne_nil _ _)
      | cons f others =>
          obtain ⟨k, b⟩ := f
          obtain ⟨rfl, hrest⟩ := List.cons_prefix_cons.mp h
          obtain ⟨hhead, hothers⟩ := List.pairwise_cons.mp hl
          rw [foldl_put_cons hl, get?_cons, List.filter_cons, sameKey_str_str, beq_self_eq_true,
            if_pos rfl, Bool.not_true, if_neg Bool.false_ne_true, filter_of_apart hhead,
            Option.getD_some, ih (fun g hg => hkeys g (List.mem_cons_of_mem _ hg)) hothers hrest]

/-- What stands under a text after several writes over entries that lack it. -/
theorem get?_foldl_put_of_lacking {name : String} (hl : DistinctKeys l)
    (h : acc.filter (fun e => e.1.sameKey (.str name)) = []) :
    get? (l.foldl (fun acc e => put acc e.1 e.2) acc) name = get? l name := by
  have hpart : ∀ a b : Value A, a.sameKey b = true →
      a.sameKey (.str name) = b.sameKey (.str name) := by
    intro a b hab
    rw [Bool.eq_iff_iff, sameKey_str_iff, sameKey_str_iff]
    exact ⟨fun ha => (sameKey_iff_of_bare ha b).mp hab,
      fun hb => (sameKey_iff_of_bare_right hb a).mp hab⟩
  rw [← get?_filter, filter_foldl_put hpart, h, foldl_put_nil (hl.sublist List.filter_sublist),
    get?_filter]

/-- **The order of what is written** over entries under texts makes no difference but to the order
of what is there. -/
theorem foldl_put_perm {l' : List (Value A × α)} (hkeys : TextKeys acc) (hl : DistinctKeys l)
    (hl' : DistinctKeys l')
    (h : l.Perm l') :
    (l.foldl (fun acc e => put acc e.1 e.2) acc).Perm
      (l'.foldl (fun acc e => put acc e.1 e.2) acc) := by
  -- Induction on what is there: a text takes its value from what is written, and leaves the other
  -- keys to what follows.
  induction acc generalizing l l' with
  | nil => rwa [foldl_put_nil hl, foldl_put_nil hl']
  | cons e rest ih =>
      obtain ⟨k, a⟩ := e
      obtain ⟨s, rfl⟩ := hkeys (k, a) List.mem_cons_self
      rw [foldl_put_cons hl, foldl_put_cons hl', get?_eq_of_perm hl hl' h]
      exact .cons _ (ih (fun f hf => hkeys f (List.mem_cons_of_mem _ hf))
        (hl.sublist List.filter_sublist)
        (hl'.sublist List.filter_sublist) (h.filter _))

end RegistryBundle.Value
