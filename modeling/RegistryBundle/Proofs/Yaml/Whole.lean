import Mathlib.Algebra.Order.BigOperators.Group.List
import Mathlib.Algebra.Order.Ring.Nat
import Mathlib.Data.List.Nodup
import Mathlib.Data.List.Perm.Subperm
import RegistryBundle.Proofs.Yaml.RoundTrip

/-!
# What the round trip of a document keeps

A text is torn on its way through a page exactly if it stands within double quotes on lines indented
past the width of a line, and holds an escaped character in front of a space, neither the character
the first of the text nor the space the last.

* `Node.Torn` says so of a text, `Value.Whole` that no text of a value is torn where it stands;
* `Value.alike_reread_iff`: a tree that is read back equals the one that was
  written exactly if it is whole;
* `Yaml.read_write_of_height`: a mapping of few levels is read back as it was.
-/

namespace RegistryBundle.Yaml

namespace Scalar

/-- A text that is read back is not shorter. -/
theorem length_le_reread (indent : Nat) (split first : Bool) (cs : List Char) :
    cs.length ≤ (reread indent split first cs).length := by
  induction cs generalizing first with
  | nil => exact Nat.zero_le _
  | cons c cs ih =>
      have := ih false
      rw [reread]
      split <;>
      · simp only [List.length_cons]
        omega

/-- It is as long only if nothing was torn. -/
theorem reread_eq_of_length {indent : Nat} {split first : Bool} {cs : List Char}
    (h : (reread indent split first cs).length = cs.length) :
      reread indent split first cs = cs := by
  induction cs generalizing first with
  | nil => rfl
  | cons c cs ih =>
      have hle := length_le_reread indent split false cs
      cases ht : tears indent split first c cs with
      | true =>
          rw [reread, if_pos ht] at h
          simp only [List.length_cons] at h
          omega
      | false =>
          rw [reread_of_not_tears ht] at h ⊢
          rw [ih (Nat.succ.inj h)]

/-- A text comes back unchanged exactly if it is torn nowhere. -/
theorem reread_eq_iff (indent : Nat) (split first : Bool) (cs : List Char) :
    reread indent split first cs = cs ↔
      ∀ before c after, cs = before ++ c :: after →
        tears indent split (first && before.isEmpty) c after = false := by
  induction cs generalizing first with
  | nil =>
      refine ⟨fun _ before c after h => ?_, fun _ => rfl⟩
      exact absurd h (by simp)
  | cons d cs ih =>
      constructor
      · intro h before c after hcs
        have hlen := congrArg List.length h
        have hle := length_le_reread indent split false cs
        have ht : tears indent split first d cs = false := by
          rw [Bool.eq_false_iff]
          intro ht
          rw [reread, if_pos ht] at hlen
          simp only [List.length_cons] at hlen
          omega
        rw [reread_of_not_tears ht] at h
        cases before with
        | nil =>
            obtain ⟨rfl, rfl⟩ := List.cons.inj hcs
            simpa using ht
        | cons b before =>
            obtain ⟨rfl, rfl⟩ := List.cons.inj hcs
            simpa using (ih false).mp (List.cons.inj h).2 before c after rfl
      · intro h
        have ht : tears indent split first d cs = false := by simpa using h [] d cs rfl
        rw [reread_of_not_tears ht, (ih false).mpr]
        intro before c after hcs
        simpa using h (d :: before) c after (by rw [hcs, List.cons_append])

end Scalar

namespace Node

open Scalar

/-- A text that is torn on lines indented by `indent`. -/
def Torn (indent : Nat) (s : List Char) : Prop :=
  styleOf false .str s = .double ∧ width ≤ indent ∧
    ∃ before c after, s = before ++ c :: ' ' :: after ∧ before ≠ [] ∧ isEscaped c = true ∧
      after ≠ []

/-- A text comes back unchanged exactly if it is not torn. -/
theorem readText_eq_iff (indent : Nat) (s : List Char) :
    readText false indent .str s = s ↔ ¬ Torn indent s := by
  unfold readText bodyText Torn
  cases hst : styleOf false .str s with
  | plain => simp
  | single => simp
  | double =>
      have hsplit : (!false) = true := rfl
      rw [reread_eq_iff]
      constructor
      · intro h hparts
        obtain ⟨_, hw, before, c, after, hs, hbefore, hc, hafter⟩ := hparts
        have := h before c (' ' :: after) hs
        exact hafter (by simpa [tears, hbefore, hc, hw] using this)
      · intro h before c after hs
        rw [Bool.eq_false_iff]
        intro ht
        simp only [tears, hsplit, Bool.true_and, Bool.and_eq_true, Bool.not_eq_true',
          decide_eq_true_eq, beq_iff_eq] at ht
        obtain ⟨⟨⟨⟨hbefore, hc⟩, hw⟩, hhead⟩, hlen⟩ := ht
        obtain ⟨d, rest, hd⟩ := List.exists_cons_of_length_pos (by omega : 0 < after.length)
        rw [hd, List.head?_cons, Option.some.injEq] at hhead
        rw [hd, List.length_cons] at hlen
        refine h ⟨rfl, hw, before, c, rest, by rw [hs, hd, hhead], by simpa using hbefore, hc, ?_⟩
        exact List.length_pos_iff.mp (by omega)

/-- On lines indented by less than their width no text is torn. -/
theorem not_torn_of_lt {indent : Nat} (h : indent < width) (s : List Char) :
    ¬ Torn indent s := fun ht =>
  absurd ht.2.1 (Nat.not_le.mpr h)

/-- A text that comes back as long as it was is not torn. -/
theorem not_torn_of_length {indent : Nat} {s : List Char}
    (h : (readText false indent .str s).length = s.length) :
    ¬ Torn indent s := by
  rw [← readText_eq_iff]
  unfold readText bodyText at h ⊢
  split
  · next hst =>
      rw [hst] at h
      exact reread_eq_of_length h
  · rfl

theorem length_le_readText (indent : Nat) (s : List Char) :
    s.length ≤ (readText false indent .str s).length := by
  unfold readText bodyText
  split
  · exact length_le_reread _ _ _ _
  · exact Nat.le_refl _

end Node

end RegistryBundle.Yaml

namespace RegistryBundle.Value

open Yaml Yaml.Node

mutual

/-- No text of a value is torn behind an indicator or a colon of the collection at `indent`. -/
def Whole (place : Node.Place) (indent : Nat) : Value → Prop
  | .str s => ¬ Torn (indent + 2) s.toList
  | .list items => WholeItems (if place == .value then indent else indent + 2) items
  | .map entries => WholeEntries (indent + 2) entries
  | _ => True

/-- The same of items. -/
def WholeItems (indent : Nat) : List Value → Prop
  | [] => True
  | v :: rest => Whole .item indent v ∧ WholeItems indent rest

/-- The same of entries; a key before its colon is never broken. -/
def WholeEntries (indent : Nat) : List (Value × Value) → Prop
  | [] => True
  | (k, v) :: rest =>
    (if beforeColon k then Whole .value indent v else Whole .part indent k ∧ Whole .part indent v) ∧
      WholeEntries indent rest

end

/-- The key that is read back. -/
def rereadKey (indent : Nat) (k : Value) : Value :=
  if beforeColon k then k else reread .part indent k

/-- The place of the value of a key. -/
def placeUnder (k : Value) : Node.Place :=
  if beforeColon k then .value else .part

theorem rereadEntries_eq_map (indent : Nat) (entries : List (Value × Value)) :
    rereadEntries indent entries =
      entries.map fun e => (rereadKey indent e.1, reread (placeUnder e.1) indent e.2) := by
  induction entries with
  | nil => rw [rereadEntries, List.map_nil]
  | cons e rest ih =>
      rw [rereadEntries, ih, List.map_cons, rereadKey, placeUnder]
      split <;> rfl

private theorem rereadItems_eq_map (indent : Nat) (items : List Value) :
    rereadItems indent items = items.map (reread .item indent) := by
  induction items with
  | nil => rw [rereadItems, List.map_nil]
  | cons v rest ih => rw [rereadItems, ih, List.map_cons]

private theorem wholeItems_iff {indent : Nat} {items : List Value} :
    WholeItems indent items ↔ ∀ v ∈ items, Whole .item indent v := by
  induction items with
  | nil => simp [WholeItems]
  | cons v rest ih => simp [WholeItems, ih]

/-- Entries are whole if their values are, and those keys that may be broken. -/
theorem wholeEntries_iff {indent : Nat} {entries : List (Value × Value)} :
    WholeEntries indent entries ↔
      ∀ e ∈ entries, (beforeColon e.1 = false → Whole .part indent e.1) ∧
        Whole (placeUnder e.1) indent e.2 := by
  induction entries with
  | nil => simp [WholeEntries]
  | cons e rest ih =>
      rw [WholeEntries, ih, List.forall_mem_cons, placeUnder]
      cases hk : beforeColon e.1 <;> simp

/-! ## Whole trees come back -/

/-- Entries that come back one by one come back together. -/
theorem rereadEntries_of_whole {indent : Nat} {entries : List (Value × Value)}
    (h : AreBranches entries)
    (hvalue : ∀ e ∈ entries, reread (placeUnder e.1) indent e.2 = e.2)
    (hw : WholeEntries indent entries) :
    rereadEntries indent entries = entries := by
  rw [rereadEntries_eq_map]
  refine (List.map_congr_left fun e he => ?_).trans (List.map_id _)
  obtain ⟨⟨s, hs, _⟩, _⟩ := areBranches_iff.mp h e he
  have hkey : rereadKey indent e.1 = e.1 := by
    rw [rereadKey]
    split
    · rfl
    · next hk =>
        have hwhole := (wholeEntries_iff.mp hw e he).1 (Bool.eq_false_iff.mpr hk)
        rw [hs, Whole, ← readText_eq_iff] at hwhole
        rw [hs, reread, hwhole, String.ofList_toList]
  rw [hkey, hvalue e he]
  rfl

/-- **A whole tree is read back as it was written.** -/
theorem reread_of_whole (v : Value) (h : IsTree v) {place : Node.Place} {i : Nat}
    (hw : Whole place i v) :
    reread place i v = v := by
  induction v, h using IsTree.induction generalizing place i with
  | null => simp only [reread]
  | bool b => simp only [reread]
  | int n h => simp only [reread]
  | str s =>
      rw [Whole, ← readText_eq_iff] at hw
      rw [reread, hw, String.ofList_toList]
  | list items h ih =>
      rw [Whole, wholeItems_iff] at hw
      rw [reread, rereadItems_eq_map]
      refine congrArg Value.list ((List.map_congr_left fun v hv => ?_).trans (List.map_id _))
      exact ih v hv (areTrees_iff.mp h v hv) (hw v hv)
  | map entries h ih =>
      rw [Whole] at hw
      have hvalue : ∀ e ∈ entries, reread (placeUnder e.1) (i + 2) e.2 = e.2 := fun e he =>
        ih e he (areBranches_iff.mp h.2 e he).2 (wholeEntries_iff.mp hw e he).2
      rw [reread, rereadEntries_of_whole h.2 hvalue hw, ofList_eq_self h.2.textKeys h.1]

/-- The order of the entries does not matter for this. -/
theorem whole_ordered (v : Value) (h : IsTree v) {place : Node.Place} {i : Nat}
    (hw : Whole place i v) :
    Whole place i (ordered v) := by
  induction v, h using IsTree.induction generalizing place i with
  | null => exact hw
  | bool b => exact hw
  | int n h => exact hw
  | str s => exact hw
  | list items h ih =>
      rw [Whole, wholeItems_iff] at hw
      rw [ordered, orderedItems_eq_map, Whole, wholeItems_iff]
      intro w hm
      obtain ⟨v, hv, rfl⟩ := List.mem_map.mp hm
      exact ih v hv (areTrees_iff.mp h v hv) (hw v hv)
  | map entries h ih =>
      rw [Whole, wholeEntries_iff] at hw
      rw [ordered_map h.2.textKeys, Whole, wholeEntries_iff]
      intro f hf
      obtain ⟨e, he, rfl⟩ := List.mem_map.mp hf
      have hmem : e ∈ entries := (sortByKey_perm _).mem_iff.mp he
      exact ⟨(hw e hmem).1, ih e hmem (areBranches_iff.mp h.2 e hmem).2 (hw e hmem).2⟩

/-! ## Torn trees do not -/

/-- If terms that are pointwise not larger have a sum that is not smaller, they are the same. -/
theorem eq_of_sum_le {α : Type} {l : List α} {f g : α → Nat} (hle : ∀ a ∈ l, f a ≤ g a)
    (h : (l.map g).sum ≤ (l.map f).sum) : ∀ a ∈ l, f a = g a := by
  induction l with
  | nil => exact fun _ ha => absurd ha List.not_mem_nil
  | cons b l ih =>
      have hhead := hle b List.mem_cons_self
      have htail : ∀ a ∈ l, f a ≤ g a := fun a ha => hle a (List.mem_cons_of_mem b ha)
      have hsum : (l.map f).sum ≤ (l.map g).sum := List.sum_le_sum htail
      simp only [List.map_cons, List.sum_cons] at h
      intro a ha
      rcases List.mem_cons.mp ha with rfl | ha
      · omega
      · exact ih htail (by omega) a ha

/-- The length of a text. -/
def textLength : Value → Nat
  | .str s => s.length
  | _ => 0

/-- A key that is read back is not shorter, and whole if it is as long. -/
theorem textLength_rereadKey (indent : Nat) (s : String) :
    textLength (.str s) ≤ textLength (rereadKey indent (.str s)) ∧
      (textLength (.str s) = textLength (rereadKey indent (.str s)) →
        rereadKey indent (.str s) = .str s ∧
          (beforeColon (.str s) = false → Whole .part indent (.str s))) := by
  unfold rereadKey
  split
  · next hk =>
      refine ⟨Nat.le_refl _, fun _ => ⟨rfl, fun h => ?_⟩⟩
      rw [hk] at h
      exact Bool.noConfusion h
  · have hlen : textLength (.str s) = s.toList.length := String.length_toList.symm
    rw [reread, hlen, textLength, String.length_ofList]
    refine ⟨length_le_readText _ _, ?_⟩
    intro h
    have htorn := not_torn_of_length h.symm
    exact ⟨by rw [(readText_eq_iff _ _).mpr htorn, String.ofList_toList], fun _ => htorn⟩

/-- Entries that are read back from their order. -/
theorem mem_rereadEntries {indent : Nat} {entries : List (Value × Value)} {f : Value × Value} :
    f ∈ rereadEntries indent ((sortByKey entries).map fun e => (e.1, ordered e.2)) ↔
      ∃ e ∈ entries, f = (rereadKey indent e.1, reread (placeUnder e.1) indent (ordered e.2)) := by
  rw [rereadEntries_eq_map, List.map_map, List.mem_map]
  constructor
  · intro hparts
    obtain ⟨e, he, rfl⟩ := hparts
    exact ⟨e, (sortByKey_perm _).mem_iff.mp he, rfl⟩
  · intro hparts
    obtain ⟨e, he, rfl⟩ := hparts
    exact ⟨e, (sortByKey_perm _).mem_iff.mpr he, rfl⟩

/-- Keys that are read back are texts. -/
theorem textKeys_rereadEntries {indent : Nat} {entries : List (Value × Value)}
    (h : TextKeys entries) :
    TextKeys (rereadEntries indent ((sortByKey entries).map fun e => (e.1, ordered e.2))) := by
  intro f hf
  obtain ⟨e, he, rfl⟩ := mem_rereadEntries.mp hf
  obtain ⟨s, hs⟩ := h e he
  rw [hs, rereadKey]
  split
  · exact ⟨s, rfl⟩
  · exact ⟨_, by rw [reread]⟩

/-- Keys that are read back in some order have not grown, so each of them is read back as it was. -/
theorem rereadKey_eq_of_perm {indent : Nat} {entries : List (Value × Value)}
    (hkeys : TextKeys entries)
    (h : (entries.map Prod.fst).Perm ((entries.map Prod.fst).map (rereadKey indent))) :
    ∀ e ∈ entries, rereadKey indent e.1 = e.1 ∧
      (beforeColon e.1 = false → Whole .part indent e.1) := by
  have hgrown : ∀ k ∈ entries.map Prod.fst, textLength k = textLength (rereadKey indent k) := by
    refine eq_of_sum_le (fun k hk => ?_) (Nat.le_of_eq ?_)
    · obtain ⟨s, rfl⟩ := hkeys.exists_str hk
      exact (textLength_rereadKey indent s).1
    · have := (h.map textLength).sum_nat
      exact Eq.symm (this.trans (by rw [List.map_map]; rfl))
  intro e he
  have hg := hgrown e.1 (List.mem_map_of_mem he)
  obtain ⟨s, hs⟩ := hkeys.exists_str (List.mem_map_of_mem he)
  rw [hs] at hg ⊢
  exact (textLength_rereadKey indent s).2 hg

/-- **A mapping comes back only whole**: keys that grow cannot be the same keys, and under the same
keys stand the values of before. -/
theorem wholeEntries_of_alike {indent : Nat} {entries : List (Value × Value)}
    (h : IsTree (.map entries))
    (hvalue : ∀ e ∈ entries, Alike e.2 (reread (placeUnder e.1) indent (ordered e.2)) →
      Whole (placeUnder e.1) indent e.2)
    (ha : Alike (.map entries)
      (.map (ofList
        (rereadEntries indent ((sortByKey entries).map fun e => (e.1, ordered e.2)))))) :
    WholeEntries indent entries := by
  have hkeys := h.2.textKeys
  obtain ⟨fs, hfs, hlen, halike⟩ := ha
  obtain rfl := Value.map.inj hfs
  have hread :
      TextKeys (rereadEntries indent ((sortByKey entries).map fun e => (e.1, ordered e.2))) :=
    textKeys_rereadEntries hkeys
  have hmem : ∀ {f}, f ∈ rereadEntries indent
    ((sortByKey entries).map fun e => (e.1, ordered e.2)) ↔
      ∃ e ∈ entries, f = (rereadKey indent e.1, reread (placeUnder e.1) indent (ordered e.2)) :=
    mem_rereadEntries
  have hperm :
    ((rereadEntries indent ((sortByKey entries).map fun e => (e.1, ordered e.2))).map Prod.fst).Perm
      ((entries.map Prod.fst).map (rereadKey indent)) := by
    rw [rereadEntries_eq_map, List.map_map, List.map_map, List.map_map]
    exact (sortByKey_perm _).map _
  generalize rereadEntries indent ((sortByKey entries).map fun e => (e.1, ordered e.2)) = read at *
  have hlength : read.length = entries.length := by simpa using hperm.length_eq
  have hnodup := nodup_of_length_ofList hread (by rw [← hlen, hlength])
  rw [ofList_eq_self hread hnodup] at halike
  have hsame : (entries.map Prod.fst).Perm (read.map Prod.fst) :=
    halike.keys_perm (Nat.le_of_eq hlength) h.1
  have hkey := rereadKey_eq_of_perm hkeys (hsame.trans hperm)
  rw [alikeEntries_iff] at halike
  rw [wholeEntries_iff]
  intro e he
  refine ⟨(hkey e he).2, hvalue e he ?_⟩
  obtain ⟨w, hw, halike⟩ := halike e he
  obtain ⟨e', he', heq⟩ := hmem.mp hw
  obtain ⟨hk, hwe⟩ := Prod.mk.inj heq
  rw [(hkey e' he').1] at hk
  obtain rfl : e = e' := List.inj_on_of_nodup_map h.1 he he' hk
  rw [← hwe]
  exact halike

/-- **A tree that is read back equals the one that was written exactly if it is whole.** -/
theorem alike_reread_iff (v : Value) (h : IsTree v) {place : Node.Place} {i : Nat} :
    Alike v (reread place i (ordered v)) ↔ Whole place i v := by
  constructor
  · intro ha
    induction v, h using IsTree.induction generalizing place i with
    | null => exact trivial
    | bool b => exact trivial
    | int n h => exact trivial
    | str s =>
        rw [ordered, reread] at ha
        · have hs : String.ofList (readText false (i + 2) .str s.toList) = s := Value.str.inj ha
          rw [Whole, ← readText_eq_iff]
          rw [← String.toList_ofList (l := readText false (i + 2) .str s.toList), hs]
        all_goals simp
    | list items h ih =>
        rw [ordered, orderedItems_eq_map, reread, rereadItems_eq_map, List.map_map] at ha
        obtain ⟨ys, hys, ha⟩ := ha
        obtain rfl := Value.list.inj hys
        rw [Whole, wholeItems_iff]
        exact fun v hv => ih v hv (areTrees_iff.mp h v hv) (alikeItems_map.mp ha v hv)
    | map entries h ih =>
        rw [ordered_map h.2.textKeys, reread] at ha
        rw [Whole]
        exact wholeEntries_of_alike h (fun e he => ih e he (areBranches_iff.mp h.2 e he).2) ha
  · intro hw
    rw [reread_of_whole _ (isTree_ordered v h) (whole_ordered v h hw)]
    exact alike_ordered v h

/-! ## Documents -/

/-- A document that is read back is a mapping from different texts. -/
theorem textKeys_nodup_rereadPage {entries : List (Value × Value)} (h : TextKeys entries) :
    TextKeys (rereadPage entries) ∧ ((rereadPage entries).map Prod.fst).Nodup :=
  textKeys_nodup_ofList (textKeys_rereadEntries h)

/-- Ordered entries that are whole come back. -/
theorem rereadPage_of_whole {entries : List (Value × Value)} (h : IsTree (.map entries))
    (hw : WholeEntries 0 entries) :
    rereadPage entries = (sortByKey entries).map fun e => (e.1, ordered e.2) := by
  have hkeys := h.2.textKeys
  have htree := isTree_ordered _ h
  rw [ordered_map hkeys] at htree
  have hwhole : WholeEntries 0 ((sortByKey entries).map fun e => (e.1, ordered e.2)) := by
    rw [wholeEntries_iff] at hw ⊢
    intro f hf
    obtain ⟨e, he, rfl⟩ := List.mem_map.mp hf
    have hmem : e ∈ entries := (sortByKey_perm _).mem_iff.mp he
    exact ⟨(hw e hmem).1, whole_ordered _ (areBranches_iff.mp h.2 e hmem).2 (hw e hmem).2⟩
  rw [rereadPage, rereadEntries_of_whole htree.2 (fun e he => ?_) hwhole,
    ofList_eq_self htree.2.textKeys htree.1]
  exact reread_of_whole _ (areBranches_iff.mp htree.2 e he).2 (wholeEntries_iff.mp hwhole e he).2

/-- **The document that is read back equals the one that was written exactly if it is whole.** -/
theorem alike_rereadPage_iff {entries : List (Value × Value)} (h : IsTree (.map entries)) :
    Alike (.map entries) (.map (rereadPage entries)) ↔ WholeEntries 0 entries := by
  constructor
  · intro ha
    exact wholeEntries_of_alike h
      (fun e he => (alike_reread_iff e.2 (areBranches_iff.mp h.2 e he).2).mp) ha
  · intro hw
    rw [rereadPage_of_whole h hw, ← ordered_map h.2.textKeys]
    exact alike_ordered _ h

mutual

/-- How many levels of collections a value has. -/
def height : Value → Nat
  | .list items => heightOfItems items + 1
  | .map entries => heightOfEntries entries + 1
  | _ => 0

/-- The height of the highest item. -/
def heightOfItems : List Value → Nat
  | [] => 0
  | v :: rest => max (height v) (heightOfItems rest)

/-- The height of the highest value. -/
def heightOfEntries : List (Value × Value) → Nat
  | [] => 0
  | (_, v) :: rest => max (height v) (heightOfEntries rest)

end

private theorem height_le_of_mem_items {items : List Value} {v : Value} (h : v ∈ items) :
    height v ≤ heightOfItems items := by
  induction items with
  | nil => exact absurd h List.not_mem_nil
  | cons w rest ih =>
      rw [heightOfItems]
      rcases List.mem_cons.mp h with rfl | h
      · omega
      · have := ih h
        omega

private theorem height_le_of_mem_entries {entries : List (Value × Value)} {e : Value × Value}
    (h : e ∈ entries) :
    height e.2 ≤ heightOfEntries entries := by
  induction entries with
  | nil => exact absurd h List.not_mem_nil
  | cons f rest ih =>
      rw [heightOfEntries]
      rcases List.mem_cons.mp h with rfl | h
      · omega
      · have := ih h
        omega

/-- A text on lines indented by less than their width is whole. -/
theorem whole_text (s : String) (place : Node.Place) {i : Nat} (hi : i + 2 < Scalar.width) :
    Whole place i (.str s) :=
  not_torn_of_lt hi s.toList

/-- **A tree of few levels is whole.** -/
theorem whole_of_height (v : Value) (h : IsTree v) (place : Node.Place) {i : Nat}
    (hi : i + 2 * height v + 2 < Scalar.width) : Whole place i v := by
  induction v, h using IsTree.induction generalizing place i with
  | null => exact trivial
  | bool b => exact trivial
  | int n h => exact trivial
  | str s => exact whole_text s place (by omega)
  | list items h ih =>
      rw [Whole, wholeItems_iff]
      intro v hv
      have hle := height_le_of_mem_items hv
      rw [height] at hi
      refine ih v hv (areTrees_iff.mp h v hv) .item ?_
      split <;> omega
  | map entries h ih =>
      rw [Whole, wholeEntries_iff]
      intro e he
      have hle := height_le_of_mem_entries he
      obtain ⟨⟨s, hs, _⟩, hv⟩ := areBranches_iff.mp h.2 e he
      rw [height] at hi
      refine ⟨fun _ => ?_, ih e he hv _ (by omega)⟩
      rw [hs]
      exact whole_text s .part (by omega)

/-- Entries of few levels are whole. -/
theorem wholeEntries_of_height {entries : List (Value × Value)} (h : AreBranches entries)
    (hi : 2 * heightOfEntries entries + 2 < Scalar.width) : WholeEntries 0 entries := by
  rw [wholeEntries_iff]
  intro e he
  have hle := height_le_of_mem_entries he
  obtain ⟨⟨s, hs, _⟩, hv⟩ := areBranches_iff.mp h e he
  refine ⟨fun _ => ?_, whole_of_height _ hv _ (by omega)⟩
  rw [hs]
  exact whole_text s .part (by decide)

/-! ## Values inside mappings -/

/-- A value inside mappings of one entry. -/
def nested : Nat → Value → Value
  | 0, v => v
  | n + 1, v => .map [(.str "a", nested n v)]

theorem isTree_nested {v : Value} (h : IsTree v) (n : Nat) : IsTree (nested n v) := by
  induction n with
  | zero => exact h
  | succ n ih => exact ⟨by simp, ⟨⟨"a", rfl, by decide⟩, ih, trivial⟩⟩

/-- Each level indents the value by two columns more. -/
theorem whole_nested {v : Value} (n i : Nat) :
    Whole .value i (nested n v) ↔ Whole .value (i + 2 * n) v := by
  have hkey : beforeColon (.str "a") = true := by decide
  induction n generalizing i with
  | zero => rfl
  | succ n ih =>
      have hindent : i + 2 + 2 * n = i + 2 * (n + 1) := by omega
      rw [nested, Whole, WholeEntries, hkey, if_pos rfl, WholeEntries, and_true, ← hindent]
      exact ih (i + 2)

@[simp] theorem ordered_nested (v : Value) (n : Nat) :
    ordered (nested n v) = nested n (ordered v) := by
  induction n with
  | zero => rfl
  | succ n ih =>
      have hkeys : TextKeys [((.str "a" : Value), nested n v)] := by simp [TextKeys]
      rw [nested, ordered_map hkeys, nested]
      simp [sortByKey, ih]

/-- What is read back from inside is read at the column of its level. -/
theorem reread_nested (v : Value) (n i : Nat) :
    reread .value i (nested n v) = nested n (reread .value (i + 2 * n) v) := by
  have hkey : beforeColon (.str "a") = true := by decide
  induction n generalizing i with
  | zero => rfl
  | succ n ih =>
      have hindent : i + 2 + 2 * n = i + 2 * (n + 1) := by omega
      rw [nested, reread, rereadEntries, hkey, if_pos rfl, ih, hindent, rereadEntries, nested]
      rfl

end RegistryBundle.Value

namespace RegistryBundle.Yaml

open Value

/-- **A mapping of few levels is written, and read back with its entries in order.** -/
theorem read_write_of_height {entries : List (Value × Value)} (h : IsTree (.map entries))
    (hne : entries ≠ [])
    (hi : 2 * heightOfEntries entries + 2 < Scalar.width) :
    ∃ page, write (.map entries) = .ok page ∧ Printed page.toList ∧
      read page = .ok (.map ((sortByKey entries).map fun e => (e.1, ordered e.2))) := by
  obtain ⟨page, hwrite, hprinted, hread⟩ := read_write h hne
  rw [rereadPage_of_whole h (wholeEntries_of_height h.2 hi)] at hread
  exact ⟨page, hwrite, hprinted, hread⟩

end RegistryBundle.Yaml
