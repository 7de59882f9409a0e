import RegistryBundle.Proofs.Yaml.Writable
import RegistryBundle.Value.Text

/-!
# What has a text

A value has a text unless it holds, at any depth, a whole number that is too long.

* `Value.exists_quoted?` is induction on values, for the notation of a value as a part of another;
* `Value.exists_text?` is the same for texts, `Value.text?_bare` says that labels do not show;
* `Value.holds_bare`, `Value.holds_of_mem` and `Value.holds_of_get?`: what a value does not hold its
  parts do not hold.
-/

namespace RegistryBundle.Value

mutual

/-- **A value without long numbers** has a notation. -/
theorem exists_quoted? : ∀ {v : Value}, v.holds isLong = false → ∃ cs, v.quoted? = some cs
  | .null, _ | .bool _, _ | .float _, _ | .str _, _ | .bytes _, _ | .date _, _ | .moment _, _
  | .foreign, _ | .cycle _, _ => ⟨_, rfl⟩
  | .int n, h => by
      have hlong : (intText? n).isNone = false := h
      cases hn : intText? n with
      | some cs => exact ⟨cs, hn⟩
      | none => simp [hn] at hlong
  | .list items, h => by
      obtain ⟨ps, hps⟩ := exists_quotedItems? (Bool.or_eq_false_iff.mp h).2
      exact ⟨_, by rw [quoted?, hps, Option.map_some]⟩
  | .pair a b, h => by
      obtain ⟨ha, hb⟩ := Bool.or_eq_false_iff.mp (Bool.or_eq_false_iff.mp h).2
      obtain ⟨x, hx⟩ := exists_quoted? ha
      obtain ⟨y, hy⟩ := exists_quoted? hb
      exact ⟨_, by rw [quoted?, hx, hy]; rfl⟩
  | .set items, h => by
      obtain ⟨ps, hps⟩ := exists_quotedItems? (Bool.or_eq_false_iff.mp h).2
      exact ⟨_, by rw [quoted?, hps, Option.map_some]⟩
  | .map entries, h => by
      obtain ⟨ps, hps⟩ := exists_quotedEntries? (Bool.or_eq_false_iff.mp h).2
      exact ⟨_, by rw [quoted?, hps, Option.map_some]⟩
  | .shared _ v, h => exists_quoted? (v := v) (Bool.or_eq_false_iff.mp h).2

/-- So have items. -/
theorem exists_quotedItems? : ∀ {items : List Value}, holdsItems isLong items = false →
    ∃ ps, quotedItems? items = some ps
  | [], _ => ⟨_, rfl⟩
  | v :: rest, h => by
      obtain ⟨hv, hrest⟩ := Bool.or_eq_false_iff.mp h
      obtain ⟨x, hx⟩ := exists_quoted? hv
      obtain ⟨xs, hxs⟩ := exists_quotedItems? hrest
      exact ⟨_, by rw [quotedItems?, hx, hxs]; rfl⟩

/-- So have entries. -/
theorem exists_quotedEntries? :
    ∀ {entries : List (Value × Value)}, holdsEntries isLong entries = false →
    ∃ ps, quotedEntries? entries = some ps
  | [], _ => ⟨_, rfl⟩
  | (k, v) :: rest, h => by
      obtain ⟨he, hrest⟩ := Bool.or_eq_false_iff.mp h
      obtain ⟨hk, hv⟩ := Bool.or_eq_false_iff.mp he
      obtain ⟨x, hx⟩ := exists_quoted? hk
      obtain ⟨y, hy⟩ := exists_quoted? hv
      obtain ⟨xs, hxs⟩ := exists_quotedEntries? hrest
      exact ⟨_, by rw [quotedEntries?, hx, hy, hxs]; rfl⟩

end

/-- **A value without long numbers** has a text. -/
theorem exists_text? : ∀ {v : Value}, v.holds isLong = false → ∃ s, v.text? = some s
  | .str _, _ | .date _, _ | .moment _, _ => ⟨_, rfl⟩
  | .shared _ v, h => exists_text? (v := v) (Bool.or_eq_false_iff.mp h).2
  | .null, h | .bool _, h | .int _, h | .float _, h | .bytes _, h | .list _, h | .pair .., h
  | .set _, h | .map _, h | .foreign, h | .cycle _, h => by
      obtain ⟨cs, hcs⟩ := exists_quoted? h
      exact ⟨String.ofList cs, congrArg (Option.map String.ofList) hcs⟩

/-- The text of a value is that of its object. -/
theorem text?_bare {A : Alphabet} : ∀ v : Value A, v.bare.text? = v.text?
  | .shared _ v => text?_bare v
  | .null | .bool _ | .int _ | .float _ | .str _ | .broken .. | .bytes _ | .date _ | .moment _
  | .list _ | .pair .. | .set _ | .map _ | .foreign | .cycle _ => rfl

/-- What a value's object holds the value holds. -/
theorem holds_bare {p : Value → Bool} : ∀ {v : Value}, v.holds p = false → v.bare.holds p = false
  | .shared _ v, h => holds_bare (v := v) (Bool.or_eq_false_iff.mp h).2
  | .null, h | .bool _, h | .int _, h | .float _, h | .str _, h | .bytes _, h | .date _, h
  | .moment _, h | .list _, h | .pair .., h | .set _, h | .map _, h | .foreign, h
  | .cycle _, h => h

/-- What entries hold in no part, no key and no value of theirs holds. -/
theorem holds_of_mem {p : Value → Bool} {entries : Entries} (h : holdsEntries p entries = false)
    {e : Value × Value}
    (he : e ∈ entries) : e.1.holds p = false ∧ e.2.holds p = false := by
  rw [holdsEntries_eq_any, List.any_eq_false] at h
  exact Bool.or_eq_false_iff.mp (Bool.eq_false_iff.mpr (h e he))

theorem holds_of_get? {p : Value → Bool} {entries : Entries} (h : holdsEntries p entries = false)
    {name : String}
    {v : Value} (hv : get? entries name = some v) : v.holds p = false := by
  obtain ⟨e, he, rfl⟩ := Option.map_eq_some_iff.mp hv
  exact (holds_of_mem h (List.mem_of_find?_eq_some he)).2

/-- An object has no label. -/
theorem bare_bare : ∀ v : Value, v.bare.bare = v.bare
  | .shared _ v => bare_bare v
  | .null | .bool _ | .int _ | .float _ | .str _ | .bytes _ | .date _ | .moment _ | .list _
  | .pair .. | .set _ | .map _ | .foreign | .cycle _ => rfl

end RegistryBundle.Value
