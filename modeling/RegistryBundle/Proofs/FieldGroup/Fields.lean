import RegistryBundle.FieldGroup.Form
import RegistryBundle.Proofs.Schema.Fits
import RegistryBundle.Proofs.Yaml.Whole

/-!
# Fields that are read back

A form is written as a mapping, and what a record of a schema finds in that mapping it finds as well
when the entries were put in the order of their keys.

* `Form.encode_reads`: the page of a form is read as what was written of it, in order;
* `Schema.record_ordered`: a record looks its fields up in the ordered mapping;
* `Schema.field_ordered`, `Schema.required_ordered`: a field is found there.
-/

namespace RegistryBundle

open Value

/-! ## Ordered entries -/

/-- What an ordered mapping holds under a text. -/
theorem Value.get?_ordered {entries : Entries} (hkeys : TextKeys entries)
    (hnodup : (entries.map Prod.fst).Nodup)
    (name : String) :
    Value.get? ((sortByKey entries).map fun e => (e.1, ordered e.2)) name =
      (Value.get? entries name).map ordered := by
  have hperm := sortByKey_perm entries
  have hsorted : TextKeys ((sortByKey entries).map fun e => (e.1, ordered e.2)) := by
    intro f hf
    obtain ⟨e, he, rfl⟩ := List.mem_map.mp hf
    exact hkeys e (hperm.mem_iff.mp he)
  have hsortedNodup := (keys_sorted_perm fun e => ordered e.2).nodup_iff.mpr hnodup
  cases h : Value.get? entries name with
  | none =>
      rw [get?_eq_none_iff hkeys] at h
      rw [Option.map_none, get?_eq_none_iff hsorted, (keys_sorted_perm _).mem_iff]
      exact h
  | some v =>
      rw [Option.map_some, get?_eq_some_iff hsorted hsortedNodup]
      exact List.mem_map.mpr ⟨_, hperm.mem_iff.mpr (mem_of_get? hkeys h), rfl⟩

namespace Schema

variable {α : Type} {entries : Entries}

/-- The first name that is present is the same one. -/
theorem findFirst_ordered (hkeys : TextKeys entries) (hnodup : (entries.map Prod.fst).Nodup)
    (names : List String) :
    findFirst ((sortByKey entries).map fun e => (e.1, ordered e.2)) names =
      (findFirst entries names).map fun p => (p.1, ordered p.2) := by
  induction names with
  | nil => rfl
  | cons name rest ih =>
      rw [findFirst, findFirst, get?_ordered hkeys hnodup]
      cases Value.get? entries name with
      | none => exact ih
      | some v => rfl

/-- A record looks its fields up in the ordered mapping. -/
theorem record_ordered (h : IsTree (.map entries)) (fields : Entries → Checked α) :
    record fields (ordered (.map entries)) =
      fields ((sortByKey entries).map fun e => (e.1, ordered e.2)) := by
  rw [ordered_map h.2.textKeys]
  rfl

/-- A field of an ordered record. -/
theorem field_ordered (h : IsTree (.map entries)) (check : Value → Checked α) (default : α)
    (names : List String) :
    field check default names ((sortByKey entries).map fun e => (e.1, ordered e.2)) =
      field (fun v => check (ordered v)) default names entries := by
  rw [field, findFirst_ordered h.2.textKeys h.1, field]
  cases findFirst entries names <;> rfl

/-- A required field of an ordered record. -/
theorem required_ordered (h : IsTree (.map entries)) (check : Value → Checked α) (name : String) :
    required check name ((sortByKey entries).map fun e => (e.1, ordered e.2)) =
      required (fun v => check (ordered v)) name entries := by
  rw [required, get?_ordered h.2.textKeys h.1, required]
  cases Value.get? entries name <;> rfl

/-- A mapping that may be absent, but is there. -/
@[simp] theorem optional_map (check : Value → Checked α) (entries : Entries) :
    optional check (ordered (.map entries)) = (check (ordered (.map entries))).map some := rfl

/-- A mapping of one entry. -/
theorem mappingOf_singleton {check : Value → Checked α} {v : Value} {a : α}
    (h : check (ordered v) = .fits a)
    (name : String) : mappingOf check (ordered (.map [(.str name, v)])) = .fits [(name, a)] := by
  have hread : ∀ e ∈ [(name, a)], check (ordered v) = .fits e.2 := by
    intro e he
    rw [List.mem_singleton.mp he]
    exact h
  exact mappingOf_entries (t := [(name, a)]) (w := fun _ => ordered v)
    (List.nodup_singleton name) hread

end Schema

/-! ## Forms -/

/-- A list of texts is a tree of one level, in order as it is. -/
theorem Value.texts_tree (texts : List String) :
    IsTree (.list (texts.map .str)) ∧ height (.list (texts.map .str)) = 1 ∧
      ordered (.list (texts.map .str)) = .list (texts.map .str) := by
  have htree : AreTrees (texts.map .str) := by
    apply areTrees_iff.mpr
    intro v hv
    obtain ⟨t, -, rfl⟩ := List.mem_map.mp hv
    exact trivial
  have hheight : heightOfItems (texts.map .str) = 0 := by
    induction texts with
    | nil => rfl
    | cons t rest ih => simp [heightOfItems, height, ih htree.2]
  refine ⟨htree, by rw [height, hheight], ?_⟩
  rw [ordered, orderedItems_eq_map, List.map_map]
  rfl

/-- A field that has a value is written under its key. -/
theorem Form.writtenFields_cons {n : FieldName} {f : Form} {rest : List (FieldName × Form)}
    {v : Value} {vs : Entries}
    (hf : f.isAbsent = false) (hv : f.written = .ok v) (hrest : writtenFields rest = .ok vs) :
    writtenFields ((n, f) :: rest) = .ok ((.str n.key, v) :: vs) := by
  rw [writtenFields, hf, hv, hrest]
  rfl

/-- Texts are written as they are. -/
theorem Document.plainItems_texts (texts : List String) :
    Document.plainItems (texts.map .str) = .ok (texts.map .str) := by
  induction texts with
  | nil => rw [List.map_nil, plainItems]
  | cons t rest ih =>
      rw [List.map_cons, plainItems, ih, plainForm]
      · rfl
      all_goals simp

/-- **The page of a form is read as what was written of it.** -/
theorem Form.encode_reads {f : Form} {entries : Entries} (hwritten : f.written = .ok (.map entries))
    (htree : IsTree (.map entries)) (hne : entries ≠ []) (hheight : heightOfEntries entries ≤ 30) :
    ∃ page, f.encode = .ok page ∧ Document.decode page = .ok (ordered (.map entries)) := by
  have hi : 2 * heightOfEntries entries + 2 < Yaml.Scalar.width := by
    simp only [Yaml.Scalar.width]
    omega
  obtain ⟨page, hwrite, -, hread⟩ := Yaml.read_write_of_height htree hne hi
  refine ⟨page, ?_, ?_⟩
  · rw [Form.encode, hwritten]
    change Document.encode (.map entries) = .ok page
    rw [Document.encode, hwrite]
    rfl
  · rw [Document.decode, hread, ordered_map htree.2.textKeys]
    rfl

end RegistryBundle
