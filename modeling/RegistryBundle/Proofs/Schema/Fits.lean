import RegistryBundle.Proofs.Value.Tables
import RegistryBundle.Schema.Record

/-!
# Checks that fit

A check of parts that all fit is a check that fits, and collections are read
as what was put into them.

* `Checked.each_fits`: several checks that fit;
* `Schema.listOf_texts` reads a list of texts, `Schema.mappingOf_entries` the entries of a table,
  `Schema.entriesOf_eq_fits_iff` says which mappings are read, and as what;
* `Schema.holds_of_field` and `Schema.nodup_of_mappingOf` say what is known
  of a value that was read.
-/

namespace RegistryBundle

variable {α β : Type}

namespace Checked

@[simp] theorem map_fits (f : α → β) (a : α) : f <$> fits a = fits (f a) := rfl

@[simp] theorem map_eq_fits (f : α → β) (a : α) : (fits a).map f = fits (f a) := rfl

@[simp] theorem seq_fits (f : α → β) (a : α) : fits f <*> fits a = fits (f a) := rfl

/-- A mapped check fits if the check does. -/
theorem map_of_fits {f : α → β} {x : Checked α} {a : α} (h : x = fits a) :
    f <$> x = fits (f a) := by
  rw [h, map_fits]

/-- A function and its argument fit if both do. -/
theorem seq_of_fits {f : Checked (α → β)} {x : Checked α} {g : α → β} {a : α} (hf : f = fits g)
    (hx : x = fits a) :
    f <*> x = fits (g a) := by
  rw [hf, hx, seq_fits]

/-- A mapped check fits exactly if the check does. -/
theorem map_eq_fits_iff {f : α → β} {x : Checked α} {b : β} :
    x.map f = fits b ↔ ∃ a, x = fits a ∧ f a = b := by
  cases x with
  | fits a => simp
  | issues all => simp [map]

/-- A function and its argument fit exactly if both do. -/
theorem seq_eq_fits_iff {f : Checked (α → β)} {x : Checked α} {b : β} :
    f <*> x = fits b ↔ ∃ g a, f = fits g ∧ x = fits a ∧ g a = b := by
  cases f <;> cases x <;> simp [Seq.seq, seq]

/-- A check further away fits exactly if the check does. -/
theorem under_eq_fits_iff {step : Step} {x : Checked α} {a : α} :
    x.under step = fits a ↔ x = fits a := by
  cases x <;> simp [under]

@[simp] theorem under_fits (step : Step) (a : α) : (fits a).under step = fits a := rfl

/-- Checks that all fit. -/
theorem each_fits (as : List α) : each (as.map fits) = fits as := by
  induction as with
  | nil => rfl
  | cons a as ih => rw [List.map_cons, each, ih, map_fits, seq_fits]

/-- Several checks fit exactly if each does. -/
theorem each_eq_fits_iff {xs : List (Checked α)} {as : List α} :
    each xs = fits as ↔ List.Forall₂ (fun x a => x = fits a) xs as := by
  induction xs generalizing as with
  | nil =>
      rw [List.forall₂_nil_left_iff]
      exact ⟨fun h => (fits.inj h).symm, fun h => h ▸ rfl⟩
  | cons x rest ih =>
      rw [List.forall₂_cons_left_iff, each, seq_eq_fits_iff]
      constructor
      · rintro ⟨_, bs, hfirst, hrest, rfl⟩
        obtain ⟨a, ha, rfl⟩ := map_eq_fits_iff.mp hfirst
        exact ⟨a, bs, ha, ih.mp hrest, rfl⟩
      · rintro ⟨a, bs, ha, hrest, rfl⟩
        exact ⟨List.cons a, bs, map_of_fits ha, ih.mpr hrest, rfl⟩

end Checked

namespace Schema

/-- A text that may be absent, but is there. -/
@[simp] theorem optional_text (t : String) : optional text (.str t) = .fits (some t) := rfl

/-- A list of texts. -/
@[simp] theorem listOf_texts (texts : List String) :
    listOf text (.list (texts.map .str)) = .fits texts := by
  have hitems : ∀ i, ((texts.map Value.str).zipIdx i).map
      (fun p => (text p.1 : Checked String).under (.index p.2)) = texts.map Checked.fits := by
    induction texts with
    | nil => exact fun _ => rfl
    | cons t rest ih => exact fun i => congrArg _ (ih (i + 1))
  have hlist : listOf text (.list (texts.map .str)) =
      Checked.each (((texts.map Value.str).zipIdx 0).map fun p =>
        (text p.1 : Checked String).under (.index p.2)) := rfl
  rw [hlist, hitems 0, Checked.each_fits]

/-- **The entries of a table**, with values that fit. -/
theorem entriesOf_entries {check : Value → Checked α} {w : α → Value} {t : Table α}
    (hread : ∀ e ∈ t, check (w e.2) = .fits e.2) :
    entriesOf check (.map (Table.entries (t.map fun e => (e.1, w e.2)))) = .fits t := by
  have hentries : (Table.entries (t.map fun e => (e.1, w e.2))).map (fun e =>
      Prod.mk <$> ((text e.1 : Checked String).under (.name "[key]")).under (stepOf e.1) <*>
        (check e.2).under (stepOf e.1)) = t.map Checked.fits := by
    rw [Table.entries, List.map_map, List.map_map]
    apply List.map_congr_left
    intro e he
    simp only [Function.comp_apply, hread e he, text_str, Checked.under_fits, Checked.map_fits,
      Checked.seq_fits]
  have heach : entriesOf check (.map (Table.entries (t.map fun e => (e.1, w e.2)))) =
      Checked.each (t.map Checked.fits) := by
    rw [← hentries]
    rfl
  rw [heach, Checked.each_fits]

theorem mappingOf_entries {check : Value → Checked α} {w : α → Value} {t : Table α}
    (hnodup : (t.map Prod.fst).Nodup)
    (hread : ∀ e ∈ t, check (w e.2) = .fits e.2) :
    mappingOf check (.map (Table.entries (t.map fun e => (e.1, w e.2)))) = .fits t := by
  rw [mappingOf, entriesOf_entries hread, Checked.map_eq_fits, Table.ofList_eq_self hnodup]

/-- **A mapping fits** exactly if each of its keys is a text and each of its values fits. -/
theorem entriesOf_eq_fits_iff {A : Alphabet} {κ : Type} [TextOver A κ] {check : Value A → Checked α}
    {es : Entries A} {l : List (κ × α)} :
    entriesOf check (.map es) = .fits l ↔
      List.Forall₂ (fun e f => text e.1 = .fits f.1 ∧ check e.2 = .fits f.2) es l := by
  have heach : entriesOf check (.map es) = Checked.each (es.map fun e =>
      Prod.mk <$> ((text e.1 : Checked κ).under (.name "[key]")).under (stepOf e.1) <*>
        (check e.2).under (stepOf e.1)) := rfl
  have hentry : ∀ (e : Value A × Value A) (f : κ × α),
      Prod.mk <$> ((text e.1).under (.name "[key]")).under (stepOf e.1) <*>
        (check e.2).under (stepOf e.1) = .fits f ↔ text e.1 = .fits f.1 ∧
        check e.2 = .fits f.2 := by
    intro e f
    rw [Checked.seq_eq_fits_iff]
    constructor
    · rintro ⟨_, a, hkey, ha, rfl⟩
      obtain ⟨k, hk, rfl⟩ := Checked.map_eq_fits_iff.mp hkey
      exact ⟨Checked.under_eq_fits_iff.mp (Checked.under_eq_fits_iff.mp hk),
        Checked.under_eq_fits_iff.mp ha⟩
    · rintro ⟨hk, ha⟩
      rw [hk, ha]
      exact ⟨Prod.mk f.1, f.2, rfl, rfl, rfl⟩
  rw [heach, Checked.each_eq_fits_iff, List.forall₂_map_left_iff]
  simp only [hentry]

/-- **What holds of all values that a check lets through** and of the default holds of the field. -/
theorem holds_of_field {P : α → Prop} {check : Value → Checked α} {default a : α}
    {names : List String}
    {es : Entries} (hcheck : ∀ v a, check v = .fits a → P a) (hdefault : P default)
    (h : field check default names es = .fits a) : P a := by
  unfold field at h
  split at h
  · exact hcheck _ _ (Checked.under_eq_fits_iff.mp h)
  · obtain rfl := Checked.fits.inj h
    exact hdefault

/-- What holds of all values that a check lets through holds of one that may be absent. -/
theorem holds_of_optional {P : α → Prop} {check : Value → Checked α}
    (hcheck : ∀ v a, check v = .fits a → P a)
    {v : Value} {o : Option α} (h : optional check v = .fits o) : ∀ a, o = some a → P a := by
  rintro a rfl
  unfold optional at h
  split at h
  · exact absurd (Checked.fits.inj h) (Option.some_ne_none a).symm
  · obtain ⟨b, hb, hsome⟩ := Checked.map_eq_fits_iff.mp h
    obtain rfl := Option.some.inj hsome
    exact hcheck _ b hb

/-- The names of a mapping that is read differ. -/
theorem nodup_of_mappingOf {check : Value → Checked α} (v : Value) (t : Table α)
    (h : mappingOf check v = .fits t) :
    (t.map Prod.fst).Nodup := by
  obtain ⟨l, -, rfl⟩ := Checked.map_eq_fits_iff.mp h
  exact Table.nodup_ofList l

/-- So do those of a field that is a mapping. -/
theorem nodup_of_field {check : Value → Checked α} {names : List String} {es : Entries}
    {t : Table α}
    (h : field (mappingOf check) [] names es = .fits t) : (t.map Prod.fst).Nodup :=
  holds_of_field (P := fun t => (t.map Prod.fst).Nodup) nodup_of_mappingOf List.nodup_nil h

end Schema

end RegistryBundle
