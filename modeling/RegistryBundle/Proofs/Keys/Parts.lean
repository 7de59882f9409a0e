import RegistryBundle.Proofs.Keys.Reloading

/-!
# Manifests taken apart

What a mapping must hold to be read as a snapshot, and what it is at fault for otherwise.

* `Value.ownText?` is the text that a value is, or that its octets encode;
* `Snapshot.MadeOf` says which entries a snapshot is made of, `Snapshot.ofManifest_eq_ok_iff` that
  these are the manifests that are read;
* `Snapshot.isConfiguration_of_ofManifest`: whatever stands in a manifest that is not read, the
  fault lies in what the operator provides.
-/

namespace RegistryBundle

open Value Outcome

/-! ## Texts -/

section Texts

variable {A : Alphabet} {τ : Type} [TextOver A τ]

/-- The text that a value is, or that its octets encode. -/
def Value.ownText? (v : Value A) : Option τ :=
  match v.bare with
  | .str s => some (TextOver.ofString s)
  | .broken h t => some (TextOver.ofBroken h t)
  | .bytes b => (Schema.decoded b).map TextOver.ofString
  | _ => none

/-- What counts as a text is the text that it is, or that its octets encode. -/
theorem Schema.text_eq_fits_iff {v : Value A} {s : τ} : text v = .fits s ↔ v.ownText? = some s := by
  rw [text, ownText?]
  cases v.bare with
  | str t => simp
  | broken h t => simp
  | bytes b =>
      dsimp only
      cases decoded b <;> simp [Checked.issue]
  | _ => simp [Checked.issue]

theorem Value.ownText?_of_bare {v : Value} {s : String} (h : v.bare = .str s) :
    v.ownText? = some s := by
  rw [ownText?, h]
  rfl

/-- The text of a text is its own. -/
theorem Value.text?_of_bare : ∀ {v : Value A} {s : String}, v.bare = .str s → v.text? = some s
  | .str _, _, h => congrArg some (Value.str.inj h)
  | .shared _ v, _, h => text?_of_bare (v := v) h

theorem Value.truthy_bare : ∀ v : Value A, v.bare.truthy = v.truthy
  | .shared _ v => truthy_bare v
  | .null | .bool _ | .int _ | .float _ | .str _ | .broken .. | .bytes _ | .date _ | .moment _
  | .list _ | .pair .. | .set _ | .map _ | .foreign | .cycle _ => rfl

end Texts

namespace Snapshot

variable {A : Alphabet} {τ : Type} [TextOver A τ] {es data : Entries A} {α β : Type}

/-! ## Manifests that are read -/

/-- A part that is a mapping with entries is what stands there; one that is
absent or empty has none. -/
theorem partOf_of_bare {name : String} {entries : Entries A}
    (h : ((get? es name).getD (.map [])).bare = .map entries) :
      (partOf es name).bare = .map entries := by
  rw [partOf]
  cases hget : get? es name with
  | none =>
      rw [hget] at h
      exact h
  | some v =>
      rw [hget] at h
      dsimp only
      split
      · exact h
      · next hfalse =>
          rw [← truthy_bare, show v.bare = .map entries from h, truthy] at hfalse
          cases entries with
          | nil => rfl
          | cons e rest => exact absurd rfl hfalse

/-- The entry of a value that can be shown. -/
theorem octetsOf_eq_ok_iff {e f : Value A × Value A} :
    octetsOf e = .ok f ↔ ∃ t, e.2.text? = some t ∧ f = (e.1, .bytes t.toUTF8) := by
  rw [octetsOf]
  cases e.2.text? with
  | none => simp
  | some t => simpa using eq_comm

/-- **Data** are read as the octets of what they show. -/
theorem data_eq_fits_iff {kept : Table ByteArray τ} :
    (∃ octets, data.mapM octetsOf = .ok octets ∧
      Schema.entriesOf checkOctets (.map octets) = .fits kept) ↔
      ∃ shown, List.Forall₂ (fun e f => Schema.text e.1 = .fits f.1 ∧ e.2.text? = some f.2) data
        shown ∧ kept = octetsOfTexts shown := by
  simp only [Schema.entriesOf_eq_fits_iff]
  induction data generalizing kept with
  | nil => simp [octetsOfTexts]
  | cons e rest ih =>
      simp only [List.mapM_cons, bind_eq_ok, octetsOf_eq_ok_iff, List.forall₂_cons_left_iff]
      constructor
      · rintro ⟨octets, ⟨_, ⟨t, ht, rfl⟩, octets', hoctets, hcons⟩, hkept⟩
        obtain rfl := Except.ok.inj hcons
        obtain ⟨f, kept', ⟨hkey, hvalue⟩, hrest, rfl⟩ := List.forall₂_cons_left_iff.mp hkept
        obtain ⟨shown, hshown, rfl⟩ := ih.mp ⟨octets', hoctets, hrest⟩
        refine ⟨(f.1, t) :: shown, ⟨(f.1, t), shown, ⟨hkey, ht⟩, hshown, rfl⟩, ?_⟩
        have hf : f.2 = t.toUTF8 := (Checked.fits.inj hvalue).symm
        rw [octetsOfTexts, octetsOfTexts, List.map_cons, ← hf]
      · rintro ⟨_, ⟨f, shown, ⟨hkey, ht⟩, hshown, rfl⟩, rfl⟩
        obtain ⟨octets', hoctets, hrest⟩ := ih.mpr ⟨shown, hshown, rfl⟩
        refine ⟨(e.1, .bytes f.2.toUTF8) :: octets', ⟨_, ⟨f.2, ht, rfl⟩, octets', hoctets, rfl⟩, ?_⟩
        exact List.Forall₂.cons ⟨hkey, rfl⟩ hrest

variable [DecidableEq τ] {s : Snapshot τ}

/-- The entries of a manifest, those of its texts and those of its data, of which a snapshot is
made: `given` are the texts as they are read, `shown` the data as they are shown. -/
structure MadeOf (s : Snapshot τ) (es texts data : Entries A) (given : Table τ τ)
    (shown : Table String τ) : Prop where
  name : ∃ v, get? es "name" = some v ∧ Schema.text v = .fits s.name
  space : Schema.text ((get? es "namespace").getD (.str defaultSpace)) = .fits s.space
  textsPart : asEntries (partOf es "string_data") = .ok texts
  dataPart : (partOf es "data").bare = .map data
  textsRead : List.Forall₂ (fun e f => Schema.text e.1 = .fits f.1 ∧ Schema.text e.2 = .fits f.2)
    texts given
  dataShown : List.Forall₂ (fun e f => Schema.text e.1 = .fits f.1 ∧ e.2.text? = some f.2) data
    shown
  texts : s.texts = Table.ofList given
  octets : s.octets = Table.ofList (octetsOfTexts shown)

/-- The parts of a snapshot are checked one by one. -/
theorem ofValue_eq_fits_iff {name space texts octets : Value A} :
    ofValue (.record [("name", name), ("namespace", space), ("string_data", texts),
      ("data", octets)]) = .fits s ↔ Schema.text name = .fits s.name ∧
      Schema.text space = .fits s.space ∧
        (∃ given, Schema.entriesOf Schema.text texts = .fits given ∧ s.texts = Table.ofList given) ∧
          ∃ kept, Schema.entriesOf checkOctets octets = .fits kept ∧
            s.octets = Table.ofList kept := by
  have hparts :
    ofValue (.record [("name", name), ("namespace", space), ("string_data", texts),
      ("data", octets)]) = ofEntries <$> (Schema.text name : Checked τ).under (.name "name") <*>
      (Schema.text space).under (.name "namespace") <*>
        (Schema.entriesOf Schema.text texts).under (.name "string_data") <*>
          (Schema.entriesOf checkOctets octets).under (.name "data") := rfl
  rw [hparts]
  constructor
  · intro h
    obtain ⟨_, kept, hthree, hoctets, rfl⟩ := Checked.seq_eq_fits_iff.mp h
    obtain ⟨_, given, htwo, htexts, rfl⟩ := Checked.seq_eq_fits_iff.mp hthree
    obtain ⟨_, space', hone, hspace, rfl⟩ := Checked.seq_eq_fits_iff.mp htwo
    obtain ⟨name', hname, rfl⟩ := Checked.map_eq_fits_iff.mp hone
    exact ⟨Checked.under_eq_fits_iff.mp hname, Checked.under_eq_fits_iff.mp hspace,
      ⟨given, Checked.under_eq_fits_iff.mp htexts, rfl⟩,
      ⟨kept, Checked.under_eq_fits_iff.mp hoctets, rfl⟩⟩
  · rintro ⟨hname, hspace, ⟨given, htexts, hgiven⟩, ⟨kept, hoctets, hkept⟩⟩
    have hself : ofEntries s.name s.space given kept = s := by
      unfold ofEntries
      simp only [← hgiven, ← hkept]
    rw [hname, hspace, htexts, hoctets]
    exact congrArg Checked.fits hself

/-- **The manifests that are read.** -/
theorem ofManifest_eq_ok_iff :
    ofManifest es = .ok s ↔ ∃ texts data given shown, s.MadeOf es texts data given shown := by
  constructor
  · intro h
    obtain ⟨parts, hparts, h⟩ := bind_eq_ok.mp h
    unfold partsOfManifest at hparts
    split at hparts
    · contradiction
    · next name hname =>
        obtain ⟨texts, htexts, hparts⟩ := bind_eq_ok.mp hparts
        split at hparts
        · next data hdata =>
            obtain ⟨octets, hoctets, hparts⟩ := bind_eq_ok.mp hparts
            obtain rfl := Except.ok.inj hparts
            split at h
            · next s' hfits =>
                obtain rfl := Except.ok.inj h
                obtain ⟨hnameText, hspace, ⟨given, hgiven, htextsEq⟩, ⟨kept, hkept, hoctetsEq⟩⟩ :=
                  ofValue_eq_fits_iff.mp hfits
                obtain ⟨shown, hshown, rfl⟩ :=
                  data_eq_fits_iff.mp ⟨octets, mapError_eq_ok.mp hoctets, hkept⟩
                exact ⟨texts, data, given, shown, ⟨name, hname, hnameText⟩, hspace,
                  mapError_eq_ok.mp htexts, hdata, Schema.entriesOf_eq_fits_iff.mp hgiven, hshown,
                  htextsEq, hoctetsEq⟩
            · contradiction
        · contradiction
  · rintro ⟨texts, data, given, shown, h⟩
    obtain ⟨name, hname, hnameText⟩ := h.name
    obtain ⟨octets, hoctets, hkept⟩ := data_eq_fits_iff.mpr ⟨shown, h.dataShown, rfl⟩
    have hfits :
      ofValue (.record [("name", name),
        ("namespace", (get? es "namespace").getD (.str defaultSpace)), ("string_data", .map texts),
        ("data", .map octets)]) = .fits s :=
      ofValue_eq_fits_iff.mpr ⟨hnameText, h.space,
        ⟨given, Schema.entriesOf_eq_fits_iff.mpr h.textsRead, h.texts⟩, ⟨_, hkept, h.octets⟩⟩
    have hparts : partsOfManifest es = .ok [("name", name),
        ("namespace", (get? es "namespace").getD (.str defaultSpace)), ("string_data", .map texts),
        ("data", .map octets)] := by
      rw [partsOfManifest, hname]
      simp only [mapError_eq_ok.mpr h.textsPart, h.dataPart, mapError_eq_ok.mpr hoctets, ok_bind,
        pure_eq_ok]
    rw [ofManifest, hparts, ok_bind]
    simp only [hfits, pure_eq_ok]

/-! ## Manifests that are not -/

/-- A step that fails, if at all, for a fault in what the operator provides. -/
def BlamesInput (x : Except ManifestFault α) : Prop :=
  ∀ f, x = .error f → f.isConfiguration = true

namespace BlamesInput

theorem ok (a : α) : BlamesInput (.ok a) :=
  nofun

theorem bind {x : Except ManifestFault α} {f : α → Except ManifestFault β} (h : BlamesInput x)
    (hf : ∀ a, BlamesInput (f a)) : BlamesInput (x >>= f) := by
  cases x with
  | ok a => exact hf a
  | error e => exact fun e' he => h e' (congrArg _ (Except.error.inj he))

theorem mapM {f : α → Except ManifestFault β} (hf : ∀ a, BlamesInput (f a)) (l : List α) :
    BlamesInput (l.mapM f) := by
  induction l with
  | nil => exact ok []
  | cons a l ih =>
      rw [List.mapM_cons]
      exact (hf a).bind fun b => ih.bind fun bs => ok (b :: bs)

end BlamesInput

private theorem blamesInput_itemsOf (v : Value A) : BlamesInput (itemsOf v) := by
  rintro f hf
  unfold itemsOf at hf
  split at hf
  all_goals first
    | contradiction
    | exact (Except.error.inj hf) ▸ rfl

private theorem blamesInput_entryOfItem (item : Value A) : BlamesInput (entryOfItem item) := by
  refine (blamesInput_itemsOf item).bind fun items => ?_
  split
  · split
    · exact .ok _
    · exact fun f hf => (Except.error.inj hf) ▸ rfl
  · exact fun f hf => (Except.error.inj hf) ▸ rfl

private theorem blamesInput_asEntries (v : Value A) : BlamesInput (asEntries v) := by
  unfold asEntries
  split
  · exact .ok _
  · exact (blamesInput_itemsOf v.bare).bind fun items =>
      (BlamesInput.mapM blamesInput_entryOfItem items).bind fun entries => .ok _

private theorem blamesInput_octetsOf (e : Value A × Value A) : BlamesInput (octetsOf e) := by
  intro f hf
  unfold octetsOf at hf
  split at hf
  · contradiction
  · obtain rfl := Except.error.inj hf
    unfold textBreach
    split <;> rfl

/-- A fault is what it is called. -/
theorem mapError_fault {x : Except ManifestFault α} {f : ManifestFault}
    (h : x.mapError ManifestError.fault = .error (.fault f)) : x = .error f := by
  obtain ⟨e, he, hf⟩ := mapError_eq_error.mp h
  rw [he, ManifestError.fault.inj hf]

/-- **Whatever stands in a manifest** that is not read, it has no name, or the fault lies in what
the operator provides. -/
theorem isConfiguration_of_ofManifest {f : ManifestFault}
    (h : ofManifest (τ := τ) es = .error (.fault f)) : f.isConfiguration = true := by
  cases hparts : partsOfManifest es with
  | ok parts =>
      rw [ofManifest, hparts, ok_bind] at h
      split at h
      · contradiction
      · obtain rfl := ManifestError.fault.inj (Except.error.inj h)
        rfl
  | error e =>
      rw [ofManifest, hparts, error_bind] at h
      obtain rfl := Except.error.inj h
      unfold partsOfManifest at hparts
      split at hparts
      · simp at hparts
      · rcases bind_eq_error.mp hparts with htexts | ⟨texts, -, hparts⟩
        · exact blamesInput_asEntries _ f (mapError_fault htexts)
        · split at hparts
          · next data _ =>
              rcases bind_eq_error.mp hparts with hoctets | ⟨octets, -, hparts⟩
              · exact BlamesInput.mapM blamesInput_octetsOf data f (mapError_fault hoctets)
              · contradiction
          · obtain rfl := ManifestError.fault.inj (Except.error.inj hparts)
            rfl

end Snapshot

end RegistryBundle
