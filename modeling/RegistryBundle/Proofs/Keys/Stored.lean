import RegistryBundle.Proofs.Keys.Parts
import RegistryBundle.Proofs.Keys.Provision

/-!
# What a loaded snapshot tells

The keys that a snapshot finds after it was read from a manifest, against the texts that stand in
the manifest. An entry of the data is read as what it shows: a text is shown as itself, and
everything else in a notation, which is a key like any other then.

* `Value.quoted?_ne_nil` and `Value.text?_ne_ownText?`: a notation is never empty, and never the
  text of the octets that it shows;
* `Snapshot.lookup_of_madeOf` says what is found under a name;
* `Snapshot.TellsOnly` are the names under which nothing but texts of the manifest is
  found, and a new key is made where there is none; `Snapshot.tellsOnly_of_ofManifest`
  says which names these are.
-/

namespace RegistryBundle

/-! ## Notations -/

theorem Binary64.toText_ne_nil (f : FloatFormat) (hnan : f.nan ≠ "") (hinf : f.infinity ≠ "") :
    ∀ x : Binary64, x.toText f ≠ []
  | .nan => by
      rw [toText]
      simpa using hnan
  | .infinite s => by
      rw [toText, ne_eq, List.append_eq_nil_iff]
      exact fun h => hinf (String.toList_eq_nil_iff.mp h.2)
  | .finite s m e => by
      have hdigits : ∀ ds point, digitsText f ds point ≠ [] := by
        intro ds point
        unfold digitsText
        dsimp only
        split
        · split
          · simp
          · split <;> simp
        · simp
      rw [toText]
      intro h
      obtain ⟨-, hbody⟩ := List.append_eq_nil_iff.mp h
      split at hbody
      · exact absurd hbody (List.cons_ne_nil _ _)
      · exact hdigits _ _ hbody

/-- Where each part of a text has a character, there are no more parts than characters. -/
theorem Quoted.length_le_flatMap {α β : Type} {f : α → List β} (h : ∀ a, 0 < (f a).length)
    (l : List α) :
    l.length ≤ (l.flatMap f).length := by
  induction l with
  | nil => exact Nat.le_refl _
  | cons a rest ih =>
      have hfirst := h a
      rw [List.flatMap_cons, List.length_append, List.length_cons]
      omega

/-- Octets in a list are as many. -/
theorem Quoted.length_toList (b : ByteArray) : b.toList.length = b.size := by
  have hloop : ∀ i l, (ByteArray.toList.loop b i l).length = l.length + (b.size - i) := by
    intro i l
    induction i, l using ByteArray.toList.loop.induct b with
    | case1 i l hi ih =>
        rw [ByteArray.toList.loop, if_pos hi, ih, List.length_cons]
        omega
    | case2 i l hi =>
        rw [ByteArray.toList.loop, if_neg hi, List.length_reverse]
        omega
  rw [ByteArray.toList, hloop, List.length_nil, Nat.zero_add, Nat.sub_zero]

/-- The notation of octets is longer than the octets. -/
theorem Quoted.size_lt_octets (b : ByteArray) : b.size < (Quoted.octets b).length := by
  have hescape : ∀ shown quote c, 0 < (escape shown quote c).length := by
    intro shown quote c
    unfold escape
    repeat' split
    all_goals simp
  have hlength := length_le_flatMap (hescape (fun c => 0x20 ≤ c.toNat && c.toNat < 0x7F)
    (quoteFor (b.toList.map fun o => Char.ofNat o.toNat)))
      (b.toList.map fun o => Char.ofNat o.toNat)
  rw [List.length_map, length_toList] at hlength
  rw [octets]
  simp only [List.length_cons, List.length_append, List.length_nil]
  omega

namespace Value

/-- A text has no more characters than octets. -/
theorem length_le_of_decoded {b : ByteArray} {cs : List Char}
    (h : Schema.decoded b = some (String.ofList cs)) :
    cs.length ≤ b.size := by
  have hdecode : Snapshot.decode b = .ok (String.ofList cs) := by
    rw [Snapshot.decode, show String.fromUTF8? b = some (String.ofList cs) from h]
  have hsize : b.size = (cs.flatMap String.utf8EncodeChar).length := by
    rw [← Snapshot.decode_eq_ok_iff.mp hdecode, String.toUTF8, String.toByteArray_ofList,
      List.utf8Encode, List.size_toByteArray]
  rw [hsize]
  refine Quoted.length_le_flatMap (fun c => ?_) cs
  rw [String.length_utf8EncodeChar]
  exact Char.utf8Size_pos c

/-- A notation is never empty. -/
theorem quoted?_ne_nil : ∀ {v : Value} {cs : List Char}, v.quoted? = some cs → cs ≠ []
  | .null, cs, h => by
      obtain rfl := Option.some.inj h
      decide
  | .bool b, cs, h => by
      obtain rfl := Option.some.inj h
      cases b <;> decide
  | .int n, cs, h => by
      rw [quoted?, intText?] at h
      split at h
      · obtain rfl := Option.some.inj h
        simp [Nat.toDigits_ne_nil]
      · contradiction
  | .float x, cs, h => by
      obtain rfl := Option.some.inj h
      exact Binary64.toText_ne_nil _ (by decide) (by decide) x
  | .str _, cs, h | .bytes _, cs, h | .date _, cs, h | .moment _, cs, h | .foreign, cs, h
  | .cycle _, cs, h => by
      obtain rfl := Option.some.inj h
      exact List.cons_ne_nil _ _
  | .list items, cs, h => by
      rw [quoted?] at h
      obtain ⟨ps, -, rfl⟩ := Option.map_eq_some_iff.mp h
      exact List.cons_ne_nil _ _
  | .pair a b, cs, h => by
      rw [quoted?] at h
      obtain ⟨x, -, h⟩ := Option.bind_eq_some_iff.mp h
      obtain ⟨y, -, h⟩ := Option.bind_eq_some_iff.mp h
      obtain rfl := Option.some.inj h
      exact List.cons_ne_nil _ _
  | .set items, cs, h => by
      rw [quoted?] at h
      obtain ⟨ps, -, rfl⟩ := Option.map_eq_some_iff.mp h
      split <;> exact List.cons_ne_nil _ _
  | .map entries, cs, h => by
      rw [quoted?] at h
      obtain ⟨ps, -, rfl⟩ := Option.map_eq_some_iff.mp h
      exact List.cons_ne_nil _ _
  | .shared _ v, cs, h => by
      rw [quoted?] at h
      exact quoted?_ne_nil (v := v) h

/-- What a value other than a text shows is not empty. -/
theorem text?_ne_empty : ∀ {v : Value} {t : String}, v.text? = some t → (∀ s, v.bare ≠ .str s) →
    t ≠ ""
  | .str s, _, _, hother => absurd rfl (hother s)
  | .shared _ v, _, h, hother => text?_ne_empty (v := v) h hother
  | .date d, t, h, _ => by
      obtain rfl := Option.some.inj h
      simp [Date.toText]
  | .moment m, t, h, _ => by
      obtain rfl := Option.some.inj h
      simp [Moment.toText, Date.toText]
  | .null, t, h, _ | .bool _, t, h, _ | .int _, t, h, _ | .float _, t, h, _ | .bytes _, t, h, _
  | .list _, t, h, _ | .pair .., t, h, _ | .set _, t, h, _ | .map _, t, h, _ | .foreign, t, h, _
  | .cycle _, t, h, _ => by
      obtain ⟨cs, hcs, rfl⟩ := Option.map_eq_some_iff.mp h
      simpa using quoted?_ne_nil hcs

/-- **What a value other than a text shows** is not the text that it encodes. -/
theorem text?_ne_ownText? : ∀ {v : Value} {t : String}, v.text? = some t → (∀ s, v.bare ≠ .str s) →
    v.ownText? ≠ some t
  | .str s, _, _, hother => absurd rfl (hother s)
  | .shared _ v, _, h, hother => text?_ne_ownText? (v := v) h hother
  | .bytes b, t, h, _ => by
      intro hown
      obtain rfl : String.ofList (Quoted.octets b) = t := Option.some.inj h
      have hdecoded : Schema.decoded b = some (String.ofList (Quoted.octets b)) := by
        simpa [ownText?, bare] using hown
      have hle := length_le_of_decoded hdecoded
      have hlt := Quoted.size_lt_octets b
      omega
  | .null, _, _, _ | .bool _, _, _, _ | .int _, _, _, _ | .float _, _, _, _ | .date _, _, _, _
  | .moment _, _, _, _ | .list _, _, _, _ | .pair .., _, _, _ | .set _, _, _, _
  | .map _, _, _, _ | .foreign, _, _, _ | .cycle _, _, _, _ => nofun

end Value

/-! ## Lookups -/

namespace Snapshot

open Value

variable {s : Snapshot} {es texts data : Entries} {given shown : Table String} {name : String}

/-- The value of the last entry under a name. -/
def entryFor (name : String) (entries : Entries) : Option Value :=
  (entries.reverse.find? fun e => e.1.ownText? == some name).map Prod.snd

/-- The text that is read from an entry, an empty one counting as absent. -/
def found? (read : Value → Option String) (entry : Option Value) : Option String :=
  (entry.bind read).filter fun t => t != ""

/-- Under a name stands what was read from the last entry under it. -/
theorem lookup_rel {α : Type} {R : Value → α → Prop} {entries : Entries} {l : Table α}
    (h : List.Forall₂ (fun e f => Schema.text e.1 = .fits f.1 ∧ R e.2 f.2) entries l)
    (name : String) :
    Option.Rel R (entryFor name entries) ((Table.ofList l).lookup name) :=
  Table.rel_lookup_ofList ownText? (h.imp fun _ _ he => ⟨Schema.text_eq_fits_iff.mp he.1, he.2⟩)
    name

/-- **What is found under a name**: the own text of its entry among the texts, else what its entry
among the data shows. -/
theorem lookup_of_madeOf (h : s.MadeOf es texts data given shown) (name : String) :
    s.lookup name = .ok ((found? ownText? (entryFor name texts)).or
      (found? text? (entryFor name data))) := by
  have htexts : Option.Rel (fun v t => v.ownText? = some t) (entryFor name texts)
      (s.texts.lookup name) := by
    rw [h.texts]
    exact lookup_rel (h.textsRead.imp fun _ _ he => ⟨he.1, Schema.text_eq_fits_iff.mp he.2⟩) name
  have hdata : Option.Rel (fun v b => ∃ t, v.text? = some t ∧ t.toUTF8 = b) (entryFor name data)
      (s.octets.lookup name) := by
    rw [h.octets]
    refine lookup_rel ?_ name
    rw [octetsOfTexts, List.forall₂_map_right_iff]
    exact h.dataShown.imp fun _ f he => ⟨he.1, f.2, he.2, rfl⟩
  have hoctets : lookup.ofOctets s name = .ok (found? text? (entryFor name data)) := by
    rw [lookup.ofOctets]
    generalize entryFor name data = entry, s.octets.lookup name = kept at hdata
    cases hdata with
    | none => rfl
    | @some v b hshown =>
        obtain ⟨t, ht, rfl⟩ := hshown
        rw [found?, Option.bind_some, ht]
        dsimp only
        rw [decode_eq_ok_iff.mpr rfl]
        by_cases hempty : t = ""
        · subst hempty
          rfl
        · simp [Option.filter, hempty]
  rw [lookup]
  generalize entryFor name texts = entry, s.texts.lookup name = kept at htexts
  cases htexts with
  | none => exact hoctets
  | @some v t hown =>
      rw [found?, Option.bind_some, hown]
      by_cases hempty : t = ""
      · subst hempty
        exact hoctets
      · simp [Option.filter, hempty]

/-! ## Texts of the manifest -/

/-- An entry that is missing, null or empty. -/
def IsBlank : Option Value → Prop
  | none => True
  | some v => v.bare = .null ∨ v.ownText? = some ""

/-- Nothing but texts of the manifest is found under a name, and where both its entries are
blank a new key is made. -/
structure TellsOnly (s : Snapshot) (texts data : Entries) (name : String) : Prop where
  own : ∀ key, s.lookup name = .ok (some key) →
    key ≠ "" ∧ ((entryFor name texts).bind ownText? = some key ∨
      (entryFor name data).bind ownText? = some key)
  anew : IsBlank (entryFor name texts) → IsBlank (entryFor name data) →
    ∀ (d : Descriptor) (length : Int) (config : Entries), SecretKey.provided? config name =
      .ok none → (SecretKey.resolve d length config (some s) name).perform =
      (SecretKey.resolve.make length name s).perform

private theorem found?_eq_some_iff {read : Value → Option String} {entry : Option Value}
    {key : String} :
    found? read entry = some key ↔ entry.bind read = some key ∧ key ≠ "" := by
  rw [found?, Option.filter_eq_some_iff, bne_iff_ne]

/-- A blank entry has no text. -/
theorem IsBlank.found?_eq_none :
    ∀ {entry : Option Value}, IsBlank entry → found? ownText? entry = none
  | none, _ => rfl
  | some v, .inl hnull => by
      rw [found?, Option.bind_some, ownText?, hnull]
      rfl
  | some v, .inr hempty => by
      rw [found?, Option.bind_some, hempty]
      rfl

/-- Everything among the data of a manifest that is read can be shown. -/
theorem MadeOf.exists_text? (h : s.MadeOf es texts data given shown) {v : Value}
    (hentry : entryFor name data = some v) :
    ∃ t, v.text? = some t := by
  have hshown := lookup_rel (R := fun v t => v.text? = some t) h.dataShown name
  rw [hentry] at hshown
  generalize (Table.ofList shown).lookup name = kept at hshown
  cases hshown with
  | some ht => exact ⟨_, ht⟩

/-- A key that the snapshot does not find is made, unless the user gives it. -/
theorem resolve_of_unfound {d : Descriptor} {length : Int} {config : Entries}
    (absent : SecretKey.provided? config name = .ok none) (hnone : s.lookup name = .ok none) :
    (SecretKey.resolve d length config (some s) name).perform =
      (SecretKey.resolve.make length name s).perform := by
  funext session
  rw [SecretKey.resolve, absent, hnone]
  rfl

/-- Where the data have a text, or none of it is needed, what is shown is the text itself. -/
theorem lookup_of_ownTexts (h : s.MadeOf es texts data given shown)
    (htext : found? ownText? (entryFor name texts) ≠ none ∨ ∀ v, entryFor name data = some v →
      ∃ t, v.bare = .str t) :
    s.lookup name = .ok ((found? ownText? (entryFor name texts)).or
      (found? ownText? (entryFor name data))) := by
  rw [lookup_of_madeOf h]
  cases hfound : found? ownText? (entryFor name texts) with
  | some key => rfl
  | none =>
      have hall := htext.resolve_left (fun hne => hne hfound)
      cases hentry : entryFor name data with
      | none => rfl
      | some v =>
          obtain ⟨t, ht⟩ := hall v hentry
          rw [found?, found?, Option.bind_some, Option.bind_some, text?_of_bare ht,
            ownText?_of_bare ht]

/-- **Which names tell only texts**: those with a text of their own that is not empty, and those
under which the data have a text or nothing. -/
theorem tellsOnly_iff (h : s.MadeOf es texts data given shown) (name : String) :
    s.TellsOnly texts data name ↔ found? ownText? (entryFor name texts) ≠ none ∨
      ∀ v, entryFor name data = some v → ∃ t, v.bare = .str t := by
  constructor
  · intro htells
    by_contra hnot
    rw [not_or, not_not] at hnot
    obtain ⟨hnone, hother⟩ := hnot
    push Not at hother
    obtain ⟨v, hentry, hbare⟩ := hother
    obtain ⟨t, ht⟩ := h.exists_text? hentry
    -- What is found is the notation of a value that is no text, and no text of the manifest reads
    -- like that.
    have hlookup : s.lookup name = .ok (some t) := by
      have hfound : found? text? (entryFor name data) = some t :=
        found?_eq_some_iff.mpr ⟨by rw [hentry]; exact ht, text?_ne_empty ht hbare⟩
      rw [lookup_of_madeOf h, hnone, hfound]
      rfl
    obtain ⟨hne, hown | hown⟩ := htells.own t hlookup
    · exact absurd (hnone.symm.trans (found?_eq_some_iff.mpr ⟨hown, hne⟩)) nofun
    · rw [hentry] at hown
      exact text?_ne_ownText? ht hbare hown
  · intro htext
    have hlookup := lookup_of_ownTexts h htext
    refine ⟨fun key hkey => ?_, fun htexts hdata d length config absent => ?_⟩
    · rw [hlookup, Except.ok.injEq, Option.or_eq_some_iff] at hkey
      rcases hkey with hkey | ⟨-, hkey⟩
      · obtain ⟨hown, hne⟩ := found?_eq_some_iff.mp hkey
        exact ⟨hne, .inl hown⟩
      · obtain ⟨hown, hne⟩ := found?_eq_some_iff.mp hkey
        exact ⟨hne, .inr hown⟩
    · apply resolve_of_unfound absent
      rw [hlookup, htexts.found?_eq_none, hdata.found?_eq_none]
      rfl

/-- **What a loaded snapshot tells.** Under each name it finds a text of the manifest, the text
before the data, and a new key is made where there is none, exactly unless the data have something
else than a text there and the texts have nothing. -/
theorem tellsOnly_of_ofManifest (h : ofManifest es = .ok s) :
    ∃ texts data, asEntries (partOf es "string_data") = .ok texts ∧
      (partOf es "data").bare = .map data ∧
      ∀ name, (s.TellsOnly texts data name ↔ found? ownText? (entryFor name texts) ≠ none ∨
          ∀ v, entryFor name data = some v → ∃ t, v.bare = .str t) ∧
        (s.TellsOnly texts data name → s.lookup name =
          .ok ((found? ownText? (entryFor name texts)).or
            (found? ownText? (entryFor name data)))) := by
  obtain ⟨texts, data, given, shown, hmade⟩ := ofManifest_eq_ok_iff.mp h
  refine ⟨texts, data, hmade.textsPart, hmade.dataPart,
    fun name => ⟨tellsOnly_iff hmade name, fun htells => ?_⟩⟩
  exact lookup_of_ownTexts hmade ((tellsOnly_iff hmade name).mp htells)

/-- A manifest with an empty text, and data of texts. -/
def legacyEntries : Entries :=
  [(.str "name", .str "k"), (.str "string_data", .map [(.str "SECRET_KEY", .str "")]),
    (.str "data", .map [(.str "SECRET_KEY", .str "legacy")])]

/-- From that manifest the legacy key is found under the name of the empty text. -/
theorem tellsOnly_of_ofManifest_legacy : ∃ s texts data, ofManifest legacyEntries = .ok s ∧
    s.TellsOnly texts data "SECRET_KEY" ∧ s.lookup "SECRET_KEY" = .ok (some "legacy") := by
  have hread : ofManifest legacyEntries =
      .ok (ofEntries "k" "default" [("SECRET_KEY", "")] [("SECRET_KEY", "legacy".toUTF8)]) := by
    decide +kernel
  obtain ⟨texts, data, htexts, hdata, htells⟩ := tellsOnly_of_ofManifest hread
  obtain rfl := Except.ok.inj htexts
  obtain rfl := Value.map.inj hdata
  obtain ⟨hiff, hlookup⟩ := htells "SECRET_KEY"
  have hlegacy := hiff.mpr (.inr fun v hv => ⟨"legacy", by rw [← Option.some.inj hv]; rfl⟩)
  exact ⟨_, _, _, hread, hlegacy, hlookup hlegacy⟩

/-- A manifest whose data have octets under one managed key and null under the other. -/
def shownEntries : Entries :=
  [(.str "name", .str "k"),
    (.str "data", .map [(.str "SECRET_KEY", .bytes "hi".toUTF8),
      (.str "DATABASE_SECRET_KEY", .null)])]

/-- **From that manifest** keys are found that it does not hold. -/
theorem keys_invented : ∃ s, ofManifest shownEntries = .ok s ∧
    s.lookup "SECRET_KEY" = .ok (some "b'hi'") ∧
      s.lookup "DATABASE_SECRET_KEY" = .ok (some "None") ∧
    ∀ texts data, asEntries (partOf shownEntries "string_data") = .ok texts →
      (partOf shownEntries "data").bare = .map data →
        ¬ s.TellsOnly texts data "SECRET_KEY" ∧ ¬ s.TellsOnly texts data "DATABASE_SECRET_KEY" := by
  refine ⟨ofEntries "k" "default" [] [("SECRET_KEY", "b'hi'".toUTF8),
    ("DATABASE_SECRET_KEY", "None".toUTF8)], by decide +kernel, by decide +kernel,
    by decide +kernel, fun texts data htexts hdata => ?_⟩
  obtain rfl := Except.ok.inj htexts
  obtain rfl := Value.map.inj hdata
  refine ⟨fun htells => ?_, fun htells => ?_⟩
  · have hown := (htells.own "b'hi'" (by decide +kernel)).2
    revert hown
    decide +kernel
  · have hown := (htells.own "None" (by decide +kernel)).2
    revert hown
    decide +kernel

end Snapshot

end RegistryBundle
