import RegistryBundle.Keys.Snapshot
import RegistryBundle.Proofs.Keys.Snapshot
import RegistryBundle.Proofs.Outcome
import RegistryBundle.Proofs.Schema.Fits

/-!
# Snapshots that are kept and loaded

A snapshot whose octets encode texts has a manifest, and what the manifest holds is the snapshot
again; a snapshot with other octets has none. So it makes no difference for what is found later how
often a snapshot is reloaded.

* `Snapshot.Legible` are snapshots whose octets encode texts;
* `Snapshot.manifest_of_legible` and `Snapshot.manifest_error_iff` say which snapshots have a
  manifest, `Snapshot.ofManifest_manifest` what it holds;
* `Snapshot.course_eq` is a history of writes, lookups and reloads without its reloads;
* `Snapshot.reloads_vanish` is the main statement.
-/

namespace RegistryBundle.Snapshot

open Value

/-! ## Octets that encode texts -/

/-- Octets that encode a text. -/
def EncodesText (b : ByteArray) : Prop :=
  ∃ t : String, t.toUTF8 = b

/-- The text that octets encode is the one whose encoding they are. -/
theorem decode_eq_ok_iff {b : ByteArray} {t : String} : decode b = .ok t ↔ t.toUTF8 = b := by
  unfold decode String.fromUTF8?
  constructor
  · intro h
    split at h
    · next s hs =>
        split at hs
        · obtain rfl := Option.some.inj hs
          obtain rfl := Except.ok.inj h
          rfl
        · contradiction
    · contradiction
  · rintro rfl
    have hvalid : t.toUTF8.IsValidUTF8 := t.isValidUTF8
    rw [dif_pos hvalid]
    rfl

/-- Other octets have no text. -/
theorem decode_of_not_encodesText {b : ByteArray} (h : ¬ EncodesText b) :
    decode b = .error (.breach .encoding) := by
  cases hdecode : decode b with
  | ok t => exact absurd ⟨t, decode_eq_ok_iff.mp hdecode⟩ h
  | error f =>
      unfold decode at hdecode
      split at hdecode
      · contradiction
      · exact hdecode.symm

/-- A snapshot all of whose octets encode texts. -/
def Legible (s : Snapshot) : Prop :=
  ∀ e ∈ s.octets, EncodesText e.2

variable {s : Snapshot}

/-- The octets of texts. -/
def octetsOfTexts {κ : Type} (texts : Table String κ) : Table ByteArray κ :=
  texts.map fun e => (e.1, e.2.toUTF8)

/-- The octets of a legible snapshot are those of texts. -/
theorem Legible.exists_texts (h : s.Legible) : ∃ texts, s.octets = octetsOfTexts texts := by
  unfold Legible at h
  generalize s.octets = octets at h ⊢
  induction octets with
  | nil => exact ⟨[], rfl⟩
  | cons e rest ih =>
      obtain ⟨t, ht⟩ := h e List.mem_cons_self
      obtain ⟨texts, rfl⟩ := ih fun f hf => h f (List.mem_cons_of_mem e hf)
      refine ⟨(e.1, t) :: texts, ?_⟩
      rw [octetsOfTexts, octetsOfTexts, List.map_cons, ht]

/-- A legible snapshot finds a key or does not. -/
theorem Legible.exists_lookup (h : s.Legible) (name : String) :
    ∃ found, s.lookup name = .ok found := by
  have hoctets : ∃ found, lookup.ofOctets s name = .ok found := by
    unfold lookup.ofOctets
    split
    · next b hb =>
        split
        · exact ⟨_, rfl⟩
        · obtain ⟨before, after, heq, -⟩ := List.lookup_eq_some_iff.mp hb
          obtain ⟨t, ht⟩ := h (name, b) (by rw [heq]; simp)
          rw [decode_eq_ok_iff.mpr ht]
          exact ⟨_, rfl⟩
    · exact ⟨_, rfl⟩
  unfold lookup
  split
  · split
    · exact hoctets
    · exact ⟨_, rfl⟩
  · exact hoctets

/-! ## The manifest -/

/-- The entries of texts. -/
def textEntries (texts : Table String) : Entries :=
  Table.entries (texts.map fun e => (e.1, .str e.2))

/-- The entries of a manifest of texts. -/
def entries (s : Snapshot) : Entries :=
  [(.str "name", .str s.name), (.str "namespace", .str s.space),
    (.str "string_data", .map (textEntries s.texts))]

/-- The entries of a manifest whose octets encode texts. -/
def entriesWith (s : Snapshot) (decoded : Table String) : Entries :=
  s.entries ++ if decoded = [] then [] else [(.str "data", .map (textEntries decoded))]

/-- An entry of octets as one of a text. -/
def decodedEntry (e : String × ByteArray) : Except Failure (String × Value) := do
  let t ← decode e.2
  return (e.1, .str t)

/-- The manifest, in terms of its entries. -/
theorem manifest_eq (s : Snapshot) : s.manifest =
    if s.octets.isEmpty then .ok (.map s.entries)
    else (s.octets.mapM decodedEntry).map fun decoded =>
      .map (s.entries ++ [(.str "data", .record decoded)]) := by
  rw [manifest]
  split
  · rfl
  · change (s.octets.mapM decodedEntry >>= fun decoded => _) = _
    cases s.octets.mapM decodedEntry <;> rfl

/-- The octets of texts are decoded to the texts. -/
theorem mapM_decodedEntry (texts : Table String) :
    (octetsOfTexts texts).mapM decodedEntry = .ok (texts.map fun e => (e.1, .str e.2)) := by
  induction texts with
  | nil => rfl
  | cons e rest ih =>
      have hfirst : decodedEntry (e.1, e.2.toUTF8) = .ok (e.1, .str e.2) := by
        rw [decodedEntry, decode_eq_ok_iff.mpr rfl]
        rfl
      rw [octetsOfTexts, List.map_cons, List.mapM_cons, ← octetsOfTexts, ih, hfirst]
      rfl

/-- Where some octets encode no text, they cannot be decoded. -/
theorem mapM_decodedEntry_of_not {octets : Table ByteArray} (h : ¬ ∀ e ∈ octets, EncodesText e.2) :
    octets.mapM decodedEntry = .error (.breach .encoding) := by
  induction octets with
  | nil => exact absurd (fun _ he => absurd he List.not_mem_nil) h
  | cons e rest ih =>
      rw [List.mapM_cons]
      by_cases hfirst : EncodesText e.2
      · obtain ⟨t, ht⟩ := hfirst
        have hrest : ¬ ∀ f ∈ rest, EncodesText f.2 := by
          intro hall
          apply h
          intro f hf
          rcases List.mem_cons.mp hf with rfl | hf
          · exact ⟨t, ht⟩
          · exact hall f hf
        rw [decodedEntry, decode_eq_ok_iff.mpr ht, ih hrest]
        rfl
      · rw [decodedEntry, decode_of_not_encodesText hfirst]
        rfl

/-- **A legible snapshot has a manifest.** -/
theorem manifest_of_legible {decoded : Table String} (h : s.octets = octetsOfTexts decoded) :
    s.manifest = .ok (.map (s.entriesWith decoded)) := by
  rw [manifest_eq, h]
  cases decoded with
  | nil => rfl
  | cons e rest =>
      have hsome : (octetsOfTexts (e :: rest)).isEmpty = false := rfl
      rw [hsome, if_neg Bool.false_ne_true, mapM_decodedEntry, Outcome.map_ok]
      rfl

/-- A snapshot with other octets has none. -/
theorem manifest_of_not_legible (h : ¬ s.Legible) : s.manifest = .error (.breach .encoding) := by
  have hsome : s.octets.isEmpty = false := by
    cases hoctets : s.octets with
    | nil =>
        refine absurd (fun e he => ?_) h
        rw [hoctets] at he
        exact absurd he List.not_mem_nil
    | cons e rest => rfl
  rw [manifest_eq, hsome, if_neg Bool.false_ne_true, mapM_decodedEntry_of_not h, Outcome.map_error]

/-- **A snapshot has no manifest exactly if some of its octets encode no text.** -/
theorem manifest_error_iff : (∃ f, s.manifest = .error f) ↔ ∃ e ∈ s.octets, ¬ EncodesText e.2 := by
  constructor
  · intro hparts
    obtain ⟨f, hf⟩ := hparts
    by_contra hall
    push Not at hall
    obtain ⟨decoded, hdecoded⟩ := Legible.exists_texts hall
    rw [manifest_of_legible hdecoded] at hf
    contradiction
  · rintro ⟨e, he, hnot⟩
    exact ⟨_, manifest_of_not_legible fun hall => hnot (hall e he)⟩

/-! ## Reading -/

/-- A part that is a mapping. -/
theorem partOf_map {es part : Entries} {name : String} (h : Value.get? es name = some (.map part)) :
    partOf es name = .map part := by
  rw [partOf, h]
  cases part <;> rfl

/-- The texts of a manifest become octets. -/
theorem mapM_octetsOf (texts : Table String) :
    (textEntries texts).mapM octetsOf =
      .ok (Table.entries (texts.map fun e => (e.1, .bytes e.2.toUTF8))) := by
  induction texts with
  | nil => rfl
  | cons e rest ih =>
      rw [textEntries, List.map_cons, Table.entries_cons, List.mapM_cons, ← textEntries, ih]
      rfl

/-- The parts of a snapshot are read as it is. -/
theorem ofValue_parts {decoded : Table String} (hdecoded : s.octets = octetsOfTexts decoded) :
    ofValue (.record [("name", .str s.name), ("namespace", .str s.space),
      ("string_data", .map (textEntries s.texts)),
      ("data", .map (Table.entries (decoded.map fun e => (e.1, .bytes e.2.toUTF8))))]) =
      .fits s := by
  have htexts : Schema.entriesOf Schema.text (.map (textEntries s.texts)) = .fits s.texts :=
    Schema.entriesOf_entries fun e _ => Schema.text_str e.2
  have hoctets : Schema.entriesOf checkOctets
      (.map (Table.entries (decoded.map fun e => (e.1, .bytes e.2.toUTF8)))) = .fits s.octets := by
    have hread : Schema.entriesOf checkOctets
        (.map (Table.entries ((octetsOfTexts decoded).map fun e => (e.1, .bytes e.2)))) =
          .fits (octetsOfTexts decoded) :=
      Schema.entriesOf_entries fun _ _ => rfl
    rw [octetsOfTexts, List.map_map] at hread
    rw [hdecoded]
    exact hread
  have hself : ofEntries s.name s.space s.texts s.octets = s := by
    unfold ofEntries
    simp only [Table.ofList_eq_self s.nodupTexts, Table.ofList_eq_self s.nodupOctets]
  simp only [ofValue, Value.record, List.map_cons, List.map_nil, Schema.record, bare,
    Schema.required, Schema.field, Schema.findFirst, get?_cons, sameKey_str_str, String.reduceBEq,
    Bool.false_eq_true, if_false, if_true, Schema.text_str, htexts, hoctets, Checked.under_fits,
    Checked.map_fits, Checked.seq_fits, hself]

/-- **The manifest is read as the snapshot.** -/
theorem ofManifest_entriesWith {decoded : Table String}
    (hdecoded : s.octets = octetsOfTexts decoded) : ofManifest (s.entriesWith decoded) = .ok s := by
  have hname : Value.get? (s.entriesWith decoded) "name" = some (.str s.name) := rfl
  have hspace : Value.get? (s.entriesWith decoded) "namespace" = some (.str s.space) := rfl
  have htexts : partOf (s.entriesWith decoded) "string_data" = .map (textEntries s.texts) :=
    partOf_map rfl
  have hdata : partOf (s.entriesWith decoded) "data" = .map (textEntries decoded) := by
    cases decoded with
    | nil => rfl
    | cons e rest => exact partOf_map rfl
  have hparts : partsOfManifest (s.entriesWith decoded) =
    .ok [("name", .str s.name), ("namespace", .str s.space),
      ("string_data", .map (textEntries s.texts)),
      ("data", .map (Table.entries (decoded.map fun e => (e.1, .bytes e.2.toUTF8))))] := by
    rw [partsOfManifest, hname, htexts, hdata, hspace]
    simp only [bare, mapM_octetsOf]
    rfl
  rw [ofManifest, hparts, Outcome.ok_bind, ofValue_parts hdecoded]
  rfl

/-- What a manifest holds is the snapshot it was made of. -/
theorem ofManifest_manifest {v : Value} (hv : s.manifest = .ok v) :
    ∃ es, v = .map es ∧ ofManifest es = .ok s := by
  by_cases hlegible : s.Legible
  · obtain ⟨decoded, hdecoded⟩ := hlegible.exists_texts
    rw [manifest_of_legible hdecoded] at hv
    exact ⟨_, (Except.ok.inj hv).symm, ofManifest_entriesWith hdecoded⟩
  · rw [manifest_of_not_legible hlegible] at hv
    contradiction

/-! ## Histories -/

/-- What is done with a snapshot. -/
inductive Use where
  | write (name value : String)
  | find (name : String)
  | reload
deriving DecidableEq, Repr

/-- The snapshot that is loaded from its own manifest. -/
def reloaded (s : Snapshot) : Except Failure Snapshot := do
  match ← s.manifest with
  | .map es => (ofManifest es).mapError ManifestError.failure
  | _ => throw (.breach .part)

/-- What is found in a history of uses, and the snapshot at its end. -/
def course (s : Snapshot) : List Use →
    Except Failure (List (Except Failure (Option String)) × Snapshot)
  | [] => .ok ([], s)
  | .write name value :: rest => (s.withValue name value).course rest
  | .find name :: rest => (s.course rest).map fun p => (s.lookup name :: p.1, p.2)
  | .reload :: rest => do
    let loaded ← s.reloaded
    loaded.course rest

/-- A legible snapshot is reloaded as it is. -/
theorem reloaded_of_legible (hlegible : s.Legible) : s.reloaded = .ok s := by
  obtain ⟨decoded, hdecoded⟩ := hlegible.exists_texts
  rw [reloaded, manifest_of_legible hdecoded, Outcome.ok_bind]
  simp only [ofManifest_entriesWith hdecoded]
  rfl

/-- **A history without its reloads** is the same history, and it comes to its end. -/
theorem course_eq (hlegible : s.Legible) (uses : List Use) :
    (∃ found last, s.course uses = .ok (found, last)) ∧
      s.course uses = s.course (uses.filter (· ≠ .reload)) := by
  induction uses generalizing s with
  | nil => exact ⟨⟨_, _, rfl⟩, rfl⟩
  | cons use rest ih =>
      cases use with
      | write name value => exact ih hlegible
      | find name =>
          obtain ⟨⟨found, last, hcourse⟩, hfilter⟩ := ih hlegible
          refine ⟨⟨s.lookup name :: found, last, ?_⟩, ?_⟩
          · rw [course, hcourse, Outcome.map_ok]
          · rw [List.filter_cons_of_pos (by simp), course, course, hfilter]
      | reload =>
          have hreload : s.course (.reload :: rest) = s.course rest := by
            rw [course, reloaded_of_legible hlegible, Outcome.ok_bind]
          obtain ⟨hends, hfilter⟩ := ih hlegible
          rw [hreload, List.filter_cons_of_neg (by simp)]
          exact ⟨hends, hfilter⟩

/-- **Reloads vanish.** A snapshot has no manifest exactly if some of its octets encode no text;
what its manifest holds is the snapshot itself; and if all of its octets encode texts, every history
of writes, lookups and reloads comes to its end, and another one that differs in its reloads only
finds the same and leaves the same snapshot. -/
theorem reloads_vanish (s : Snapshot) :
    ((∃ f, s.manifest = .error f) ↔ ∃ e ∈ s.octets, ¬ EncodesText e.2) ∧
      (∀ v, s.manifest = .ok v → ∃ es, v = .map es ∧ ofManifest es = .ok s) ∧
      (s.Legible → ∀ uses, (∃ found last, s.course uses = .ok (found, last)) ∧
        ∀ others, others.filter (· ≠ .reload) = uses.filter (· ≠ .reload) →
          s.course others = s.course uses) := by
  refine ⟨manifest_error_iff, fun _ => ofManifest_manifest, fun hlegible uses => ?_⟩
  refine ⟨(course_eq hlegible uses).1, fun others heq => ?_⟩
  calc s.course others
      = s.course (others.filter (· ≠ .reload)) := (course_eq hlegible others).2
    _ = s.course (uses.filter (· ≠ .reload)) := by rw [heq]
    _ = s.course uses := (course_eq hlegible uses).2.symm

/-- A snapshot with an empty text over octets. -/
def accented : Snapshot :=
  { name := "kept", space := defaultSpace
    texts := [("SECRET_KEY", ""), ("other", "é")]
    octets := [("SECRET_KEY", "clé".toUTF8), ("unused", "".toUTF8)] }

/-- Its octets are found behind two reloads and a write. -/
theorem reloads_vanish_accented :
    accented.Legible ∧
      ∃ last, accented.course [.reload, .write "DATABASE_SECRET_KEY" "d", .reload,
        .find "SECRET_KEY"] = .ok ([.ok (some "clé")], last) := by
  have hlegible : accented.Legible := by
    intro e he
    simp only [accented, List.mem_cons, List.not_mem_nil, or_false] at he
    rcases he with rfl | rfl
    · exact ⟨"clé", rfl⟩
    · exact ⟨"", rfl⟩
  obtain ⟨-, -, hhistories⟩ := reloads_vanish accented
  obtain ⟨-, hothers⟩ := hhistories hlegible [.write "DATABASE_SECRET_KEY" "d", .find "SECRET_KEY"]
  refine ⟨hlegible, accented.withValue "DATABASE_SECRET_KEY" "d", ?_⟩
  rw [hothers _ (by decide)]
  have hdecode : decode "clé".toUTF8 = .ok "clé" := decode_eq_ok_iff.mpr rfl
  have hfind : (accented.withValue "DATABASE_SECRET_KEY" "d").lookup "SECRET_KEY" =
    (decode "clé".toUTF8).map some := rfl
  rw [course, course, course, hfind, hdecode]
  rfl

end RegistryBundle.Snapshot
