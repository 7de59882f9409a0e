import RegistryBundle.Loading
import RegistryBundle.Output
import RegistryBundle.Proofs.Keys.Provision
import RegistryBundle.Proofs.Keys.Reloading
import RegistryBundle.Proofs.Yaml.Whole

/-!
# Snapshots that are kept

A snapshot of texts is kept as the page of its manifest, and what is loaded from that page is the
snapshot again, with its texts in the order of their names.

* `Snapshot.Textual` are these snapshots: those that come from no older form,
  whatever their texts are;
* `Snapshot.ofManifest_entries` reads the manifest, `Loading.secretKeys_of_page` the file of it;
* `Artifacts.manifestPage_eq_of_same`: equal snapshots have one page.
-/

namespace RegistryBundle

open Value Yaml

namespace Snapshot

/-- A snapshot that holds only texts, under short names. -/
structure Textual (s : Snapshot) : Prop where
  octets : s.octets = []
  short : ∀ e ∈ s.texts, e.1.length ≤ maxKeyLength

variable {s t : Snapshot}

private theorem textual_emptyFor (d : Descriptor) : (emptyFor d).Textual :=
  ⟨rfl, fun _ he => absurd he List.not_mem_nil⟩

theorem Textual.withValue (h : s.Textual) {name : String} (hname : name.length ≤ maxKeyLength)
    (value : String) :
    (s.withValue name value).Textual := by
  refine ⟨h.octets, ?_⟩
  intro e he
  rcases Table.mem_put he with rfl | he
  · exact hname
  · exact h.short e he

/-- The snapshot with its texts in the order of their names. -/
def sorted (s : Snapshot) : Snapshot :=
  { s with
    texts := Table.sorted s.texts
    nodupTexts := Table.nodup_sorted s.nodupTexts }

theorem same_sorted (s : Snapshot) : s.Same s.sorted :=
  ⟨rfl, rfl, rfl, Table.lookup_sorted s.nodupTexts⟩

theorem Textual.sorted (h : s.Textual) : s.sorted.Textual :=
  ⟨h.octets,
    fun e he => h.short e ((Table.sorted_perm s.texts).mem_iff.mp he)⟩

/-- In order, equal snapshots are one. -/
theorem Same.sorted_eq (h : s.Same t) : t.sorted = s.sorted := by
  have htexts : Table.sorted t.texts = Table.sorted s.texts :=
    Table.sorted_eq_of_perm t.nodupTexts
      (Table.perm_of_lookup t.nodupTexts s.nodupTexts h.texts)
  simp only [sorted, htexts, h.name, h.space, h.octets]

/-- Resolving a managed key leaves a snapshot of texts one. -/
theorem textual_of_resolves {d : Descriptor} {length : Int} {config : Entries}
    {given : Option Snapshot}
    {k : ManagedKey} {r : SecretKey.Resolved}
    (h : SecretKey.Resolves d length config given k.name r)
    (hgiven : ∀ s ∈ given, s.Textual) : ∀ s ∈ r.snapshot, s.Textual := by
  cases h with
  | given => exact hgiven
  | kept => exact hgiven
  | made key =>
      intro s hs
      obtain rfl := Option.some.inj hs
      have hname : k.name.length ≤ maxKeyLength := by cases k <;> decide
      cases given with
      | none => exact (textual_emptyFor d).withValue hname key
      | some t => exact (hgiven t rfl).withValue hname key

/-- Resolving both does. -/
theorem textual_of_resolvePair {d : Descriptor} {length : Int} {config : Entries}
    {given : Option Snapshot}
    {keys : SecretKey.ResolvedPair} {session session' : Session}
    (h : (SecretKey.resolvePair d length config given).perform session = (.ok keys, session'))
    (hgiven : ∀ s ∈ given, s.Textual) : ∀ s ∈ keys.snapshot, s.Textual := by
  rw [SecretKey.resolvePair] at h
  obtain ⟨first, _, hfirst, h⟩ := Action.perform_bind_ok.mp h
  obtain ⟨second, _, hsecond, h⟩ := Action.perform_bind_ok.mp h
  obtain ⟨rfl, -⟩ := Action.perform_pure_ok h
  exact textual_of_resolves (SecretKey.resolves_of_ok hsecond)
    (textual_of_resolves (SecretKey.resolves_of_ok hfirst) hgiven)

/-! ## The manifest -/

/-- It has the octets of no texts. -/
theorem Textual.octets_eq (h : s.Textual) : s.octets = octetsOfTexts [] := h.octets

private theorem manifest_of_textual (h : s.Textual) : s.manifest = .ok (.map s.entries) := by
  rw [manifest_of_legible h.octets_eq]
  rfl

private theorem isTree_textEntries (h : s.Textual) : IsTree (.map (textEntries s.texts)) := by
  refine ⟨?_, areBranches_iff.mpr fun e he => ?_⟩
  · rw [textEntries, Table.nodup_entries_iff, List.map_map]
    exact s.nodupTexts
  · obtain ⟨f, hf, rfl⟩ := List.mem_map.mp he
    obtain ⟨g, hg, rfl⟩ := List.mem_map.mp hf
    exact ⟨⟨g.1, rfl, h.short g hg⟩, trivial⟩

theorem isTree_entries (h : s.Textual) : IsTree (.map s.entries) := by
  have htexts := isTree_textEntries h
  exact ⟨by simp [entries], ⟨_, rfl, by decide⟩, trivial, ⟨_, rfl, by decide⟩, trivial,
    ⟨_, rfl, by decide⟩, htexts, trivial⟩

/-- Texts are of no height. -/
theorem heightOfEntries_textEntries (texts : Table String) :
    heightOfEntries (textEntries texts) = 0 := by
  induction texts with
  | nil => rfl
  | cons e rest ih =>
      rw [textEntries, List.map_cons, Table.entries_cons, heightOfEntries, ← textEntries, ih]
      rfl

/-- The texts in order. -/
theorem ordered_textEntries (texts : Table String) :
    ordered (.map (textEntries texts)) = .map (textEntries (Table.sorted texts)) := by
  have hkeys : TextKeys (textEntries texts) := Table.textKeys_entries _
  have htexts : sortByKey (textEntries texts) = textEntries (Table.sorted texts) := by
    rw [textEntries, ← Table.entries_sorted, Table.sorted_map, textEntries]
  rw [ordered_map hkeys, htexts, textEntries, Table.entries, List.map_map, List.map_map,
    List.map_map]
  rfl

/-- The manifest in order is that of the snapshot in order. -/
theorem ordered_entries (s : Snapshot) : ordered (.map s.entries) = .map s.sorted.entries := by
  have hentries : orderedEntries s.entries = s.sorted.entries := by
    simp only [entries, sorted, orderedEntries, ordered_str, ordered_textEntries]
  have hkeys : TextKeys s.sorted.entries := by
    simp [TextKeys, entries]
  have hbefore : s.sorted.entries.Pairwise fun e f => (!before f.1 e.1) = true := by
    have hnames : [Value.str "name", .str "namespace", .str "string_data"].Pairwise fun k l =>
        (!before l k) = true := by decide
    exact (List.pairwise_map (f := Prod.fst) (l := s.sorted.entries)).mp hnames
  rw [ordered, hentries, sortByKey_of_textKeys hkeys, List.mergeSort_of_pairwise hbefore]

/-- **The manifest is read as the snapshot.** -/
theorem ofManifest_entries (h : s.Textual) : ofManifest s.entries = .ok s :=
  ofManifest_entriesWith h.octets_eq

end Snapshot

/-! ## The file -/

/-- Text without carriage returns is kept as it is. -/
theorem FileText.unifyBreaks_of_notMem {cs : List Char} (h : '\r' ∉ cs) : unifyBreaks cs = cs := by
  induction cs with
  | nil => rfl
  | cons c rest ih =>
      rw [List.mem_cons, not_or] at h
      rw [unifyBreaks, if_neg (Ne.symm h.1), ih h.2]
      exact fun _ hc _ => h.1 hc.symm

/-- A printed page is read from a file as it was written. -/
theorem FileText.ofBytes?_toUTF8 {page : String} (h : Printed page.toList) :
    FileText.ofBytes? page.toUTF8 = some page := by
  have hreturn : '\r' ∉ page.toList := fun hm => absurd (h _ hm) (by decide)
  have hdecode : String.fromUTF8? page.toUTF8 = some page := by
    exact dif_pos page.isValidUTF8
  rw [ofBytes?, hdecode, Option.map_some, unifyBreaks_of_notMem hreturn, String.ofList_toList]

variable {s t : Snapshot}

/-- A snapshot of texts has a page, which is read as its manifest in order. -/
theorem Artifacts.manifestPage_ok (h : s.Textual) :
    ∃ page, manifestPage s = .ok page ∧ Printed page.toList ∧
      Yaml.read page = .ok (.map s.sorted.entries) := by
  have htree := Snapshot.isTree_entries h
  have hheight : heightOfEntries s.entries = 1 := by
    simp only [Snapshot.entries, heightOfEntries, height, Snapshot.heightOfEntries_textEntries]
    decide
  obtain ⟨page, hwrite, hprinted, hread⟩ := read_write_of_height htree (by simp [Snapshot.entries])
    (by rw [hheight]; decide)
  refine ⟨page, ?_, hprinted, ?_⟩
  · rw [manifestPage, Snapshot.manifest_of_textual h, Outcome.ok_bind, Document.encode, hwrite]
    rfl
  · rw [hread, ← ordered_map htree.2.textKeys, Snapshot.ordered_entries]

/-- **Equal snapshots have one page.** -/
theorem Artifacts.manifestPage_eq_of_same (h : s.Same t) (hs : s.Textual) (ht : t.Textual) :
    manifestPage t = manifestPage s := by
  have hwrite : Yaml.write (.map t.entries) = Yaml.write (.map s.entries) := by
    simp only [Yaml.write, Node.ofValue_eq _ (Snapshot.isTree_entries ht),
      Node.ofValue_eq _ (Snapshot.isTree_entries hs), Snapshot.ordered_entries, h.sorted_eq]
  rw [manifestPage, manifestPage, Snapshot.manifest_of_textual hs, Snapshot.manifest_of_textual ht,
    Outcome.ok_bind, Outcome.ok_bind, Document.encode, Document.encode, hwrite]
  rfl

/-- The document in a file with a printed page is the value of the page. -/
theorem Loading.documentOver_of_page {A : Alphabet} {page : String} {v : Value A} {tree : Tree}
    {p : FilePath} (h : Printed page.toList) (hread : Yaml.readOver A .older page = .ok v)
    (hfile : tree.lookup p = .ok (.file (.ofText page))) :
    documentOver A tree p = .ok v := by
  have hbytes : tree.read p = .ok page.toUTF8 := by
    rw [Tree.read, hfile]
    rfl
  rw [documentOver, hbytes]
  simp only [FileText.ofBytes?_toUTF8 h, hread]

theorem Loading.document_of_page {page : String} {v : Value} {tree : Tree} {p : FilePath}
    (h : Printed page.toList)
    (hread : Yaml.read page = .ok v) (hfile : tree.lookup p = .ok (.file (.ofText page))) :
    document tree p = .ok v :=
  documentOver_of_page h hread hfile

/-- **What is loaded from the page of a snapshot** is the snapshot in order. -/
theorem Loading.secretKeys_of_page (h : s.Textual) {page : String}
    (hpage : Artifacts.manifestPage s = .ok page)
    {tree : Tree} {p : FilePath} (hfile : tree.lookup p = .ok (.file (.ofText page))) :
    secretKeys tree (some p) = .ok (some s.sorted) := by
  obtain ⟨written, hwritten, hprinted, hread⟩ := Artifacts.manifestPage_ok h
  obtain rfl : written = page := Except.ok.inj (hwritten.symm.trans hpage)
  have hthere : tree.hasPath p = true := by rw [Tree.hasPath, hfile]
  have hdocument : documentOver .characters tree p = .ok (.map s.sorted.entries) :=
    document_of_page hprinted hread hfile
  have hmanifest : ofManifest p s.sorted.entries = .ok s.sorted := by
    rw [ofManifest, Snapshot.ofManifest_entries h.sorted]
  rw [secretKeys, secretKeysOver, hthere, hdocument]
  simp only [Outcome.ok_bind, mapping, bare, hmanifest]
  rfl

end RegistryBundle
