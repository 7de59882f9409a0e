import RegistryBundle.Loading
import RegistryBundle.Proofs.Keys.Parts
import RegistryBundle.Proofs.Yaml.KeysOnce

/-!
# Which files load or are at fault

An input file that does not load is a fault of the configuration, with exceptions: octets that
encode no text, a text in the format with a value that cannot be made, and a registry whose parts
are not of the types that they need.

* `OnlyConfig` says that a result fails, if at all, for a fault of the configuration,
  `OnlyConfig.bind_iff` is the rule for two steps;
* `Loading.Decodes` are the files without the first two exceptions, `Loading.WellTyped` the
  registries without the third;
* `Loading.onlyConfig_descriptor_iff`, `Loading.onlyConfig_userConfig_iff` and
  `Loading.onlyConfig_secretKeys_iff` are the three files;
* `Loading.distinctKeys_userConfig` says of the user's configuration that it has each key once.
-/

namespace RegistryBundle

variable {α β : Type} {x : Except Failure α} {f : α → Except Failure β}

/-! ## Faults of the configuration -/

/-- A result fails, if at all, for a fault of the configuration. -/
def OnlyConfig (x : Except Failure α) : Prop :=
  ∀ e, x = .error e → ∃ fault, e = .config fault

namespace OnlyConfig

@[simp] theorem ok (a : α) : OnlyConfig (.ok a : Except Failure α) :=
  fun _ h => nomatch h

@[simp] theorem error_iff {e : Failure} :
    OnlyConfig (.error e : Except Failure α) ↔ ∃ fault, e = .config fault := by
  simp [OnlyConfig]

/-- **Two steps**: the second counts only where the first gives a result. -/
theorem bind_iff : OnlyConfig (x >>= f) ↔ OnlyConfig x ∧ ∀ a, x = .ok a → OnlyConfig (f a) := by
  cases x <;> simp

theorem bind (h : OnlyConfig x) (hf : ∀ a, OnlyConfig (f a)) : OnlyConfig (x >>= f) :=
  bind_iff.mpr ⟨h, fun a _ => hf a⟩

/-- A second step that never fails otherwise. -/
theorem bind_iff_left (hf : ∀ a, OnlyConfig (f a)) : OnlyConfig (x >>= f) ↔ OnlyConfig x :=
  bind_iff.trans ⟨And.left, fun h => ⟨h, fun a _ => hf a⟩⟩

/-- **A step for each item of a list.** -/
theorem mapM_iff {g : α → Except Failure β} {good : α → Prop} (hg : ∀ a, OnlyConfig (g a) ↔ good a)
    (hgood : ∀ a, good a → ∃ b, g a = .ok b) (l : List α) :
      OnlyConfig (l.mapM g) ↔ ∀ a ∈ l, good a := by
  induction l with
  | nil => simp
  | cons a l ih =>
      rw [List.mapM_cons, bind_iff, hg, List.forall_mem_cons]
      refine and_congr_right fun ha => ?_
      obtain ⟨b, hb⟩ := hgood a ha
      rw [← ih, hb]
      simp only [Except.ok.injEq, forall_eq']
      exact bind_iff_left fun bs => ok (b :: bs)

end OnlyConfig

namespace Loading

variable {t : Tree} {p : FilePath}

/-! ## Documents -/

/-- A file that can be read holds a text, and every value in it can be made unless the
text is not in the format. -/
def Decodes (t : Tree) (p : FilePath) : Prop :=
  ∀ bytes, t.read p = .ok bytes → ∃ s, FileText.ofBytes? bytes = some s ∧
    ∀ fault, Yaml.read s = .error fault → ∃ layer, fault = .malformed layer

/-- **A document** fails for a fault of the configuration only if its file decodes. -/
theorem onlyConfig_document_iff (t : Tree) (p : FilePath) :
    OnlyConfig (document t p) ↔ Decodes t p := by
  have hcharacters : Yaml.readOver .characters .older = Yaml.read := rfl
  rw [document, documentOver, hcharacters, Decodes]
  cases t.read p with
  | error trouble => simp
  | ok bytes =>
      cases hs : FileText.ofBytes? bytes with
      | none => simp [hs]
      | some s =>
          cases hread : Yaml.read s with
          | ok v => simp [hs, hread]
          | error fault => cases fault <;> simp [hs, hread]

/-- The value of a document has each key once. -/
theorem keysOnce_document {A : Alphabet} {raw : Value A} (h : documentOver A t p = .ok raw) :
    raw.KeysOnce := by
  unfold documentOver at h
  split at h
  · contradiction
  · split at h
    · contradiction
    · split at h
      · next v hread =>
          obtain rfl := Except.ok.inj h
          exact Yaml.keysOnce_readOver hread
      all_goals contradiction

theorem onlyConfig_mapping {A : Alphabet} (p : FilePath) (v : Value A) :
    OnlyConfig (mapping p v) := by
  rw [mapping]
  split <;> simp

/-! ## The user's configuration and the secret keys -/

/-- **The user's configuration.** -/
theorem onlyConfig_userConfig_iff (t : Tree) (file : Option FilePath) :
    OnlyConfig (userConfig t file) ↔ ∀ p, file = some p → Decodes t p := by
  cases file with
  | none => simp [userConfig]
  | some p =>
      simp only [Option.some.injEq, forall_eq']
      rw [← onlyConfig_document_iff]
      refine OnlyConfig.bind_iff_left fun v => ?_
      split
      · exact onlyConfig_mapping p v
      · exact .ok []

/-- **The user's configuration has each key once**, wherever it comes from. -/
theorem distinctKeys_userConfig {file : Option FilePath} {es : Entries}
    (h : userConfig t file = .ok es) : Value.DistinctKeys es := by
  cases file with
  | none =>
      obtain rfl := Except.ok.inj h
      exact List.Pairwise.nil
  | some p =>
      obtain ⟨v, hv, h⟩ := Outcome.bind_eq_ok.mp h
      split at h
      · unfold mapping at h
        split at h
        · next entries hbare =>
            obtain rfl := Except.ok.inj h
            exact (keysOnce_document hv).distinctKeys hbare
        · contradiction
      · obtain rfl := Except.ok.inj h
        exact List.Pairwise.nil

theorem onlyConfig_ofManifest {A : Alphabet} {τ : Type} [TextOver A τ] [DecidableEq τ]
    (p : FilePath) (es : Entries A) : OnlyConfig (ofManifest (τ := τ) p es) := by
  rw [ofManifest]
  split
  · exact .ok _
  · simp
  · next f hf =>
      rw [Snapshot.isConfiguration_of_ofManifest hf, if_pos rfl]
      simp

/-- A path that leads nowhere cannot be read. -/
theorem decodes_of_not_hasPath (h : t.hasPath p = false) : Decodes t p := by
  intro bytes hread
  rw [Tree.read] at hread
  obtain ⟨o, ho, -⟩ := Outcome.bind_eq_ok.mp hread
  rw [Tree.hasPath, ho] at h
  contradiction

/-- **The secret keys.** -/
theorem onlyConfig_secretKeys_iff (t : Tree) (file : Option FilePath) :
    OnlyConfig (secretKeys t file) ↔ ∀ p, file = some p → Decodes t p := by
  cases file with
  | none => simp [secretKeys, secretKeysOver]
  | some p =>
      simp only [Option.some.injEq, forall_eq']
      rw [secretKeys, secretKeysOver]
      cases hpath : t.hasPath p with
      | false => exact ⟨fun _ => decodes_of_not_hasPath hpath, fun _ => .ok none⟩
      | true =>
          rw [← onlyConfig_document_iff, document]
          refine OnlyConfig.bind_iff_left fun v => ?_
          split
          · have hmanifest : OnlyConfig (mapping p v >>= ofManifest (τ := String) p) :=
              (onlyConfig_mapping p v).bind (onlyConfig_ofManifest p)
            exact hmanifest.bind fun s => .ok (some s)
          · exact .ok none

/-! ## The registry -/

/-- A value that counts as a text. -/
def IsText (v : Value) : Prop :=
  ∃ s : String, Schema.text v = .fits s

/-- A value that can be shown as a text. -/
def Shown (v : Value) : Prop :=
  ∃ s, v.text? = some s

/-- Annotations that are there are a mapping of what can be shown. -/
def NotesShown (metadata : Entries) : Prop :=
  ∀ notes, (Value.get? metadata "annotations").filter Value.truthy = some notes →
    ∃ es, notes.bare = .map es ∧ ∀ e ∈ es, Shown e.1 ∧ Shown e.2

/-- Metadata are a mapping, and if they name a registry, its name and its namespace are texts and
its annotations can be shown. -/
def WellTyped (metadata : Value) : Prop :=
  ∃ es, metadata.bare = .map es ∧ ∀ name, (Value.get? es "name").filter Value.truthy = some name →
    NotesShown es ∧ IsText name ∧ ∀ space, Value.get? es "namespace" = some space → IsText space

private theorem onlyConfig_partEntries_iff {v : Value} :
    OnlyConfig (partEntries v) ↔ ∃ es, v.bare = .map es := by
  rw [partEntries]
  cases v.bare <;> simp

private theorem partEntries_eq_ok_iff {v : Value} {es : Entries} :
    partEntries v = .ok es ↔ v.bare = .map es := by
  rw [partEntries]
  cases v.bare <;> simp

private theorem onlyConfig_textOf_iff {v : Value} : OnlyConfig (textOf v) ↔ Shown v := by
  rw [textOf, Shown]
  cases v.text? <;> simp

/-- An entry of the annotations as texts. -/
def noteOf (e : Value × Value) : Except Failure (Value × Value) := do
  let k ← textOf e.1
  let v ← textOf e.2
  return (Value.str k, Value.str v)

private theorem onlyConfig_noteOf_iff (e : Value × Value) :
    OnlyConfig (noteOf e) ↔ Shown e.1 ∧ Shown e.2 := by
  rw [noteOf, OnlyConfig.bind_iff, onlyConfig_textOf_iff]
  refine and_congr_right fun ⟨s, hs⟩ => ?_
  simp only [textOf, hs, Except.ok.injEq, forall_eq']
  exact (OnlyConfig.bind_iff_left fun v => .ok _).trans onlyConfig_textOf_iff

private theorem noteOf_of_shown (e : Value × Value) (h : Shown e.1 ∧ Shown e.2) :
    ∃ k v, noteOf e = .ok (.str k, .str v) := by
  obtain ⟨⟨k, hk⟩, v, hv⟩ := h
  exact ⟨k, v, by simp [noteOf, textOf, hk, hv]⟩

/-- **Annotations.** -/
theorem onlyConfig_annotations_iff (metadata : Entries) :
    OnlyConfig (annotations metadata) ↔ NotesShown metadata := by
  rw [annotations, NotesShown]
  cases (Value.get? metadata "annotations").filter Value.truthy with
  | none => simp
  | some notes =>
      simp only [Option.some.injEq, forall_eq']
      rw [OnlyConfig.bind_iff, onlyConfig_partEntries_iff]
      simp only [partEntries_eq_ok_iff]
      have hnotes : ∀ es : Entries, OnlyConfig (do
          let texts ← es.mapM noteOf
          return Value.ofList texts) ↔ ∀ e ∈ es, Shown e.1 ∧ Shown e.2 := by
        intro es
        refine (OnlyConfig.bind_iff_left fun texts => .ok _).trans
          (OnlyConfig.mapM_iff onlyConfig_noteOf_iff ?_ es)
        intro e he
        obtain ⟨k, v, h⟩ := noteOf_of_shown e he
        exact ⟨_, h⟩
      constructor
      · rintro ⟨⟨es, hes⟩, hall⟩
        exact ⟨es, hes, (hnotes es).mp (hall es hes)⟩
      · rintro ⟨es, hes, hall⟩
        refine ⟨⟨es, hes⟩, fun others hothers => (hnotes others).mpr ?_⟩
        obtain rfl : es = others := Value.map.inj (hes.symm.trans hothers)
        exact hall

/-- They are there. -/
theorem annotations_of_shown {metadata : Entries} (h : NotesShown metadata) :
    ∃ notes, annotations metadata = .ok notes := by
  rw [annotations]
  split
  · exact ⟨[], rfl⟩
  · next notes hnotes =>
      obtain ⟨es, hes, hshown⟩ := h notes hnotes
      obtain ⟨texts, htexts⟩ : ∃ texts, es.mapM noteOf = .ok texts := by
        refine Outcome.exists_mapM_eq_ok fun e he => ?_
        obtain ⟨k, v, h⟩ := noteOf_of_shown e (hshown e he)
        exact ⟨_, h⟩
      refine ⟨Value.ofList texts, ?_⟩
      rw [partEntries_eq_ok_iff.mpr hes, Outcome.ok_bind]
      exact Outcome.bind_eq_ok.mpr ⟨texts, htexts, rfl⟩

/-- Entries of texts under texts. -/
def TextPairs (es : Entries) : Prop :=
  ∀ e ∈ es, ∃ k v, e = (.str k, .str v)

theorem TextPairs.textKeys {es : Entries} (h : TextPairs es) : Value.TextKeys es := by
  intro e he
  obtain ⟨k, v, rfl⟩ := h e he
  exact ⟨k, rfl⟩

/-- Written one after another they stay such. -/
theorem textPairs_ofList {es : Entries} (h : TextPairs es) : TextPairs (Value.ofList es) := by
  suffices hfold : ∀ acc : Entries, TextPairs acc →
      TextPairs (es.foldl (fun acc e => Value.put acc e.1 e.2) acc) from hfold [] fun _ he =>
        absurd he List.not_mem_nil
  induction es with
  | nil => exact fun acc hacc => hacc
  | cons e rest ih =>
      intro acc hacc
      obtain ⟨k, v, rfl⟩ := h e List.mem_cons_self
      refine ih (fun f hf => h f (List.mem_cons_of_mem _ hf)) _ fun f hf => ?_
      rcases Value.mem_put hacc.textKeys hf with rfl | hf
      · exact ⟨k, v, rfl⟩
      · exact hacc f hf

/-- They fit a mapping of texts. -/
theorem exists_mappingOf_textPairs {es : Entries} (h : TextPairs es) :
    ∃ t : Table String, Schema.mappingOf Schema.text (.map es) = .fits t := by
  obtain ⟨texts, htexts⟩ : ∃ texts : List (String × String), es.map (fun e =>
      Prod.mk <$>
        ((Schema.text e.1 : Checked String).under (.name "[key]")).under (Schema.stepOf e.1) <*>
        (Schema.text e.2 : Checked String).under (Schema.stepOf e.1)) = texts.map Checked.fits := by
    induction es with
    | nil => exact ⟨[], rfl⟩
    | cons e rest ih =>
        obtain ⟨texts, htexts⟩ := ih fun f hf => h f (List.mem_cons_of_mem e hf)
        obtain ⟨k, v, rfl⟩ := h e List.mem_cons_self
        exact ⟨(k, v) :: texts, by rw [List.map_cons, htexts]; rfl⟩
  have hmapping : Schema.mappingOf Schema.text (.map es) =
      (Checked.each (texts.map Checked.fits)).map Table.ofList := by
    rw [← htexts]
    rfl
  exact ⟨Table.ofList texts, by rw [hmapping, Checked.each_fits, Checked.map_eq_fits]⟩

private theorem textPairs_annotations {metadata notes : Entries}
    (h : annotations metadata = .ok notes) :
    TextPairs notes := by
  rw [annotations] at h
  split at h
  · obtain rfl := Except.ok.inj h
    exact fun _ he => absurd he List.not_mem_nil
  · obtain ⟨es, -, h⟩ := Outcome.bind_eq_ok.mp h
    obtain ⟨texts, htexts, h⟩ := Outcome.bind_eq_ok.mp h
    obtain rfl := Except.ok.inj h
    refine textPairs_ofList fun e he => ?_
    obtain ⟨f, -, hf⟩ := (Outcome.mem_of_mapM_eq_ok htexts).mp he
    obtain ⟨k, -, hf⟩ := Outcome.bind_eq_ok.mp hf
    obtain ⟨v, -, hf⟩ := Outcome.bind_eq_ok.mp hf
    exact ⟨k, v, (Except.ok.inj hf).symm⟩

/-- The parts of a registry make one exactly if its name and its namespace are texts. -/
theorem onlyConfig_ofValue_iff {name space : Value} {notes : Entries} (h : TextPairs notes) :
    OnlyConfig ((Descriptor.ofValue (.record [("name", name), ("namespace", space),
      ("annotations", .map notes)])).orFail .invalid) ↔ IsText name ∧ IsText space := by
  obtain ⟨t, ht⟩ := exists_mappingOf_textPairs h
  have hparts : Descriptor.ofValue
    (.record [("name", name), ("namespace", space), ("annotations", .map notes)]) =
      Descriptor.mk <$> (Schema.text name : Checked String).under (.name "name") <*>
        (Schema.text space : Checked String).under (.name "namespace") <*>
        (Schema.mappingOf Schema.text (.map notes)).under (.name "annotations") := rfl
  rw [hparts, ht, IsText, IsText]
  cases (Schema.text name : Checked String) <;> cases (Schema.text space : Checked String) <;>
    simp [Checked.orFail, Checked.under, Seq.seq, Checked.seq, Functor.map, Checked.map]

/-- **Metadata** fail for a fault of the configuration only if they are well typed. -/
theorem onlyConfig_ofMetadata_iff (p : FilePath) (metadata : Value) :
    OnlyConfig (ofMetadata p metadata) ↔ WellTyped metadata := by
  rw [ofMetadata, WellTyped]
  by_cases hmap : ∃ es, metadata.bare = .map es
  · obtain ⟨es, hes⟩ := hmap
    rw [partEntries_eq_ok_iff.mpr hes, Outcome.ok_bind, hes]
    simp only [Value.map.injEq, exists_eq_left']
    cases (Value.get? es "name").filter Value.truthy with
    | none => simp
    | some name =>
        simp only [Option.some.injEq, forall_eq']
        rw [OnlyConfig.bind_iff, onlyConfig_annotations_iff]
        refine and_congr_right fun hshown => ?_
        have hspace : (∀ space, Value.get? es "namespace" = some space → IsText space) ↔
            IsText ((Value.get? es "namespace").getD (.str defaultSpace)) := by
          cases Value.get? es "namespace" with
          | none => exact ⟨fun _ => ⟨defaultSpace, rfl⟩, fun _ _ h => nomatch h⟩
          | some space => simp
        rw [hspace]
        obtain ⟨notes, hnotes⟩ := annotations_of_shown hshown
        rw [hnotes]
        simp only [Except.ok.injEq, forall_eq']
        exact onlyConfig_ofValue_iff (textPairs_annotations hnotes)
  · have hnot : ¬ OnlyConfig (partEntries metadata) :=
      fun h => hmap (onlyConfig_partEntries_iff.mp h)
    refine ⟨fun h => absurd (OnlyConfig.bind_iff.mp h).1 hnot,
      fun ⟨es, hes, _⟩ => absurd ⟨es, hes⟩ hmap⟩

/-- A file decodes, and if it holds a mapping, the metadata in it are well typed. -/
def Describes (t : Tree) (p : FilePath) : Prop :=
  Decodes t p ∧ ∀ v es, document t p = .ok v → v.bare = .map es →
    WellTyped ((Value.get? es "metadata").getD v)

/-- **The registry.** -/
theorem onlyConfig_descriptor_iff (t : Tree) (p : FilePath) :
    OnlyConfig (descriptor t p) ↔ Describes t p := by
  rw [descriptor, OnlyConfig.bind_iff, onlyConfig_document_iff, Describes]
  refine and_congr_right fun _ => forall_congr' fun v => ?_
  rw [OnlyConfig.bind_iff, mapping]
  simp only [onlyConfig_ofMetadata_iff]
  cases v.bare <;> simp

end Loading

end RegistryBundle
