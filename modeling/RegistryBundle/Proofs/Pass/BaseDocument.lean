import RegistryBundle.Proofs.Pass.Run
import RegistryBundle.Proofs.Yaml.Whole

/-!
# The base document of a pass

The base document holds both keys, the user's entries, and those of every bundle that the user does
not set. Its page is read as that document exactly if no text of the user is torn.

* `Pass.expected` is what the base document should hold, `Document.Holds` says that a
  mapping holds just that;
* `Pass.get?_document`: the document that is written holds it;
* `Pass.UserWhole`: no text of the user is torn on the page;
* `Pass.baseFile_reads` is the main statement, `Pass.accentedPass_misread` a
  pass whose document is torn.
-/

namespace RegistryBundle

open RegistryBundle.Action Value Yaml

/-- A mapping from different texts that holds equal values under the expected
names, and nothing else. -/
structure Document.Holds (expected : String → Option Value) (entries : Entries) : Prop where
  textKeys : TextKeys entries
  nodup : (entries.map Prod.fst).Nodup
  value : ∀ name, Option.Rel Alike (expected name) (Value.get? entries name)

namespace Pass

/-- What the base document should hold under a name. -/
def expected (config : Entries) (secretKey databaseKey : String) (name : String) : Option Value :=
  if name = ManagedKey.database.name then some (.str databaseKey)
  else if name = ManagedKey.secret.name then some (.str secretKey)
  else (Value.get? config name).or (Value.get? baseConfig name)

/-! ## The document that is written -/

/-- Entries written over others. -/
theorem get?_foldl_put {entries base : Entries} (hkeys : TextKeys entries)
    (hnodup : (entries.map Prod.fst).Nodup)
    (name : String) :
    Value.get? (entries.foldl (fun acc e => put acc e.1 e.2) base) name =
      (Value.get? entries name).or (Value.get? base name) := by
  induction entries generalizing base with
  | nil => rfl
  | cons e rest ih =>
      obtain ⟨s, hs⟩ := hkeys e List.mem_cons_self
      have hrest : TextKeys rest := fun f hf => hkeys f (List.mem_cons_of_mem e hf)
      rw [List.map_cons, List.nodup_cons, hs] at hnodup
      rw [List.foldl_cons, ih hrest hnodup.2, get?_cons, hs, sameKey_str_str]
      by_cases h : s = name
      · subst h
        rw [get?_put_self, (get?_eq_none_iff hrest).mpr hnodup.1]
        simp
      · rw [get?_put_other h]
        simp [h]

/-- **The document that is written holds what it should.** -/
theorem get?_document {config : Entries} (hkeys : TextKeys config)
    (hnodup : (config.map Prod.fst).Nodup)
    (secretKey databaseKey name : String) :
    Value.get? (document config secretKey databaseKey) name =
      expected config secretKey databaseKey name := by
  rw [document, expected]
  split
  · next h => rw [h, get?_put_self]
  · next hdatabase =>
      rw [get?_put_other (Ne.symm hdatabase)]
      split
      · next h => rw [h, get?_put_self]
      · next hsecret => rw [get?_put_other (Ne.symm hsecret), get?_foldl_put hkeys hnodup]

/-- A tree with one more entry. -/
theorem isTree_put {entries : Entries} (h : IsTree (.map entries)) {s : String}
    (hs : s.length ≤ maxKeyLength)
    {v : Value} (hv : IsTree v) : IsTree (.map (put entries (.str s) v)) := by
  have hkeys := h.2.textKeys
  refine ⟨nodup_put hkeys h.1 s v, areBranches_iff.mpr fun e he => ?_⟩
  rcases mem_put hkeys he with rfl | he
  · exact ⟨⟨s, rfl, hs⟩, hv⟩
  · exact areBranches_iff.mp h.2 e he

/-- The entries of every bundle are a tree of one level. -/
theorem isTree_baseConfig : IsTree (.map baseConfig) ∧ ∀ e ∈ baseConfig, height e.2 ≤ 1 := by
  have hnames : baseConfig.map Prod.fst =
      ["FEATURE_MAILING", "REGISTRY_TITLE", "REGISTRY_TITLE_SHORT", "AUTHENTICATION_TYPE",
        "ENTERPRISE_LOGO_URL", "DEFAULT_TAG_EXPIRATION", "ALLOW_PULLS_WITHOUT_STRICT_LOGGING",
        "TAG_EXPIRATION_OPTIONS", "TEAM_RESYNC_STALE_TIME", "FEATURE_DIRECT_LOGIN",
        "FEATURE_BUILD_SUPPORT"].map .str := rfl
  refine ⟨⟨?_, ?_⟩, by decide⟩
  · rw [hnames]
    exact List.Nodup.map (fun _ _ => Value.str.inj) (by decide)
  · simp only [baseConfig, List.map, AreBranches, IsTree, AreTrees, maxKeyLength, Value.str.injEq,
      exists_eq_left', and_true, true_and]
    decide

/-- The base document of a tree is a tree. -/
theorem isTree_document {config : Entries} (h : IsTree (.map config))
    (secretKey databaseKey : String) :
    IsTree (.map (document config secretKey databaseKey)) := by
  have hmerged : ∀ {entries base : Entries}, AreBranches entries → IsTree (.map base) →
      IsTree (.map (entries.foldl (fun acc e => put acc e.1 e.2) base)) := by
    intro entries
    induction entries with
    | nil => exact fun _ hbase => hbase
    | cons e rest ih =>
        intro base hentries hbase
        obtain ⟨⟨s, hs, hlen⟩, hv, hrest⟩ := hentries
        rw [List.foldl_cons, show e.1 = .str s from hs]
        exact ih hrest (isTree_put hbase hlen hv)
  have hsecret : IsTree (.str secretKey) := trivial
  have hdatabase : IsTree (.str databaseKey) := trivial
  exact isTree_put (isTree_put (hmerged h.2 isTree_baseConfig.1) (by decide) hsecret)
    (by decide) hdatabase

/-! ## What is torn in it -/

/-- No text of the user is torn on the page of the base document; the keys stand
there as they are resolved. -/
def UserWhole (config : Entries) : Prop :=
  ∀ name v, Value.get? config name = some v → (∀ k : ManagedKey, name ≠ k.name) →
    Whole (placeUnder (.str name)) 0 v

/-- Entries of a document are whole if their values are. -/
theorem wholeEntries_zero_iff {entries : Entries} (hkeys : TextKeys entries)
    (hnodup : (entries.map Prod.fst).Nodup) :
    WholeEntries 0 entries ↔ ∀ name v, Value.get? entries name = some v →
      Whole (placeUnder (.str name)) 0 v := by
  rw [wholeEntries_iff]
  constructor
  · intro h name v hget
    exact (h _ (mem_of_get? hkeys hget)).2
  · intro h e he
    obtain ⟨s, hs⟩ := hkeys e he
    rw [hs]
    refine ⟨fun _ => whole_text s .part (by decide), h s e.2 ?_⟩
    rw [get?_eq_some_iff hkeys hnodup, ← hs]
    exact he

/-- The base document is whole exactly if the texts of the user are. -/
theorem wholeEntries_document_iff {config : Entries} (h : IsTree (.map config))
    (secretKey databaseKey : String) :
    WholeEntries 0 (document config secretKey databaseKey) ↔ UserWhole config := by
  have hdocument := isTree_document h secretKey databaseKey
  have hget := get?_document h.2.textKeys h.1 secretKey databaseKey
  have hnot : ∀ {name : String}, (∀ k : ManagedKey, name ≠ k.name) →
      name ≠ ManagedKey.database.name ∧ name ≠ ManagedKey.secret.name := fun h => ⟨h _, h _⟩
  rw [wholeEntries_zero_iff hdocument.2.textKeys hdocument.1]
  constructor
  · intro hw name v hv hname
    refine hw name v ?_
    rw [hget, expected, if_neg (hnot hname).1, if_neg (hnot hname).2, hv]
    rfl
  · intro hw name v hv
    rw [hget, expected] at hv
    split at hv
    · rw [← Option.some.inj hv]
      exact whole_text _ _ (by decide)
    · next hdatabase =>
        split at hv
        · rw [← Option.some.inj hv]
          exact whole_text _ _ (by decide)
        · next hsecret =>
            cases huser : Value.get? config name with
            | some w =>
                rw [huser, Option.some_or] at hv
                rw [← Option.some.inj hv]
                exact hw name w huser fun k => by cases k <;> assumption
            | none =>
                rw [huser, Option.none_or] at hv
                obtain ⟨hbase, hheight⟩ := isTree_baseConfig
                have hmem := mem_of_get? hbase.2.textKeys hv
                have hle := hheight _ hmem
                refine whole_of_height v (areBranches_iff.mp hbase.2 _ hmem).2 _ ?_
                simp only [Scalar.width] at hle ⊢
                omega

/-! ## The document that is read -/

/-- The base document of a tree has a page. -/
theorem encode_document {config : Entries} (h : IsTree (.map config))
    (secretKey databaseKey : String) :
    ∃ page, Document.encode (.map (document config secretKey databaseKey)) = .ok page ∧
      Yaml.read page = .ok (.map (rereadPage (document config secretKey databaseKey))) := by
  have hne : document config secretKey databaseKey ≠ [] := by
    intro hnil
    have := get?_document h.2.textKeys h.1 secretKey databaseKey ManagedKey.database.name
    rw [hnil, expected, if_pos rfl, get?_nil] at this
    exact absurd this (by simp)
  obtain ⟨page, hwrite, -, hread⟩ := read_write (isTree_document h secretKey databaseKey) hne
  exact ⟨page, by rw [Document.encode, hwrite]; rfl, hread⟩

/-- **The page of the base document is read as it should be exactly if no
text of the user is torn.** -/
theorem document_reads {config : Entries} (h : IsTree (.map config))
    {secretKey databaseKey page : String}
    (hpage : Document.encode (.map (document config secretKey databaseKey)) = .ok page) :
    ∃ doc, Document.decode page = .ok (.map doc) ∧
      (Document.Holds (expected config secretKey databaseKey) doc ↔ UserWhole config) := by
  have htree := isTree_document h secretKey databaseKey
  obtain ⟨written, hwrite, hread⟩ := encode_document h secretKey databaseKey
  obtain rfl : written = page := Except.ok.inj (hwrite.symm.trans hpage)
  refine ⟨_, by rw [Document.decode, hread]; rfl, ?_⟩
  obtain ⟨hkeys, hnodup⟩ := textKeys_nodup_rereadPage htree.2.textKeys
  rw [← wholeEntries_document_iff h secretKey databaseKey, ← alike_rereadPage_iff htree,
    alike_map_iff htree.2.textKeys hkeys htree.1 hnodup]
  simp only [get?_document h.2.textKeys h.1]
  exact ⟨fun holds => holds.value, fun hvalue => ⟨hkeys, hnodup, hvalue⟩⟩

/-- **The rendered base document.** A pass over a configuration that is a tree renders a page that
is read as a mapping; it is the mapping of both keys, the user's entries and the remaining defaults
exactly if no text of the user is torn. -/
theorem baseFile_reads {settings : Settings} {now : Moment} {r : Request} {s s' : Session}
    {made : Artifacts}
    (htree : IsTree (.map r.config)) (h : (run settings now r).perform s = (.ok made, s')) :
    ∃ page doc, made.configFiles.lookup baseFile = some page ∧
      Document.decode page = .ok (.map doc) ∧
      (Document.Holds (expected r.config made.secretKey made.databaseKey) doc ↔
        UserWhole r.config) := by
  obtain ⟨keys, _, page, -, hpage, hsecret, hdatabase, -, -, hfile⟩ := run_ok h
  obtain ⟨doc, hdecode, hholds⟩ := document_reads htree hpage
  rw [← hsecret, ← hdatabase] at hholds
  exact ⟨page, doc, hfile, hdecode, hholds⟩

/-! ## Passes without overlays -/

/-- A pass over a tree makes nothing but the base document if its keys are found and
its components add nothing. -/
theorem run_unrendered {settings : Settings} {now : Moment} {r : Request} {kinds : List Component}
    {s t : Session}
    {keys : SecretKey.ResolvedPair} (htree : IsTree (.map r.config))
    (hkinds : r.components.mapM Component.parse = .ok kinds)
    (hroute : kinds.contains .route = false)
    (hrendered : ∀ made s, ∃ s', (kinds.foldlM (addComponent settings r) made).perform s =
      (.ok made, s'))
    (hkeys : (SecretKey.resolvePair r.descriptor SecretKey.usualLength r.config r.snapshot).perform
      s = (.ok keys, t)) :
    ∃ base s', (run settings now r).perform s = (.ok (start keys base), s') := by
  obtain ⟨base, hbase, -⟩ := encode_document htree keys.secret keys.database
  obtain ⟨t', hmade⟩ := hrendered (start keys base) t
  rw [run, hkinds, perform_bind_of_ok (perform_ofExcept _ _), perform_bind_of_ok hkeys, hbase,
    perform_bind_of_ok (perform_ofExcept _ _)]
  simp only [hroute, Bool.and_false]
  exact ⟨base, _, (perform_bind_of_ok hmade).trans rfl⟩

/-- A pass over a tree that renders no component succeeds if the keys are found. -/
theorem run_of_resolvePair {settings : Settings} {now : Moment} {r : Request} {s t : Session}
    {keys : SecretKey.ResolvedPair} (htree : IsTree (.map r.config))
    (hcomponents : r.components = [])
    (hkeys : (SecretKey.resolvePair r.descriptor SecretKey.usualLength r.config r.snapshot).perform
      s = (.ok keys, t)) :
    ∃ made s', (run settings now r).perform s = (.ok made, s') := by
  have hkinds : r.components.mapM Component.parse = .ok [] := by
    rw [hcomponents]
    rfl
  obtain ⟨base, s', h⟩ := run_unrendered htree hkinds rfl (fun _ s => ⟨s, rfl⟩) hkeys
  exact ⟨_, s', h⟩

/-- A moment. -/
def noon : Moment :=
  { date := ⟨2026, 1, 1⟩, hour := 12, minute := 0, second := 0, microsecond := 0, offset := some 0 }

/-- A configuration that brings both keys and one more entry. -/
def configWith (name : String) (v : Value) : Entries :=
  [(.str ManagedKey.secret.name, .str "s"), (.str ManagedKey.database.name, .str "d"),
    (.str name, v)]

/-- A pass over such a configuration that renders no component. -/
def requestWith (name : String) (v : Value) : Request :=
  { descriptor := { name := "r" }, config := configWith name v, components := []
    issueCertificate := false }

/-- It succeeds if the entry is a tree. -/
theorem run_requestWith (settings : Settings) (now : Moment) {name : String} {v : Value}
    (htree : IsTree (.map (configWith name v))) (s : Session) :
    ∃ made s', (run settings now (requestWith name v)).perform s = (.ok made, s') := by
  have hkeys : (SecretKey.resolvePair (requestWith name v).descriptor SecretKey.usualLength
      (requestWith name v).config (requestWith name v).snapshot).perform s =
        (.ok ⟨"s", "d", none, false⟩, _) := rfl
  exact run_of_resolvePair htree rfl hkeys

/-- A text of one escaped character between letters and a space, inside
`n` mappings under one key. -/
def accented (n : Nat) : Value :=
  nested n (.str "aé b")

private theorem isTree_accented (n : Nat) : IsTree (.map (configWith "a" (accented n))) := by
  have hnames : (configWith "a" (accented n)).map Prod.fst =
      [ManagedKey.secret.name, ManagedKey.database.name, "a"].map .str := rfl
  refine ⟨?_, ⟨_, rfl, by decide⟩, trivial, ⟨_, rfl, by decide⟩, trivial, ⟨_, rfl, by decide⟩,
    isTree_nested (v := .str "aé b") trivial n, trivial⟩
  rw [hnames]
  exact List.Nodup.map (fun _ _ => Value.str.inj) (by decide)

/-- The text is torn inside 39 mappings or more. -/
theorem userWhole_accented_iff (n : Nat) : UserWhole (configWith "a" (accented n)) ↔ n < 39 := by
  have hplace : placeUnder (.str "a") = .value := by decide
  have htorn : Whole .value 0 (accented n) ↔ n < 39 := by
    rw [accented, whole_nested, Whole]
    constructor
    · intro h
      by_contra hn
      refine h ⟨by decide, ?_, ['a'], 'é', ['b'], by decide, by decide, by decide, by decide⟩
      simp only [Scalar.width]
      omega
    · intro hn
      refine Node.not_torn_of_lt ?_ _
      simp only [Scalar.width]
      omega
  rw [← htorn, ← hplace]
  constructor
  · intro h
    exact h "a" _ rfl fun k => by cases k <;> decide
  · intro h name v hv hname
    have hmem := mem_of_get? (isTree_accented n).2.textKeys hv
    simp only [configWith, List.mem_cons, Prod.mk.injEq, Value.str.injEq, List.not_mem_nil,
      or_false] at hmem
    rcases hmem with ⟨rfl, -⟩ | ⟨rfl, -⟩ | ⟨rfl, rfl⟩
    · exact absurd rfl (hname .secret)
    · exact absurd rfl (hname .database)
    · exact h

/-- Inside 38 mappings it comes back with the rest of the document. -/
theorem baseFile_reads_accented :
    ∃ made s' page doc, (run {} noon (requestWith "a" (accented 38))).perform .fresh =
      (.ok made, s') ∧ made.configFiles.lookup baseFile = some page ∧
      Document.decode page = .ok (.map doc) ∧
      Document.Holds (expected (configWith "a" (accented 38)) made.secretKey made.databaseKey)
      doc := by
  obtain ⟨made, s', hrun⟩ := run_requestWith {} noon (isTree_accented 38) .fresh
  obtain ⟨page, doc, hfile, hdecode, hholds⟩ := baseFile_reads (isTree_accented 38) hrun
  exact ⟨made, s', page, doc, hrun, hfile, hdecode,
    hholds.mpr ((userWhole_accented_iff 38).mpr (by decide))⟩

/-- **Inside 39 mappings it does not**: the document that is read is not
the one that was written. -/
theorem accentedPass_misread :
    IsTree (.map (configWith "a" (accented 39))) ∧
      ∃ made s' page doc, (run {} noon (requestWith "a" (accented 39))).perform .fresh =
        (.ok made, s') ∧ made.configFiles.lookup baseFile = some page ∧
        Document.decode page = .ok (.map doc) ∧
        ¬ Document.Holds (expected (configWith "a" (accented 39)) made.secretKey made.databaseKey)
        doc := by
  refine ⟨isTree_accented 39, ?_⟩
  obtain ⟨made, s', hrun⟩ := run_requestWith {} noon (isTree_accented 39) .fresh
  obtain ⟨keys, _, page, -, hpage, hsecret, hdatabase, -, -, hfile⟩ := run_ok hrun
  obtain ⟨doc, hdecode, hholds⟩ := document_reads (isTree_accented 39) hpage
  refine ⟨made, s', page, doc, hrun, hfile, hdecode, ?_⟩
  intro h
  rw [hsecret, hdatabase] at h
  exact absurd ((userWhole_accented_iff 39).mp (hholds.mp h)) (by decide)

end Pass

end RegistryBundle
