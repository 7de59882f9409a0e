import RegistryBundle.Proofs.Keys.Draws
import RegistryBundle.Proofs.Yaml.KeysOnce
import RegistryBundle.Proofs.Yaml.SingleEntry
import RegistryBundle.Proofs.Yaml.Writable

/-!
# Keys in documents

A key that is made of octets holds letters, digits and hyphens only, and may look like a number, a
date, a truth value or null. Wherever such a key stands in a document, it is on the line of its name
if the name has one, as it is and however long it is, with quotes exactly if it would be taken for
something else without them, and it is read back from there.

* `SecretKey.Written` are the properties of a key under a name;
* `SecretKey.written_ofOctets` is the main statement;
* `SecretKey.entryAt_nested_iff` is the depth from which a name of two lines is lost, and
  `SecretKey.written_elsewhere` gathers an entry for each way in which a key is not on the line of
  its name, or not read back.
-/

namespace RegistryBundle.SecretKey

open Value Yaml Yaml.Node RegistryBundle.Action

variable {octets : List UInt8} {name key : String}

/-- The symbols of keys are letters, digits and the hyphen. -/
theorem hyphenated_ofOctets (octets : List UInt8) : Hyphenated (ofOctets octets).toList := by
  have halphabet : alphabet.all (fun c => c.isAlphanum || c == '-') = true := by decide
  rw [ofOctets, String.toList_ofList]
  intro c hc
  obtain ⟨o, -, rfl⟩ := List.mem_map.mp hc
  exact List.all_eq_true.mp halphabet _ (symbol_mem_alphabet o)

private theorem ofOctets_ne_empty (h : octets ≠ []) : ofOctets octets ≠ "" := by
  intro hempty
  have hlength := length_ofOctets octets
  rw [hempty] at hlength
  exact h (List.length_eq_zero_iff.mp hlength.symm)

/-- What becomes of a key under a name in documents. -/
structure Written (name key : String) : Prop where
  /-- Wherever the entry is in a document that can be written, the key stands on one line, as it is
  and with the quotes that it needs: on the line of its name, or on a line of its own if the name is
  empty, too long or not one line. -/
  line : ∀ meaning v path, Value.Coherent meaning v → EntryAt name key path v →
    v.holds isForeign = false → v.holds isLong = false →
    ∃ page shown, Document.encode v = .ok page ∧ StandsAs key.toList shown ∧
      (ShortLine name → OnLine true (keyText [] (.scalar .str name.toList) ++ valueLine shown)
        page.toList) ∧
      (¬ ShortLine name → OnLine true (valueLine shown) page.toList)
  /-- Quotes are needed by what is no text without them under any name, besides the marks of
  documents and items. -/
  unquoted : key.toList.take 3 ≠ ['-', '-', '-'] → key.toList ≠ ['-'] → ∀ s, ShortLine s →
    LegibleName s → (NeedsQuotes key.toList ↔
      ∀ v, Document.decode (String.ofList (entryLine s.toList key.toList)) = .ok v →
      ∀ t, ¬ EntryAt s t [] v)
  /-- The key is read back from the page of its entry exactly if the name
  can be read there at all. -/
  alone : ∃ page, Document.encode (.map [(.str name, .str key)]) = .ok page ∧
    (LegibleName name → Document.decode page = .ok (.map [(.str name, .str key)])) ∧
    (¬ LegibleName name → ∃ f, Document.decode page = .error f)
  /-- The key is read back at its place in documents of plain data. -/
  reread : ∀ entries path, Readable (.map entries) → EntryAt name key path (.map entries) →
    Apart name 0 path → ∃ page es, Document.encode (.map entries) = .ok page ∧
    Document.decode page = .ok (.map es) ∧
      KeysOnce (.map es) ∧ EntryAt name key path (.map es)

/-- Texts of letters, digits and hyphens have these properties. -/
theorem written_of_hyphenated (h : Hyphenated key.toList) (hne : key ≠ "") (name : String) :
    Written name key where
  line := by
    intro meaning v path hcoherent hentry hforeign hlong
    obtain ⟨page, hpage⟩ := Document.encode_of_not_holds hlong hforeign
    obtain ⟨shown, hshown, hline⟩ := Document.onLine_encode hcoherent hentry h hne hpage
    exact ⟨page, shown, hpage, hshown, fun hname => entryLine_of_shortLine hname shown ▸ hline,
      fun hname => entryLine_of_not_shortLine hname shown ▸ hline⟩
  unquoted := by
    intro hmark hitem s hs hlegible
    have hne' : key.toList ≠ [] := by simpa using hne
    obtain ⟨htext, htyped⟩ := Document.decode_unquoted hs hlegible h hne'
      (h.allowsPlain_iff.mpr ⟨hmark, hitem⟩)
    have hneeds : NeedsQuotes key.toList ↔ Typed key.toList := by
      rw [NeedsQuotes, or_iff_right hmark, or_iff_right hitem]
    rw [hneeds]
    refine ⟨htyped, fun hno => by_contra fun hnot => ?_⟩
    exact hno _ (htext hnot) _ (.here List.mem_cons_self)
  alone := by
    obtain ⟨page, hpage, hread, hunread⟩ := Document.decode_single name key
    exact ⟨page, hpage, hread, fun hlong => ⟨_, hunread hlong⟩⟩
  reread := by
    intro entries path hreadable hentry hapart
    have hentries : entries ≠ [] := by
      rintro rfl
      cases hentry with
      | here hm => exact absurd hm List.not_mem_nil
      | under hm => exact absurd hm List.not_mem_nil
    obtain ⟨page, es, hpage, hread, hback⟩ :=
      Document.exists_decode_encode name (keptText_of_hyphenated h hne) hreadable hentries
    exact ⟨page, es, hpage, hread, keysOnce_readAs (Outcome.mapError_eq_ok.mp hread),
      hback path hentry hapart⟩

/-- **A key of octets**, of which there is at least one: it is what is made when these octets are
drawn, and it has these properties under every name. -/
theorem written_ofOctets (hne : octets ≠ []) (name : String) :
    (∀ s : Session, (s.random.draw octets.length).1 = .ok octets →
      ((generate octets.length).perform s).1 = .ok (ofOctets octets)) ∧
        Written name (ofOctets octets) := by
  refine ⟨fun s hdraw => ?_, written_of_hyphenated (hyphenated_ofOctets octets)
    (ofOctets_ne_empty hne) name⟩
  rw [perform_generate, drawn, hdraw]
  exact if_pos rfl

/-- Octets whose key looks like an octal number. -/
theorem ofOctets_octal : ofOctets [0, 64, 128, 192, 4] = "01234" := by decide

/-- A document with this key. -/
def octalManifest : Entries :=
  [(.str "created", .date ⟨2024, 2, 29⟩), (.str "weight", .float (.finite false 1 (-1))),
    (.str "string_data", .map [(.str "SECRET_KEY", .str "01234")])]

theorem written_ofOctets_octal : ofOctets [0, 64, 128, 192, 4] = "01234" ∧
    (∃ page, Document.encode (.map octalManifest) = .ok page ∧
      OnLine true "SECRET_KEY: '01234'\n".toList page.toList) ∧
    ∃ page es, Document.encode (.map octalManifest) = .ok page ∧
      Document.decode page = .ok (.map es) ∧
      EntryAt "SECRET_KEY" "01234" [.under (.str "string_data")] (.map es) := by
  have hbreak : ("SECRET_KEY".toList.all fun c => !Scalar.isLineBreak c) = true := by decide
  have hname : ShortLine "SECRET_KEY" := ⟨by decide, by decide, by simpa using hbreak⟩
  have hkey : ofOctets [0, 64, 128, 192, 4] = "01234" := by decide
  have hwritten : Written "SECRET_KEY" (ofOctets [0, 64, 128, 192, 4]) :=
    (written_ofOctets (by decide) _).2
  rw [hkey] at hwritten
  have hentry : EntryAt "SECRET_KEY" "01234" [.under (.str "string_data")] (.map octalManifest) :=
    .under (v := .map [(.str "SECRET_KEY", .str "01234")]) (by simp [octalManifest])
      (.here List.mem_cons_self)
  have hnumber : WholeNumber ('0' :: "1234".toList) := .octal (by decide) (by simp)
  have htyped : Typed "01234".toList := .number false hnumber
  have hcoherent : Value.Coherent (fun _ => .null) (.map octalManifest) := by
    simp [octalManifest, Value.Coherent, Value.CoherentEntries]
  have hlegible : ∀ s ∈ ["created", "weight", "string_data", "SECRET_KEY"], LegibleName s := by
    intro s hs _
    simp only [List.mem_cons, List.not_mem_nil, or_false] at hs
    rcases hs with rfl | rfl | rfl | rfl <;> decide
  have hreadable : Readable (.map octalManifest) := by
    have hdate : Date.Valid ⟨2024, 2, 29⟩ := by decide
    exact ⟨by simp [octalManifest], ⟨_, rfl, hlegible _ (by decide)⟩, hdate,
      ⟨_, rfl, hlegible _ (by decide)⟩, trivial, ⟨_, rfl, hlegible _ (by decide)⟩,
      ⟨by simp, ⟨_, rfl, hlegible _ (by decide)⟩, trivial, trivial⟩, trivial⟩
  refine ⟨hkey, ?_, ?_⟩
  · obtain ⟨page, shown, hpage, hshown, hline, -⟩ :=
      hwritten.line _ _ _ hcoherent hentry (by decide) (by decide)
    refine ⟨page, hpage, ?_⟩
    cases hshown with
    | plain hno => exact absurd (.inr (.inr htyped)) hno
    | quoted => exact hline hname
  · obtain ⟨page, es, hpage, hread, -, hback⟩ := hwritten.reread _ _ hreadable hentry
      ⟨fun _ _ => .inr (by decide), .inr (by decide)⟩
    exact ⟨page, es, hpage, hread, hback⟩

/-! ## Entries that are not on one line, or not read back -/

/-- A name that is too long to stand before its colon. -/
def longName : String :=
  String.ofList (List.replicate 123 'a')

/-- **A key below its name**: under a name of 123 characters no line of the page holds both. -/
theorem below_longName : ∃ page, Document.encode (.map [(.str longName, .str "01234")]) = .ok page ∧
    ∀ line ∈ Reading.fields '\n' page.toList,
      ¬ (longName.toList <:+: line ∧ "01234".toList <:+: line) := by
  have hpage : Document.encode (.map [(.str longName, .str "01234")]) =
      .ok (String.ofList ('?' :: ' ' :: (longName.toList ++ "\n: '01234'\n".toList))) :=
    Outcome.toOption_eq_some.mp (by decide +kernel)
  refine ⟨_, hpage, ?_⟩
  have hlines : ∀ line ∈ Reading.fields '\n' ('?' :: ' ' ::
    (longName.toList ++ "\n: '01234'\n".toList)),
      'a' ∈ line → '0' ∉ line := by
    decide +kernel
  rw [String.toList_ofList]
  rintro line hm ⟨hname, hkey⟩
  exact hlines line hm (hname.subset (by decide +kernel)) (hkey.subset (by decide))

/-- A name that may stand before its colon, but is too long to be read there: every
character is written as ten. -/
def wideName : String :=
  String.ofList (List.replicate 103 '😀')

private theorem toList_wideName : wideName.toList = List.replicate 103 '😀' :=
  String.toList_ofList

/-- It stands before its colon, where it cannot be read. -/
theorem shortLine_wideName : ShortLine wideName ∧ ¬ LegibleName wideName := by
  have hlength : wideName.toList.length = 103 := by rw [toList_wideName, List.length_replicate]
  have hshort : ShortLine wideName := by
    refine ⟨fun hempty => ?_, ?_, fun c hc => ?_⟩
    · rw [hempty] at hlength
      contradiction
    · rw [← String.length_toList, hlength]
      decide
    · rw [toList_wideName] at hc
      rw [List.eq_of_mem_replicate hc]
      decide
  have hlong : Scan.maxKeyLength < (keyText [] (.scalar .str (List.replicate 103 '😀'))).length := by
    decide +kernel
  exact ⟨hshort, fun h => Nat.not_le_of_lt hlong (toList_wideName ▸ h hshort)⟩

/-- A name of two lines with an escaped character in front of a space. -/
def twoLineName : String := "a\né b"

/-- It is read back as it was on lines that are not indented past their width. -/
theorem rereadKey_twoLineName_iff (column : Nat) :
    rereadKey column (.str twoLineName) = .str twoLineName ↔ column + 2 < Scalar.width := by
  have hkey : beforeColon (.str twoLineName) = false := by decide
  have htorn : Torn (column + 2) twoLineName.toList ↔ Scalar.width ≤ column + 2 :=
    ⟨fun h => h.2.1, fun h => ⟨by decide, h, ['a', '\n'], 'é',
      ['b'], by decide, by decide, by decide, by decide⟩⟩
  rw [← Nat.not_le, ← htorn, ← readText_eq_iff, rereadKey, hkey, if_neg Bool.false_ne_true,
    Value.reread, Value.str.injEq, ← String.toList_inj, String.toList_ofList]

/-- What stands in a value stands at the end of the way to the value. -/
theorem entryAt_nested (name text : String) (v : Value) (n : Nat) :
    EntryAt name text (List.replicate n (.under (.str "a"))) (nested n v) ↔
      EntryAt name text [] v := by
  induction n with
  | zero => rfl
  | succ n ih =>
      rw [← ih, nested, List.replicate_succ]
      constructor
      · intro h
        cases h with
        | under hm hv => exact (Prod.mk.inj (List.mem_singleton.mp hm)).2 ▸ hv
      · exact .under List.mem_cons_self

/-- **A name of two lines** inside mappings: the key is read back at its place
inside at most 38 of them. -/
theorem entryAt_nested_iff (n : Nat) : ∃ page es,
    Document.encode (nested (n + 1) (.map [(.str twoLineName, .str "01234")])) = .ok page ∧
      Document.decode page = .ok (.map es) ∧
      (EntryAt twoLineName "01234" (List.replicate (n + 1) (.under (.str "a"))) (.map es) ↔
        n + 1 < 39) := by
  have hinner : IsTree (.map [(.str twoLineName, .str "01234")]) :=
    ⟨by simp, ⟨_, rfl, by decide⟩, trivial, trivial⟩
  obtain ⟨page, hwrite, -, hread⟩ :=
    read_write (isTree_nested hinner (n + 1)) (List.cons_ne_nil _ _)
  have hkept : ∀ place i, Value.reread place i (.str "01234") = .str "01234" := by
    have hhyphenated := hyphenated_ofOctets [0, 64, 128, 192, 4]
    rw [ofOctets_octal] at hhyphenated
    intro place i
    rw [Value.reread, keptText_of_hyphenated hhyphenated (by decide), String.ofList_toList]
  have hkey : beforeColon (.str "a") = true := by decide
  have hpage : rereadPage [(.str "a", nested n (.map [(.str twoLineName, .str "01234")]))] =
      [(.str "a", nested n (.map [(rereadKey (2 * n + 2) (.str twoLineName), .str "01234")]))] := by
    have hordered : ordered (.map [(.str twoLineName, .str "01234")]) =
      .map [(.str twoLineName, .str "01234")] := rfl
    have hinside : Value.reread .value (2 * n) (.map [(.str twoLineName, .str "01234")]) =
        .map [(rereadKey (2 * n + 2) (.str twoLineName), .str "01234")] := by
      rw [Value.reread, rereadEntries_eq_map, List.map_singleton, hkept]
      rfl
    rw [rereadPage, sortByKey, List.map_singleton, ordered_nested, hordered, rereadEntries_eq_map,
      List.map_singleton, rereadKey, placeUnder, hkey, if_pos rfl, if_pos rfl, reread_nested,
      Nat.zero_add, hinside]
    rfl
  refine ⟨page, _, by rw [Document.encode]; exact congrArg _ hwrite, by
    rw [Document.decode]; exact congrArg _ hread, ?_⟩
  rw [hpage]
  have hplace := entryAt_nested twoLineName "01234"
    (.map [(rereadKey (2 * n + 2) (.str twoLineName), .str "01234")]) (n + 1)
  have hwidth : n + 1 < 39 ↔ 2 * n + 2 + 2 < Scalar.width := by
    simp only [Scalar.width]
    omega
  rw [nested] at hplace
  rw [hplace, hwidth, ← rereadKey_twoLineName_iff]
  constructor
  · intro h
    cases h with
    | here hm => exact (Prod.mk.inj (List.mem_singleton.mp hm)).1.symm
  · intro h
    rw [h]
    exact .here List.mem_cons_self

/-- A list is no key, so a mapping that has one is not read. -/
theorem toValue_listKey {A : Alphabet} (items : List (Node A)) (v : Node A)
    (rest : List (Node A × Node A)) :
    ∃ f, (Node.mapping .map ((.sequence .seq items, v) :: rest)).toValue .older = .error f := by
  have hkey : ∃ e, constructKey .older 1 (.sequence .seq items) = .error e := by
    rw [constructKey, construct]
    · cases constructItems .older 2 items <;> exact ⟨_, rfl⟩
    all_goals simp
  have hentries : ∃ e, constructEntries .older 1 ((.sequence .seq items, v) :: rest) =
      .error e := by
    obtain ⟨e, he⟩ := hkey
    have hmerge : (Node.sequence .seq items : Node A).isMergeKey = false := rfl
    rw [constructEntries, hmerge, he]
    cases construct .older 1 v <;> cases constructEntries .older 1 rest <;> exact ⟨_, rfl⟩
  obtain ⟨e, he⟩ := hentries
  by_cases hmergeable : mergeableEntries ((.sequence .seq items, v) :: rest) = true
  · exact ⟨_, by rw [toValue, construct, if_pos hmergeable, he]; rfl⟩
  · exact ⟨_, by rw [toValue, construct, if_neg hmergeable]⟩

/-- A mapping whose first key is a list on the page. -/
def pairKeyed : Entries :=
  [(.pair (.str "a") (.str "b"), .null), (.str "SECRET_KEY", .str "01234")]

/-- Its page. -/
def pairKeyedPage : String := "? - a\n  - b\n: null\nSECRET_KEY: '01234'\n"

/-- It is written, but not read back. -/
theorem decode_pairKeyed : Document.encode (.map pairKeyed) = .ok pairKeyedPage ∧
    ∃ f, Document.decode pairKeyedPage = .error f := by
  refine ⟨Outcome.toOption_eq_some.mp (by decide +kernel), ?_⟩
  have htokens : Token.ofText pairKeyedPage.toList =
      [.blockMapping, .key, .blockSequence, .entry, .scalar ['a'] true, .entry, .scalar ['b'] true,
        .blockEnd, .value, .scalar "null".toList true, .key, .scalar "SECRET_KEY".toList true,
        .value, .scalar "01234".toList false, .blockEnd] := by
    decide +kernel
  have hread : Node.ofText (A := .characters) .older pairKeyedPage.toList =
      .ok (some (.mapping .map
        [(.sequence .seq [.scalar .str ['a'], .scalar .str ['b']], .scalar .null "null".toList),
          (.scalar .str "SECRET_KEY".toList, .scalar .str "01234".toList)])) := by
    rw [Node.ofText, htokens]
    rfl
  obtain ⟨f, hf⟩ := toValue_listKey (A := .characters) [.scalar .str ['a'], .scalar .str ['b']]
    (.scalar .null "null".toList)
    [(.scalar .str "SECRET_KEY".toList, .scalar .str "01234".toList)]
  exact ⟨_, by rw [Document.decode, Yaml.read, readAs, readOver, hread]; exact congrArg _ hf⟩

/-- **Keys that are not on the line of their name, or not read back**, although octets give them:
under a name that is too long, or too wide, beside a key that is no text, beside what no page can
hold, and under a name of two lines that is too deep. -/
theorem written_elsewhere : ofOctets [0, 64, 128, 192, 4] = "01234" ∧
    (∃ page, Document.encode (.map [(.str longName, .str "01234")]) = .ok page ∧
      ∀ line ∈ Reading.fields '\n' page.toList,
        ¬ (longName.toList <:+: line ∧ "01234".toList <:+: line)) ∧
    (ShortLine wideName ∧ ∃ page f, Document.encode (.map [(.str wideName, .str "01234")]) =
      .ok page ∧ Document.decode page = .error f) ∧
    (∃ page f, Document.encode (.map pairKeyed) = .ok page ∧ Document.decode page = .error f) ∧
    (∀ v ∈ [.foreign, .int longNumber], ∃ f,
      Document.encode (.map [(.str "SECRET_KEY", .str "01234"), (.str "other", v)]) = .error f) ∧
    ∃ page es, Document.encode (nested 39 (.map [(.str twoLineName, .str "01234")])) = .ok page ∧
      Document.decode page = .ok (.map es) ∧
      ¬ EntryAt twoLineName "01234" (List.replicate 39 (.under (.str "a"))) (.map es) := by
  refine ⟨ofOctets_octal, below_longName, ⟨shortLine_wideName.1, ?_⟩, ?_, ?_, ?_⟩
  · obtain ⟨page, hpage, -, hunread⟩ := Document.decode_single wideName "01234"
    exact ⟨page, _, hpage, hunread shortLine_wideName.2⟩
  · obtain ⟨hpage, f, hread⟩ := decode_pairKeyed
    exact ⟨_, f, hpage, hread⟩
  · intro v hv
    simp only [List.mem_cons, List.not_mem_nil, or_false] at hv
    rcases hv with rfl | rfl
    · exact Document.exists_encode_error (.inr rfl)
    · refine Document.exists_encode_error (.inl ?_)
      simp [holds, holdsEntries, isLong, intText?_longNumber]
  · obtain ⟨page, es, hpage, hread, hplace⟩ := entryAt_nested_iff 38
    exact ⟨page, es, hpage, hread, fun h => absurd (hplace.mp h) (by decide)⟩

end RegistryBundle.SecretKey
