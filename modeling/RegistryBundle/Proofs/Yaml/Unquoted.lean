import RegistryBundle.Proofs.Yaml.ReadEntries

/-!
# What texts are read as without quotes

A text of letters, digits and hyphens that could stand without quotes is read as itself
if it stands so, unless it looks like a value of another type; then it is read as no text
at all, if it can be read.

* `Node.construct_scalar_ne_str`: a scalar of another type has no text for a value;
* `Document.decode_unquoted` reads the line of an entry whose text stands without quotes.
-/

namespace RegistryBundle

open Value

namespace Yaml

/-- No text looks like octets. -/
theorem Implicit.tag_ne_binary (cs : List Char) : tag .older cs ≠ .binary := by
  unfold tag
  repeat' split
  all_goals exact nofun

namespace Node

/-- A scalar that is no text is not read as one. -/
theorem construct_scalar_ne_str {t : Tag} (ht : t ≠ .str) (depth : Nat) (cs : List Char)
    (s : String) :
    construct .older depth (.scalar t cs) ≠ .ok (.str s : Value) := by
  by_cases hcollection : t ∈ [Tag.seq, .map, .set, .omap, .pairs]
  · simp only [List.mem_cons, List.not_mem_nil, or_false] at hcollection
    rcases hcollection with rfl | rfl | rfl | rfl | rfl <;> (rw [construct]; nofun)
  · rw [construct]
    · exact fun h => ScalarText.value_ne_str ht cs s (Outcome.mapError_eq_ok.mp h)
    all_goals
      rintro rfl
      exact hcollection (by decide)

/-- The only entry of a mapping is read as such, if its value can be. -/
theorem toValue_single {A : Alphabet} (name : String) (n : Node A) :
    (mapping .map [(.scalar .str name.toList, n)]).toValue .older =
      ((construct .older 1 n).map fun v => Value.map [(.str name, v)]).mapError
        PlacedFault.fault := by
  have hmergeable : mergeableEntries [((.scalar .str name.toList : Node A), n)] = true := rfl
  have hmerges : ([((.scalar .str name.toList : Node A), n)].any fun e => e.1.isMergeKey) =
      false := rfl
  rw [toValue]
  cases hn : construct .older 1 n with
  | ok v =>
      have hentries := constructEntries_text hn (by rw [constructEntries]) name.toList
      rw [construct_mapping hmergeable hmerges hentries, String.ofList_toList]
      rfl
  | error e =>
      have hkey : constructKey .older 1 (.scalar .str name.toList) =
          .ok (.str name : Value A) := by
        rw [constructKey, construct_scalar (v := .str name) (by decide)
          (by simp [ScalarText.value])]
        · rfl
        all_goals simp
      have hentries : constructEntries .older 1 [(.scalar .str name.toList, n)] = .error e := by
        rw [constructEntries, hn, hkey, constructEntries]
        rfl
      rw [construct, if_pos hmergeable, hmerges, hentries]
      rfl

end Node

end Yaml

namespace Document

open Yaml Node

/-- What stands under the only name of a mapping. -/
theorem eq_of_entryAt_single {name s : String} {v : Value}
    (h : EntryAt name s [] (.map [(.str name, v)])) :
    v = .str s := by
  cases h with
  | here hm => exact (Prod.mk.inj (List.mem_singleton.mp hm)).2.symm

/-- **A line without quotes** is read as its text if that looks like nothing else,
and as no text otherwise. -/
theorem decode_unquoted {name : String} (hname : ShortLine name) (hlegible : LegibleName name)
    {cs : List Char}
    (h : Hyphenated cs) (hne : cs ≠ []) (hplain : Scalar.allowsPlain cs = true) :
    (¬ Typed cs →
      decode (String.ofList (entryLine name.toList cs)) =
        .ok (.map [(.str name, .str (String.ofList cs))])) ∧
      (Typed cs → ∀ v, decode (String.ofList (entryLine name.toList cs)) = .ok v →
        ∀ s, ¬ EntryAt name s [] v) := by
  obtain ⟨t, ht⟩ : ∃ t, Implicit.tag .older cs = t := ⟨_, rfl⟩
  have himplicit : isImplicit t cs = true := by simp [isImplicit, ht]
  have hstyle : styleOf false t cs = .plain := by
    rw [styleOf, Scalar.style, himplicit, hplain]
    rfl
  have hshows : ShowsTag t cs := by
    refine .inr ⟨?_, himplicit, hplain, hne⟩
    exact ht ▸ Implicit.tag_ne_binary cs
  have hbare : BareEntries [(.scalar .str name.toList, .scalar t cs)] :=
    ⟨hlegible.bareKey, hshows, trivial⟩
  have hsimple : isSimpleKey 0 (.scalar .str name.toList) = true := isSimpleKey_iff.mpr hname
  have hspace : ' ' ∉ cs := h.notMem (by decide)
  have hline : '\n' ∉ cs := h.notMem (by decide)
  have hpage : page (.mapping .map [(.scalar .str name.toList, .scalar t cs)]) =
      entryLine name.toList cs := by
    rw [page_mapping hbare]
    simp only [layoutEntries, hsimple, if_true, layout, hshows.scalarText_eq, hstyle, Scalar.body,
      Scalar.plainBody, Scalar.foldedBody_of_word _ _ _ _ _ hspace hline, List.flatMap_singleton']
    simp [entryLine, hsimple, valueLine]
  have hread : decode (String.ofList (entryLine name.toList cs)) =
      (((construct .older 1 (.scalar t cs)).map fun v => Value.map [(.str name, v)]).mapError
        PlacedFault.fault).mapError
        fun f => .breach (.ofFault f) := by
    have hreread : Node.rereadEntries 0 [(.scalar .str name.toList, .scalar t cs)] =
        [(.scalar .str name.toList, .scalar t cs)] := by
      simp only [Node.rereadEntries, hsimple, if_true, Node.reread, readText, hstyle,
        Scalar.bodyText]
    rw [decode, Yaml.read, readAs, readOver, String.toList_ofList, ← hpage, ofText_page hbare,
      hreread]
    exact congrArg _ (toValue_single name _)
  have htyped : t ≠ .str ↔ Typed cs := ht ▸ Implicit.tag_ne_str_iff h hne
  rw [hread]
  refine ⟨fun hnot => ?_, fun hlooks v hv s hs => ?_⟩
  · obtain rfl : t = .str := by_contra fun hstr => hnot (htyped.mp hstr)
    rw [construct_scalar (v := .str (String.ofList cs)) (by decide) rfl]
    rfl
  · obtain ⟨w, hw, rfl⟩ := Outcome.map_eq_ok.mp
      (Outcome.mapError_eq_ok.mp (Outcome.mapError_eq_ok.mp hv))
    exact construct_scalar_ne_str (htyped.mpr hlooks) 1 cs s
      (hw.trans (congrArg _ (eq_of_entryAt_single hs)))

end Document

end RegistryBundle
