import RegistryBundle.Proofs.Yaml.Unquoted

/-!
# Documents of one entry

A text under a name is read back from its page, whatever the text, unless the name stands before its
colon and is too long to be read there; then the page cannot be read at all.

* `Scan.marks_longKey`: the reader gives a key up whose colon comes too
  late, and fails at the colon;
* `Document.decode_single` is the reading of the page, either way.
-/

namespace RegistryBundle

open Value

namespace Yaml

open Chars Lexeme Scalar

namespace Scan

/-- A key that is too long is forgotten at its colon. -/
theorem settle_longKey {p q : Cursor} (h : p.index + maxKeyLength < q.index) :
    settle (behindKey p q []) = .ok ([], behind q [] false) := by
  have hstale : forgetStale q (noted p [] true) = .ok none := by
    simp [noted, forgetStale, h]
  simp [settle, behindKey, hstale, closeBlocks, behind, inFlow]

/-- A colon without a key in front of it, where none may begin, is not read. -/
theorem next_loneColon (q : Cursor) {after : List Char} (ha : atBoundary after = true) :
    (behind q [] false).next ':' after = .error (.malformed .tokens) := by
  have hvalue : (behind q [] false).next ':' after =
      (behind q [] false).valueToken (':' :: after) := by
    simp [next, atDocumentMark, ha]
  rw [hvalue]
  rfl

/-- **A key whose colon comes too late**: the text is read as a scalar, and the
reader fails at the colon. -/
theorem marks_longKey {st : Style} {s : List Char} (h : Fits st s) (hs : st = .double ∨ '\n' ∉ s)
    (hlong : maxKeyLength < (Scalar.body st 0 0 false s).length) (after : List Char)
    (ha : atBoundary after = true) :
    marks ((Scalar.body st 0 0 false s ++ ':' :: after).length + 1) {}
      (Scalar.body st 0 0 false s ++ ':' :: after) =
      [.maybeKey 0, .token (.scalar s (st == .plain)), .token (.fault (.malformed .tokens))] := by
  have he : Enters ({} : Cursor).column .blockMapping [] [.blockMapping] [0] := .opens (by simp)
  obtain ⟨fuel, hfuel, hmarks⟩ := (leads_key h hs he ha).2 _ (Nat.lt_succ_self _)
  obtain ⟨f, rfl⟩ : ∃ f, fuel = f + 1 := ⟨fuel - 1, by omega⟩
  have hindex : ({} : Cursor).index + maxKeyLength <
      (({} : Cursor).past (Scalar.body st 0 0 false s)).index := by
    rw [Cursor.index_past]
    exact Nat.add_lt_add_left hlong _
  have hfault : marks (f + 1) (behindKey {} (({} : Cursor).past (Scalar.body st 0 0 false s)) [])
    (':' :: after) =
      [.token (.fault (.malformed .tokens))] := by
    rw [marks]
    simp only [passOver_start _ _ _ (startsToken_colon after)]
    have hsettle := settle_longKey hindex
    have hnext := next_loneColon (({} : Cursor).past (Scalar.body st 0 0 false s)) ha
    simp only [behindKey] at hsettle ⊢
    simp only [hsettle, hnext, List.nil_append]
  exact hmarks.trans (congrArg (_ ++ ·) hfault)

end Scan

namespace Node

/-- A text under a name, as nodes. -/
def textEntry (name text : String) : Node × Node :=
  (.scalar .str name.toList, .scalar .str text.toList)

/-- At the margin no text is torn. -/
theorem rereadEntries_textEntry (name text : String) :
    rereadEntries 0 [textEntry name text] = [textEntry name text] := by
  have htext : ∀ s : String, readText false 2 .str s.toList = s.toList := fun s =>
    (readText_eq_iff 2 s.toList).mpr (not_torn_of_lt (by decide) _)
  simp only [textEntry, rereadEntries, reread, htext, ite_self]

/-- **A page whose only name is too long** before its colon is not in the format. -/
theorem ofText_longName {name text : String} (hname : ShortLine name) (hlong : ¬ LegibleName name) :
    ofText (A := .characters) .older (page (.mapping .map [textEntry name text])) =
      .error (.malformed .tokens) := by
  have hsimple : isSimpleKey 0 (.scalar .str name.toList) = true := isSimpleKey_iff.mpr hname
  have hfits : Fits (styleOf true .str name.toList) name.toList :=
    ShowsTag.fits (t := .str) (.inl rfl) true
  have hline : '\n' ∉ name.toList := fun hm => absurd (hname.line _ hm) (by decide)
  have hlength : Scan.maxKeyLength <
      (Scalar.body (styleOf true .str name.toList) 0 0 false name.toList).length := by
    rw [← keyText_eq]
    exact Nat.lt_of_not_le fun hle => hlong fun _ => hle
  have hvalue := printed_layout (.scalar .str text.toList) (.inl rfl) .value 0
    (0 + (keyText [] (.scalar .str name.toList)).length + 1)
  have hpage : page (.mapping .map [textEntry name text]) =
      Scalar.body (styleOf true .str name.toList) 0 0 false name.toList ++ ':' ::
        layout .value 0 (0 + (keyText [] (.scalar .str name.toList)).length + 1) []
          (.scalar .str text.toList) := by
    have hroot : page (.mapping .map [textEntry name text]) =
      layoutEntries 0 [textEntry name text] := rfl
    rw [hroot, textEntry, layoutEntries, if_pos hsimple, ← keyText_eq]
    simp
  have hprinted : Printed (page (.mapping .map [textEntry name text])) := by
    rw [hpage, printed_append, printed_cons]
    exact ⟨printed_body hfits 0 0 false, by decide, hvalue⟩
  have hmarks := Scan.marks_longKey hfits (.inr hline) hlength
    (layout .value 0 (0 + (keyText [] (.scalar .str name.toList)).length + 1) []
      (.scalar .str text.toList)) rfl
  rw [← hpage] at hmarks
  have htokens : Token.ofText (page (.mapping .map [textEntry name text])) =
      [.scalar name.toList (styleOf true .str name.toList == .plain),
        .fault (.malformed .tokens)] := by
    rw [ofText_of_printed hprinted, hmarks]
    rfl
  have hdocument : Grammar.document (A := .characters) .older
      [.scalar name.toList (styleOf true .str name.toList == .plain), .fault (.malformed .tokens)] =
        .error (.malformed .tokens) := rfl
  simp only [ofText, htokens, hdocument, Outcome.map_error]

end Node

end Yaml

namespace Document

open Yaml Node

/-- **A document of one text under a name** is written, and read back exactly if the name can be
read before its colon. -/
theorem decode_single (name text : String) :
    ∃ page, encode (.map [(.str name, .str text)]) = .ok page ∧
      (LegibleName name → decode page = .ok (.map [(.str name, .str text)])) ∧
      (¬ LegibleName name → decode page = .error (.breach (.ofFault (.malformed .tokens)))) := by
  have hnode : Node.ofValue (.map [(.str name, .str text)]) =
    .ok (.mapping .map [textEntry name text]) := rfl
  refine ⟨String.ofList (page (.mapping .map [textEntry name text])), by
    rw [encode, Yaml.write, hnode]; rfl, ?_, ?_⟩
  · intro hlegible
    have hbare : BareEntries [textEntry name text] := ⟨hlegible.bareKey, .inl rfl, trivial⟩
    have hvalue : construct .older 1 (.scalar .str text.toList) = .ok (.str text : Value) := by
      rw [construct_scalar (v := .str (String.ofList text.toList)) (by decide) rfl,
        String.ofList_toList]
    rw [decode, Yaml.read, readAs, readOver, String.toList_ofList, ofText_page hbare,
      rereadEntries_textEntry]
    have hsingle := toValue_single name (.scalar .str text.toList : Node)
    rw [hvalue] at hsingle
    exact congrArg _ hsingle
  · intro hlong
    have hname : ShortLine name := by_contra fun hshort => hlong fun h => absurd h hshort
    rw [decode, Yaml.read, readAs, readOver, String.toList_ofList, ofText_longName hname hlong]
    rfl

end Document

end RegistryBundle
