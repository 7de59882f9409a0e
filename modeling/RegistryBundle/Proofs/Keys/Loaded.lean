import RegistryBundle.Proofs.Keys.Manifest
import RegistryBundle.Proofs.Loading
import RegistryBundle.Proofs.Value.Shown
import RegistryBundle.Proofs.Yaml.Unquoted

/-!
# What the file of secret keys gives

A file of secret keys that has a value gives no keys if the value counts as false, and else a
snapshot or a fault of the configuration, whatever the value is. Texts may be broken everywhere but
among the data, which are kept as octets.

* `Value.asText?` is the text that a value is, over either alphabet;
* `Snapshot.TextManifest` are the manifests of texts, `Snapshot.Keeps` the snapshots of them, and
  `Snapshot.TextManifest.ofManifest` reads one as the other;
* `Snapshot.Deficient` are manifests that are never read;
* `Loading.secretKeysOver_of_document` says what the file gives;
  `Loading.secretKeysOver_unencodable` is a broken text among the data.
-/

namespace RegistryBundle

open Value Outcome

variable {A : Alphabet} {τ : Type} [TextOver A τ]

/-! ## Texts over an alphabet -/

namespace Value

/-- The text that a value is. -/
def asText? (v : Value A) : Option τ :=
  match v.bare with
  | .str s => some (TextOver.ofString s)
  | .broken h t => some (TextOver.ofBroken h t)
  | _ => none

/-- A value is a text if it is a whole one or a broken one. -/
theorem asText?_eq_some_iff {v : Value A} {t : τ} : v.asText? = some t ↔
    (∃ s, v.bare = .str s ∧ TextOver.ofString s = t) ∨
      ∃ h u, v.bare = .broken h u ∧ TextOver.ofBroken h u = t := by
  rw [asText?]
  cases v.bare with
  | broken h u => simp [h]
  | _ => simp

/-- A text is read as itself. -/
theorem ownText?_of_asText? {v : Value A} {t : τ} (h : v.asText? = some t) :
    v.ownText? = some t := by
  rcases asText?_eq_some_iff.mp h with ⟨s, hv, rfl⟩ | ⟨h, u, hv, rfl⟩ <;> rw [ownText?, hv]

/-- Values that are one text are one key. -/
theorem sameKey_of_asText? {a b : Value A} {t : τ} (ha : a.asText? = some t)
    (hb : b.asText? = some t) : a.sameKey b = true := by
  rw [sameKey]
  rcases asText?_eq_some_iff.mp ha with ⟨s, hs, rfl⟩ | ⟨h, u, hu, rfl⟩ <;>
    rcases asText?_eq_some_iff.mp hb with ⟨s', hs', heq⟩ | ⟨h', u', hu', heq⟩
  · rw [hs, hs']
    exact beq_iff_eq.mpr (TextOver.ofString_inj heq.symm)
  · exact absurd heq.symm TextOver.ofString_ne_ofBroken
  · exact absurd heq TextOver.ofString_ne_ofBroken
  · rw [hu, hu']
    exact beq_iff_eq.mpr (TextOver.ofBroken_inj heq.symm)

end Value

namespace Snapshot

variable {α : Type} {R : Value A → α → Prop} {es entries : Entries A} {table : Table α τ} {name : τ}
  {space : Option τ} {texts : Table τ τ} {data : Table String τ}

/-! ## Manifests of texts -/

/-- Entries under texts, with values that stand for what the table has. -/
def Lists (R : Value A → α → Prop) (entries : Entries A) (table : Table α τ) : Prop :=
  List.Forall₂ (fun e f => e.1.asText? = some f.1 ∧ R e.2 f.2) entries table

/-- A part with such entries; one that is absent has none. -/
def Holds (R : Value A → α → Prop) (part : Option (Value A)) (table : Table α τ) : Prop :=
  ∃ entries, (part.getD (.map [])).bare = .map entries ∧ Lists R entries table

/-- A manifest of texts: its name, its namespace if it has one, its texts, and its data, which are
texts that octets encode. -/
structure TextManifest (es : Entries A) (name : τ) (space : Option τ) (texts : Table τ τ)
    (data : Table String τ) : Prop where
  name : (get? es "name").map asText? = some (some name)
  space : (get? es "namespace").map asText? = space.map some
  texts : Holds (fun v t => v.asText? = some t) (get? es "string_data") texts
  data : Holds (fun v s => v.bare = .str s) (get? es "data") data

/-- A snapshot with these texts, and with the octets of the data. -/
structure Keeps (s : Snapshot τ) (name : τ) (space : Option τ) (texts : Table τ τ)
    (data : Table String τ) : Prop where
  name : s.name = name
  space : s.space = space.getD (TextOver.ofString defaultSpace)
  texts : s.texts = texts
  octets : s.octets = octetsOfTexts data

/-- Under distinct keys stand texts of distinct names. -/
theorem Lists.nodup (h : Lists R entries table) (hdistinct : DistinctKeys entries) :
    (table.map Prod.fst).Nodup := by
  induction h with
  | nil => exact List.nodup_nil
  | @cons e f es table hfirst hrest ih =>
      obtain ⟨hhead, htail⟩ := List.pairwise_cons.mp hdistinct
      refine List.nodup_cons.mpr ⟨fun hmem => ?_, ih htail⟩
      obtain ⟨g, hg, hname⟩ := List.mem_map.mp hmem
      obtain ⟨i, hi, rfl⟩ := List.mem_iff_getElem.mp hg
      have hi' : i < es.length := by rwa [hrest.length_eq]
      have hsame : e.1.sameKey es[i].1 = true :=
        sameKey_of_asText? hfirst.1 (hname ▸ (hrest.get hi' hi).1)
      exact absurd ((hhead _ (List.getElem_mem hi')).symm.trans hsame) Bool.false_ne_true

/-- A part of texts in a value that has each key once. -/
theorem Holds.exists_entries {raw : Value A} (hraw : raw.bare = .map es) (hkeys : KeysOnce raw)
    {part : String} (h : Holds R (get? es part) table) :
    ∃ entries, (partOf es part).bare = .map entries ∧ Lists R entries table ∧
      (table.map Prod.fst).Nodup := by
  obtain ⟨entries, hbare, hlists⟩ := h
  refine ⟨entries, partOf_of_bare hbare, hlists, hlists.nodup ?_⟩
  cases hget : get? es part with
  | none =>
      rw [hget] at hbare
      obtain rfl : [] = entries := Value.map.inj hbare
      exact List.Pairwise.nil
  | some v =>
      rw [hget] at hbare
      exact (hkeys.get? hraw hget).distinctKeys hbare

variable [DecidableEq τ]

/-- **A manifest of texts** is read as the snapshot of these texts. -/
theorem TextManifest.ofManifest {raw : Value A} (hraw : raw.bare = .map es)
    (hkeys : KeysOnce raw) (h : TextManifest es name space texts data) :
    ∃ s, ofManifest es = .ok s ∧ s.Keeps name space texts data := by
  obtain ⟨v, hget, hname⟩ := Option.map_eq_some_iff.mp h.name
  obtain ⟨given, hgiven, htexts, hnodup⟩ := h.texts.exists_entries hraw hkeys
  obtain ⟨shown, hshown, hdata, hnodupData⟩ := h.data.exists_entries hraw hkeys
  have hspace : Schema.text ((get? es "namespace").getD (.str defaultSpace)) =
      .fits (space.getD (TextOver.ofString defaultSpace)) := by
    have hspaces := h.space
    cases hfound : get? es "namespace" with
    | none =>
        rw [hfound] at hspaces
        obtain rfl := Option.map_eq_none_iff.mp hspaces.symm
        rfl
    | some w =>
        rw [hfound] at hspaces
        obtain ⟨n, rfl, hn⟩ := Option.map_eq_some_iff.mp hspaces.symm
        exact Schema.text_eq_fits_iff.mpr (ownText?_of_asText? hn.symm)
  have hself : Table.ofList texts = texts := Table.ofList_eq_self hnodup
  have hselfData : Table.ofList (octetsOfTexts data) = octetsOfTexts data := by
    apply Table.ofList_eq_self
    rw [octetsOfTexts, List.map_map]
    exact hnodupData
  refine ⟨ofEntries name (space.getD (TextOver.ofString defaultSpace)) texts (octetsOfTexts data),
    ofManifest_eq_ok_iff.mpr ⟨given, shown, texts, data, ?_⟩, ⟨rfl, rfl, hself, hselfData⟩⟩
  exact {
    name := ⟨v, hget, Schema.text_eq_fits_iff.mpr (ownText?_of_asText? hname)⟩
    space := hspace
    textsPart := by rw [asEntries, hgiven]
    dataPart := hshown
    textsRead := htexts.imp fun _ _ hentry =>
      ⟨Schema.text_eq_fits_iff.mpr (ownText?_of_asText? hentry.1),
        Schema.text_eq_fits_iff.mpr (ownText?_of_asText? hentry.2)⟩
    dataShown := hdata.imp fun _ _ hentry =>
      ⟨Schema.text_eq_fits_iff.mpr (ownText?_of_asText? hentry.1), text?_of_bare hentry.2⟩
    texts := rfl
    octets := rfl
  }

/-! ## Manifests that are never read -/

/-- A manifest without a name, with a value among its texts that is neither a text nor octets, or
with one among its data that no octets encode. -/
inductive Deficient (es : Entries A) : Prop where
  | nameless (h : get? es "name" = none)
  | texts {part : Value A} {entries : Entries A} {e : Value A × Value A}
      (hpart : get? es "string_data" = some part) (hentries : part.bare = .map entries)
      (he : e ∈ entries) (hstr : ∀ s, e.2.bare ≠ .str s) (hbroken : ∀ h t, e.2.bare ≠ .broken h t)
      (hbytes : ∀ b, e.2.bare ≠ .bytes b)
  | data {part : Value A} {entries : Entries A} {e : Value A × Value A} {h : A = .letters}
      {t : BrokenText} (hpart : get? es "data" = some part) (hentries : part.bare = .map entries)
      (he : e ∈ entries) (hbroken : e.2.bare = .broken h t)

/-- **A deficient manifest** is not read. -/
theorem Deficient.ofManifest_ne_ok (h : Deficient es) (s : Snapshot τ) :
    ofManifest es ≠ .ok s := by
  intro hread
  obtain ⟨texts, data, given, shown, hmade⟩ := ofManifest_eq_ok_iff.mp hread
  cases h with
  | nameless hnameless =>
      obtain ⟨v, hname, -⟩ := hmade.name
      exact absurd (hnameless.symm.trans hname) nofun
  | @texts part entries e hpart hentries he hstr hbroken hbytes =>
      have hbare : (partOf es "string_data").bare = .map entries :=
        partOf_of_bare (by rw [hpart]; exact hentries)
      have htexts := hmade.textsPart
      rw [asEntries, hbare] at htexts
      obtain rfl := Except.ok.inj htexts
      obtain ⟨i, hi, rfl⟩ := List.mem_iff_getElem.mp he
      have hvalue := (hmade.textsRead.get hi (hmade.textsRead.length_eq ▸ hi)).2
      rw [Schema.text_eq_fits_iff, ownText?] at hvalue
      split at hvalue
      · next s hs => exact hstr s hs
      · next h t ht => exact hbroken h t ht
      · next b hb => exact hbytes b hb
      · contradiction
  | @data part entries e h t hpart hentries he hbroken =>
      have hbare : (partOf es "data").bare = .map entries :=
        partOf_of_bare (by rw [hpart]; exact hentries)
      obtain rfl := Value.map.inj (hmade.dataPart.symm.trans hbare)
      obtain ⟨i, hi, rfl⟩ := List.mem_iff_getElem.mp he
      have hshown := (hmade.dataShown.get hi (hmade.dataShown.length_eq ▸ hi)).2
      rw [List.get_eq_getElem, ← text?_bare, hbroken] at hshown
      contradiction

end Snapshot

/-! ## The file -/

namespace Loading

variable {t : Tree} {p : FilePath} {raw : Value A}

/-- A file with a value is there. -/
theorem hasPath_of_document (h : documentOver A t p = .ok raw) : t.hasPath p = true := by
  rw [documentOver, Tree.read] at h
  rw [Tree.hasPath]
  cases hlookup : t.lookup p with
  | ok o => rfl
  | error trouble =>
      rw [hlookup] at h
      contradiction

variable [DecidableEq τ]

private theorem secretKeys_of_truthy (h : documentOver A t p = .ok raw)
    (htrue : raw.truthy = true) :
    secretKeysOver τ t (some p) = some <$> (mapping p raw >>= ofManifest p) := by
  rw [secretKeysOver, hasPath_of_document h, h]
  exact if_pos htrue

private theorem secretKeys_of_not_truthy (h : documentOver A t p = .ok raw)
    (hfalse : raw.truthy = false) :
    secretKeysOver τ t (some p) = .ok none := by
  rw [secretKeysOver, hasPath_of_document h, h, ok_bind, hfalse]
  rfl

/-- A value that counts as true is a snapshot, or a fault of the configuration. -/
theorem secretKeys_cases (h : documentOver A t p = .ok raw) (htrue : raw.truthy = true) :
    (∃ s, secretKeysOver τ t (some p) = .ok (some s)) ∨
      ∃ fault, secretKeysOver τ t (some p) = .error (.config fault) := by
  have honly := (onlyConfig_mapping p raw).bind (onlyConfig_ofManifest (τ := τ) p)
  rw [secretKeys_of_truthy h htrue]
  cases hread : mapping p raw >>= ofManifest (τ := τ) p with
  | ok s => exact .inl ⟨s, rfl⟩
  | error e =>
      obtain ⟨fault, rfl⟩ := honly e hread
      exact .inr ⟨fault, rfl⟩

variable {es : Entries A}

/-- A manifest of texts is the snapshot of these texts. -/
theorem secretKeys_of_textManifest (h : documentOver A t p = .ok raw) (hraw : raw.bare = .map es)
    {name : τ} {space : Option τ} {texts : Table τ τ} {data : Table String τ}
    (hmanifest : Snapshot.TextManifest es name space texts data) :
    ∃ s, secretKeysOver τ t (some p) = .ok (some s) ∧ s.Keeps name space texts data := by
  have htrue : raw.truthy = true := by
    obtain ⟨v, hname, -⟩ := Option.map_eq_some_iff.mp hmanifest.name
    rw [← truthy_bare, hraw, truthy]
    cases es with
    | nil => contradiction
    | cons e rest => rfl
  obtain ⟨s, hread, hkeeps⟩ := hmanifest.ofManifest hraw (keysOnce_document h)
  refine ⟨s, ?_, hkeeps⟩
  rw [secretKeys_of_truthy h htrue, mapping, hraw]
  simp only [ok_bind, ofManifest, hread]
  rfl

/-- A deficient manifest is a fault of the configuration. -/
theorem secretKeys_of_deficient (h : documentOver A t p = .ok raw) (htrue : raw.truthy = true)
    (hraw : raw.bare = .map es) (hdeficient : Snapshot.Deficient es) :
    ∃ fault, secretKeysOver τ t (some p) = .error (.config fault) := by
  refine (secretKeys_cases h htrue).resolve_left ?_
  rintro ⟨s, hs⟩
  rw [secretKeys_of_truthy h htrue, mapping, hraw] at hs
  obtain ⟨s', hread, -⟩ : ∃ s', ofManifest p es = .ok s' ∧ some s' = some s := map_eq_ok.mp hs
  unfold ofManifest at hread
  split at hread
  · next s'' hok => exact hdeficient.ofManifest_ne_ok s'' hok
  · contradiction
  · split at hread <;> contradiction

/-- **What the file of secret keys gives**, whatever value it has, and whether its texts may be
broken or not. -/
theorem secretKeysOver_of_document (h : documentOver A t p = .ok raw) :
    (secretKeysOver τ t (some p) = .ok none ↔ raw.truthy = false) ∧
      (raw.truthy = true → (∃ s, secretKeysOver τ t (some p) = .ok (some s)) ∨
        ∃ fault, secretKeysOver τ t (some p) = .error (.config fault)) ∧
      ∀ es, raw.bare = .map es →
        (∀ (name : τ) space texts data, Snapshot.TextManifest es name space texts data →
          ∃ s, secretKeysOver τ t (some p) = .ok (some s) ∧ s.Keeps name space texts data) ∧
        (raw.truthy = true → Snapshot.Deficient es →
          ∃ fault, secretKeysOver τ t (some p) = .error (.config fault)) := by
  have hnone : secretKeysOver τ t (some p) = .ok none → raw.truthy = false := by
    intro hnone
    by_contra htrue
    rcases secretKeys_cases (τ := τ) h (Bool.not_eq_false _ ▸ htrue) with ⟨s, hs⟩ | ⟨fault, hfault⟩
    · exact absurd (hnone.symm.trans hs) nofun
    · exact absurd (hnone.symm.trans hfault) nofun
  refine ⟨⟨hnone, secretKeys_of_not_truthy h⟩, secretKeys_cases h, fun es hraw => ⟨?_, ?_⟩⟩
  · exact fun name space texts data hmanifest => secretKeys_of_textManifest h hraw hmanifest
  · exact fun htrue hdeficient => secretKeys_of_deficient h htrue hraw hdeficient

/-! ## Broken texts -/

/-- A half of a character alone. -/
def loneHalf : BrokenText := ⟨[.half 0], rfl⟩

/-- A page of a manifest with that text under a name of a part. -/
def brokenPage (part : String) : String :=
  "name: k\n" ++ part ++ ":\n  SECRET_KEY: \"\\ud800\"\n"

/-- The manifest on the page. -/
def brokenManifest (part : String) : Entries .letters :=
  [(.str "name", .str "k"), (.str part, .map [(.str "SECRET_KEY", .broken rfl loneHalf)])]

/-- A tree with the page in a file. -/
def brokenTree (part : String) : Tree :=
  { files := [(["keys"], .ofText (brokenPage part))] }

/-- The file. -/
def keysFile : FilePath := ⟨false, ["keys"]⟩

open Yaml Node in
private theorem readOver_brokenPage {part : String} (h : part = "string_data" ∨ part = "data") :
    readOver .letters .older (brokenPage part) = .ok (.map (brokenManifest part)) := by
  have htokens : Token.ofText (brokenPage part).toList = [.blockMapping, .key,
      .scalar "name".toList true, .value, .scalar "k".toList true, .key, .scalar part.toList true,
      .value, .blockMapping, .key, .scalar "SECRET_KEY".toList true, .value, .broken loneHalf,
      .blockEnd, .blockEnd] := by
    rcases h with rfl | rfl <;> decide +kernel
  have hnode : Node.ofText .older (brokenPage part).toList = .ok (some
      (.mapping .map [(.scalar .str "name".toList, .scalar .str "k".toList),
        (.scalar .str part.toList, .mapping .map [(.scalar .str "SECRET_KEY".toList,
          (.broken rfl .str loneHalf : Node .letters))])])) := by
    rw [Node.ofText, htokens]
    rcases h with rfl | rfl <;> rfl
  have hbroken : construct .older 2 (.broken rfl .str loneHalf : Node .letters) =
      .ok (.broken rfl loneHalf) := by
    rw [construct]
    · rfl
    all_goals simp
  have hkeys := construct_mapping rfl rfl
    (constructEntries_text hbroken (by rw [constructEntries]) "SECRET_KEY".toList)
  have hname := construct_scalar (A := .letters) (t := .str) (s := "k".toList) (by decide) rfl 1
  have hentries := constructEntries_text hname
    (constructEntries_text hkeys (by rw [constructEntries]) part.toList) "name".toList
  have hvalue := construct_mapping rfl rfl hentries
  rw [readOver, hnode, ok_bind]
  simp only [toValue, hvalue]
  rcases h with rfl | rfl <;> rfl

/-- The page is what the file decodes to. -/
theorem documentOver_brokenTree {part : String} (h : part = "string_data" ∨ part = "data") :
    documentOver .letters (brokenTree part) keysFile = .ok (.map (brokenManifest part)) := by
  refine documentOver_of_page ?_ (readOver_brokenPage h) ?_
  · rcases h with rfl | rfl <;> exact List.all_eq_true.mp (by decide +kernel)
  · simp [brokenTree, keysFile, Tree.lookup, Tree.resolve, Tree.walk, Tree.occupant?]

/-- **A broken text among the texts** is kept as it is. -/
theorem secretKeysOver_of_document_broken :
    documentOver .letters (brokenTree "string_data") keysFile =
        .ok (.map (brokenManifest "string_data")) ∧
      ∃ s, secretKeysOver Text (brokenTree "string_data") (some keysFile) = .ok (some s) ∧
        s.Keeps (.whole "k") none [(.whole "SECRET_KEY", .broken loneHalf)] [] := by
  have hdocument := documentOver_brokenTree (.inl rfl : "string_data" = "string_data" ∨ _)
  obtain ⟨-, -, hmapping⟩ := secretKeysOver_of_document (τ := Text) hdocument
  have hmanifest : Snapshot.TextManifest (brokenManifest "string_data") (Text.whole "k") none
      [(.whole "SECRET_KEY", .broken loneHalf)] [] :=
    ⟨rfl, rfl, ⟨_, rfl, .cons ⟨rfl, rfl⟩ .nil⟩, ⟨_, rfl, .nil⟩⟩
  exact ⟨hdocument, (hmapping _ rfl).1 _ _ _ _ hmanifest⟩

/-- **A broken text among the data** is a fault of the configuration, although the manifest has
texts under texts alone. -/
theorem secretKeysOver_unencodable :
    documentOver .letters (brokenTree "data") keysFile = .ok (.map (brokenManifest "data")) ∧
      (get? (brokenManifest "data") "name").map asText? = some (some (Text.whole "k")) ∧
      get? (brokenManifest "data") "namespace" = none ∧
      get? (brokenManifest "data") "string_data" = none ∧
      Snapshot.Holds (fun v t => v.asText? = some t) (get? (brokenManifest "data") "data")
        [(Text.whole "SECRET_KEY", Text.broken loneHalf)] ∧
      secretKeysOver Text (brokenTree "data") (some keysFile) =
        .error (.config (.manifestRejected keysFile.text (.breach .unencodable))) := by
  have hdocument := documentOver_brokenTree (.inr rfl : "data" = "string_data" ∨ _)
  refine ⟨hdocument, rfl, rfl, rfl, ⟨_, rfl, .cons ⟨rfl, rfl⟩ .nil⟩, ?_⟩
  rw [secretKeys_of_truthy hdocument rfl]
  rfl

end Loading

end RegistryBundle
