import RegistryBundle.Proofs.Yaml.Dates
import RegistryBundle.Proofs.Yaml.Entries
import RegistryBundle.Proofs.Yaml.RoundTrip
import RegistryBundle.Proofs.Yaml.Whole

/-!
# Entries that are read back

A document of plain data is read back with each of its texts under its name at its place. Two
things may come between a name and what is read of it: the name may be too long to be read
before its colon, and a name on lines of its own may lose white space where the lines are
indented past their width.

* `LegibleName` says that a name is not too long, `Readable` is plain data with such names;
* `Apart` says that the names on the way to an entry are not confused with others;
* `ReadsAs` says what the node of a value is read as, `exists_reading_entries` and
  `ReadsItems.list` bring it up from the parts of a value to the whole, and `exists_reading` is the
  induction over plain data;
* `Document.exists_decode_encode` is the same of documents.
-/

namespace RegistryBundle

namespace Value

/-- An entry whose key occurs with no other value stands among the entries that
are made one after another. -/
theorem mem_ofList_of_unique {α : Type} {entries : List (Value × α)} (hkeys : TextKeys entries)
    {s : String} {a : α}
    (h : (.str s, a) ∈ entries) (hunique : ∀ b, (.str s, b) ∈ entries → b = a) :
      (.str s, a) ∈ ofList entries := by
  obtain ⟨htexts, -⟩ := textKeys_nodup_ofList hkeys
  refine mem_of_get? htexts ?_
  have hfold : ∀ acc : List (Value × α), (get? acc s = some a ∨ (.str s, a) ∈ entries) →
      get? (entries.foldl (fun acc e => put acc e.1 e.2) acc) s = some a := by
    clear h htexts
    induction entries with
    | nil => exact fun acc h => h.resolve_right List.not_mem_nil
    | cons e rest ih =>
        intro acc h
        obtain ⟨t, ht⟩ := hkeys e List.mem_cons_self
        obtain ⟨k, b⟩ := e
        obtain rfl : k = .str t := ht
        refine ih (fun f hf => hkeys f (List.mem_cons_of_mem _ hf))
          (fun b hb => hunique b (List.mem_cons_of_mem _ hb)) _ ?_
        by_cases hts : t = s
        · subst hts
          obtain rfl : b = a := hunique b List.mem_cons_self
          exact .inl (get?_put_self acc t b)
        · rw [get?_put_other hts]
          refine h.imp_right fun hm => (List.mem_cons.mp hm).resolve_left fun heq => hts ?_
          exact (Value.str.inj (Prod.mk.inj heq).1).symm
  exact hfold [] (.inr h)

/-- An entry of a list of two is at the same place as that of the pair. -/
theorem EntryAt.list_of_pair {name text : String} {a b : Value} {path : List Part}
    (h : EntryAt name text path (.pair a b)) : EntryAt name text path (.list [a, b]) := by
  cases h with
  | first ha => exact .item (v := a) rfl ha
  | second hb => exact .item (v := b) rfl hb

end Value

namespace Yaml

open Value

namespace Scalar

/-- No character is lost. -/
theorem mem_reread {indent : Nat} {split first : Bool} {c : Char} {cs : List Char} (h : c ∈ cs) :
    c ∈ reread indent split first cs := by
  induction cs generalizing first with
  | nil => exact absurd h List.not_mem_nil
  | cons d cs ih =>
      rw [reread]
      rcases List.mem_cons.mp h with rfl | h
      · split <;> exact List.mem_cons_self
      · split
        · exact List.mem_cons_of_mem _ (List.mem_cons_of_mem _ (List.mem_cons_of_mem _ (ih h)))
        · exact List.mem_cons_of_mem _ (ih h)

end Scalar

namespace Node

private theorem mem_readText {indent : Nat} {c : Char} {s : List Char} (h : c ∈ s) :
    c ∈ readText false indent .str s := by
  unfold readText Scalar.bodyText
  split
  · exact Scalar.mem_reread h
  · exact h

/-- **A key that stands on lines of its own** is not read as one that stands before its colon. -/
theorem not_shortLine_readText {s : String} (h : ¬ ShortLine s) (indent : Nat) :
    ¬ ShortLine (String.ofList (readText false indent .str s.toList)) := by
  intro hread
  refine h ⟨?_, ?_, fun c hc => hread.line c ?_⟩
  · rintro rfl
    exact hread.ne rfl
  · have hlen := length_le_readText indent s.toList
    have hshort := hread.length
    rw [String.length_ofList] at hshort
    rw [String.length_toList] at hlen
    omega
  · rw [String.toList_ofList]
    exact mem_readText hc

end Node

end Yaml

namespace Value

open Yaml Yaml.Node

/-- A text is read back as a text. -/
theorem exists_rereadKey (column : Nat) (s : String) : ∃ t, rereadKey column (.str s) = .str t := by
  unfold rereadKey
  split
  · exact ⟨s, rfl⟩
  · exact ⟨_, by rw [reread]⟩

/-- **A name** that stands before its colon, or on lines that are not indented past their width, is
read back, and no other name is read as it. -/
theorem rereadKey_eq_iff {s t : String} {c : Nat} (h : ShortLine s ∨ c + 2 < Scalar.width) :
    rereadKey c (.str t) = .str s ↔ t = s := by
  have hkey : beforeColon (.str t) = true ↔ ShortLine t := isSimpleKey_iff
  unfold rereadKey
  split
  · exact ⟨Value.str.inj, congrArg _⟩
  · next hshort =>
      rw [hkey] at hshort
      rw [reread, Value.str.injEq]
      rcases h with hs | hc
      · refine ⟨fun heq => absurd (heq ▸ hs) (not_shortLine_readText hshort _),
          fun heq => absurd (heq ▸ hs) hshort⟩
      · rw [(readText_eq_iff _ _).mpr (not_torn_of_lt hc _), String.ofList_toList]

end Value

namespace Yaml

open Value

namespace Node

/-- An entry under a text, and the entry that is read back from it at some column. -/
def ReadsEntry (column depth : Nat) (e : Node × Node) (f : Value × Value) : Prop :=
  ∃ s : String, e.1 = .scalar .str s.toList ∧ f.1 = rereadKey column (.str s) ∧
    construct .older depth (reread (placeUnder (.str s)) column e.2) = .ok f.2

/-- Entries under texts whose values can be read are read back. -/
theorem exists_constructEntries {c depth : Nat} {entries : List (Node × Node)}
    (h : ∀ e ∈ entries, ∃ s : String, e.1 = .scalar .str s.toList ∧
      ∀ place, ∃ w, construct .older depth (reread place c e.2) = .ok w) :
    ∃ fs, constructEntries .older depth (rereadEntries c entries) = .ok ([], fs) ∧
      (∀ e ∈ entries, ∃ f ∈ fs, ReadsEntry c depth e f) ∧
        ∀ f ∈ fs, ∃ e ∈ entries, ReadsEntry c depth e f := by
  induction entries with
  | nil => exact ⟨[], by rw [rereadEntries, constructEntries], nofun, nofun⟩
  | cons e rest ih =>
      obtain ⟨s, hs, hvalue⟩ := h e List.mem_cons_self
      obtain ⟨fs, hfs, hto, hof⟩ := ih fun e he => h e (List.mem_cons_of_mem _ he)
      obtain ⟨w, hw⟩ := hvalue (placeUnder (.str s))
      have hreads : ReadsEntry c depth e (rereadKey c (.str s), w) := ⟨s, hs, rfl, hw⟩
      refine ⟨(rereadKey c (.str s), w) :: fs, ?_,
        List.forall_mem_cons.mpr ⟨⟨_, List.mem_cons_self, hreads⟩, ?_⟩,
        List.forall_mem_cons.mpr ⟨⟨_, List.mem_cons_self, hreads⟩, ?_⟩⟩
      · obtain ⟨k, v⟩ := e
        obtain rfl : k = .scalar .str s.toList := hs
        have hkey : beforeColon (.str s) = isSimpleKey 0 (.scalar .str s.toList) := rfl
        rw [placeUnder, hkey] at hw
        rw [rereadEntries, rereadKey, hkey]
        split
        · next hsimple =>
            rw [if_pos hsimple] at hw
            rw [constructEntries_text hw hfs, String.ofList_toList]
        · next hsimple =>
            rw [if_neg hsimple] at hw
            rw [reread, constructEntries_text hw hfs, Value.reread]
      · exact fun e he => (hto e he).imp fun f hf => ⟨List.mem_cons_of_mem _ hf.1, hf.2⟩
      · exact fun f hf => (hof f hf).imp fun e he => ⟨List.mem_cons_of_mem _ he.1, he.2⟩

end Node

/-! ## Documents of plain data -/

/-- A name that is not too long to be read where it stands before its colon. -/
def LegibleName (s : String) : Prop :=
  ShortLine s → (Node.keyText [] (.scalar .str s.toList)).length ≤ Scan.maxKeyLength

theorem LegibleName.bareKey {s : String} (h : LegibleName s) :
    Node.BareKey (.scalar .str s.toList) :=
  ⟨rfl, fun hs => h (Node.isSimpleKey_iff.mp hs)⟩

mutual

/-- Plain data. -/
def Readable : Value → Prop
  | .null => True
  | .bool _ => True
  | .int n => (Nat.toDigits 10 n.natAbs).length ≤ maxDigits
  | .float _ => True
  | .date d => d.Valid
  | .moment t => t.Valid ∧ t.microsecond < 1000000 ∧ (t.offset.getD 0).natAbs < 1440
  | .str _ => True
  | .list items => AreReadable items
  | .pair a b => Readable a ∧ Readable b
  | .map entries => (entries.map Prod.fst).Nodup ∧ EntriesReadable entries
  | _ => False

/-- Items that are plain data. -/
def AreReadable : List Value → Prop
  | [] => True
  | v :: rest => Readable v ∧ AreReadable rest

/-- Entries from legible names to plain data. -/
def EntriesReadable : List (Value × Value) → Prop
  | [] => True
  | (k, v) :: rest => (∃ s : String, k = .str s ∧ LegibleName s) ∧ Readable v ∧ EntriesReadable rest

end

/-- No other name is read as a name, or as one of those on the way to its mapping, the first of
which stands at some column. -/
def Apart (name : String) : Nat → List Part → Prop
  | column, [] => ShortLine name ∨ column + 2 < Scalar.width
  | column, part :: path =>
    (∀ s, part = .under (.str s) → ShortLine s ∨ column + 2 < Scalar.width) ∧
      Apart name (column + 2) path

/-- Nearer to the margin it is the same. -/
theorem Apart.mono {name : String} {column column' : Nat} {path : List Part}
    (h : Apart name column path)
    (hle : column' ≤ column) : Apart name column' path := by
  induction path generalizing column column' with
  | nil => exact h.imp id fun hlt => by omega
  | cons part path ih =>
      exact ⟨fun s hs => (h.1 s hs).imp id fun hlt => by omega, ih h.2 (Nat.add_le_add_right hle 2)⟩

/-- What a value is read as, with its entries that are kept apart. -/
def ReadsAs (name text : String) (v : Value) (n : Node) : Prop :=
  ∀ depth place i, ∃ w, Node.construct .older depth (Node.reread place i n) = .ok w ∧
    ∀ path, EntryAt name text path v → Apart name (i + 2) path → EntryAt name text path w

variable {name text : String}

section

variable {entries fs : Entries} {column depth : Nat}

/-- An entry of a mapping, and the entry that is read back from it at some column. -/
def RereadsEntry (column depth : Nat) (e f : Value × Value) : Prop :=
  ∃ s y, e.1 = .str s ∧ Node.ofValue e.2 = .ok y ∧ f.1 = rereadKey column (.str s) ∧
    Node.construct .older depth (Node.reread (placeUnder (.str s)) column y) = .ok f.2

/-- The entries of a mapping are read back, if their values can be. -/
theorem exists_rereadsEntry {n : Node} (hn : Node.ofValue (.map entries) = .ok n)
    (hkeys : TextKeys entries)
    (hvalues : ∀ e ∈ entries, ∀ y, Node.ofValue e.2 = .ok y → ∀ place, ∃ w,
      Node.construct .older depth (Node.reread place column y) = .ok w) :
    ∃ nodes fs, n = .mapping .map nodes ∧
      Node.constructEntries .older depth (Node.rereadEntries column nodes) = .ok ([], fs) ∧
      (∀ e ∈ entries, ∃ f ∈ fs, RereadsEntry column depth e f) ∧
        ∀ f ∈ fs, ∃ e ∈ entries, RereadsEntry column depth e f := by
  obtain ⟨nodes, rfl, hto, hof⟩ := Node.exists_ofValue_map hn
  have hnodes : ∀ e ∈ nodes, ∃ s : String, e.1 = .scalar .str s.toList ∧ ∀ place, ∃ w,
      Node.construct .older depth (Node.reread place column e.2) = .ok w := by
    intro e he
    obtain ⟨k, v, hkv, hk, hv⟩ := hof e.1 e.2 he
    obtain ⟨s, rfl⟩ := hkeys _ hkv
    exact ⟨s, (Except.ok.inj hk).symm, hvalues _ hkv _ hv⟩
  obtain ⟨fs, hfs, hread, hback⟩ := Node.exists_constructEntries hnodes
  refine ⟨nodes, fs, rfl, hfs, fun e he => ?_, fun f hf => ?_⟩
  · obtain ⟨s, hs⟩ := hkeys e he
    obtain ⟨x, y, hxy, hx, hy⟩ := hto e.1 e.2 he
    obtain ⟨f, hf, t, ht, hname, hw⟩ := hread _ hxy
    rw [hs] at hx
    obtain rfl : s = t := String.toList_inj.mp (Node.scalar.inj ((Except.ok.inj hx).trans ht)).2
    exact ⟨f, hf, s, y, hs, hy, hname, hw⟩
  · obtain ⟨e, he, t, ht, hname, hw⟩ := hback f hf
    obtain ⟨k, v, hkv, hk, hv⟩ := hof e.1 e.2 he
    obtain ⟨s, rfl⟩ := hkeys _ hkv
    obtain rfl : s = t := String.toList_inj.mp (Node.scalar.inj ((Except.ok.inj hk).trans ht)).2
    exact ⟨_, hkv, s, e.2, rfl, hv, hname, hw⟩

/-- **An entry that is kept apart** stands among those that are read back. -/
theorem mem_ofList_of_rereadsEntry (hnodup : (entries.map Prod.fst).Nodup)
    (hread : ∀ e ∈ entries, ∃ f ∈ fs, RereadsEntry column depth e f)
    (hback : ∀ f ∈ fs, ∃ e ∈ entries, RereadsEntry column depth e f) {s : String} {v : Value}
    (he : (.str s, v) ∈ entries) (hs : ShortLine s ∨ column + 2 < Scalar.width) :
    ∃ y w, Node.ofValue v = .ok y ∧
      Node.construct .older depth (Node.reread (placeUnder (.str s)) column y) = .ok w ∧
        (.str s, w) ∈ ofList fs := by
  obtain ⟨⟨k, w⟩, hf, t, y, hkey, hy, hname, hw⟩ := hread _ he
  obtain rfl := Value.str.inj hkey
  have hself : rereadKey column (.str s) = .str s := (rereadKey_eq_iff hs).mpr rfl
  obtain rfl : k = .str s := hname.trans hself
  have htexts : TextKeys fs := by
    intro f hf
    obtain ⟨e, -, t, -, -, -, hname, -⟩ := hback f hf
    exact (exists_rereadKey column t).imp fun _ hu => hname.trans hu
  refine ⟨y, w, hy, hw, mem_ofList_of_unique htexts hf fun w' hw' => ?_⟩
  -- What is read under the name is read from this entry, since the names of the mapping differ.
  obtain ⟨⟨k, v'⟩, he', t, y', hkey', hy', hname', hw'⟩ := hback _ hw'
  obtain rfl : t = s := (rereadKey_eq_iff hs).mp hname'.symm
  obtain rfl : k = .str t := hkey'
  obtain rfl : v' = v := (Prod.mk.inj (List.inj_on_of_nodup_map hnodup he' he rfl)).2
  obtain rfl : y' = y := Except.ok.inj (hy'.symm.trans hy)
  exact Except.ok.inj (hw'.symm.trans hw)

end

namespace Node

/-- The keys of mappings are texts. -/
theorem BareKey.exists_text {k : Node} (h : BareKey k) : ∃ s, k = .scalar .str s := by
  cases k with
  | scalar t s =>
      obtain ⟨rfl, -⟩ := h
      exact ⟨s, rfl⟩
  | _ => exact h.elim

private theorem bareEntries_iff {entries : List (Node × Node)} :
    BareEntries entries ↔ ∀ e ∈ entries, BareKey e.1 ∧ Bare e.2 := by
  induction entries with
  | nil => simp [BareEntries]
  | cons e rest ih => simp [BareEntries, ih, and_assoc]

end Node

/-- A text that is read back wherever it stands. -/
def KeptText (text : String) : Prop :=
  ∀ indent, Node.readText false indent .str text.toList = text.toList

/-- Texts of letters, digits and hyphens stand within double quotes nowhere. -/
theorem keptText_of_hyphenated (h : Hyphenated text.toList) (hne : text ≠ "") : KeptText text := by
  intro indent
  obtain ⟨hsingle, hplain⟩ := Node.styleOf_of_hyphenated h (by simpa using hne) false
  by_cases hneeds : Node.NeedsQuotes text.toList
  · rw [Node.readText, hsingle hneeds]
    rfl
  · rw [Node.readText, hplain hneeds]
    rfl

/-- A scalar that stands plain is read as some value, and has no entries. -/
private theorem readsAs_scalar {t : Tag} (ht : t ∈ [Tag.null, .bool, .int, .float, .timestamp])
    {s : List Char}
    (hplain : Scalar.allowsPlain s = true) (hne : s ≠ []) (htag : Implicit.tag .older s = t)
    (hvalue : ∃ w : Value, ScalarText.value .older t s = .ok w) {v : Value}
    (hv : ∀ path, ¬ EntryAt name text path v) :
    Node.Bare (.scalar t s) ∧ ReadsAs name text v (.scalar t s) := by
  have hstr : t ≠ .str := ne_of_mem_of_not_mem ht (by decide)
  have hshows : Node.ShowsTag t s := by
    refine .inr ⟨?_, by simp [Node.isImplicit, htag], hplain, hne⟩
    rintro rfl
    exact absurd ht (by decide)
  obtain ⟨w, hw⟩ := hvalue
  refine ⟨hshows, fun depth place i => ⟨w, ?_, fun path hpath => absurd hpath (hv path)⟩⟩
  rw [Node.reread_plain hshows hstr, Node.construct_scalar (List.mem_append_left [Tag.str] ht) hw]

/-- What items are read as, with their entries that are kept apart. -/
def ReadsItems (name text : String) (items : List Value) (ns : List Node) : Prop :=
  ∀ depth i, ∃ ws, Node.constructItems .older depth (Node.rereadItems i ns) = .ok ws ∧
    ∀ (j : Nat) (v : Value), items[j]? = some v →
      ∃ w, ws[j]? = some w ∧ ∀ path, EntryAt name text path v → Apart name (i + 2) path →
        EntryAt name text path w

theorem ReadsItems.nil : ReadsItems name text [] [] := fun _ _ =>
  ⟨[], by rw [Node.rereadItems, Node.constructItems], nofun⟩

theorem ReadsAs.cons {v : Value} {n : Node} {items : List Value} {ns : List Node}
    (h : ReadsAs name text v n)
    (hrest : ReadsItems name text items ns) : ReadsItems name text (v :: items) (n :: ns) := by
  intro depth i
  obtain ⟨w, hw, hentry⟩ := h depth .item i
  obtain ⟨ws, hws, hentries⟩ := hrest depth i
  refine ⟨w :: ws, by rw [Node.rereadItems, Node.constructItems, hw, hws]; rfl, fun j u hj => ?_⟩
  cases j with
  | zero =>
      obtain rfl : v = u := Option.some.inj hj
      exact ⟨w, rfl, hentry⟩
  | succ j => exact hentries j u hj

/-- A list is read as the list of what its items are read as. -/
theorem ReadsItems.list {items : List Value} {ns : List Node} (h : ReadsItems name text items ns) :
    ReadsAs name text (.list items) (.sequence .seq ns) := by
  intro depth place i
  obtain ⟨ws, hws, hentry⟩ := h (depth + 1) (if place == .value then i else i + 2)
  refine ⟨.list ws, by rw [Node.reread, Node.construct, hws]; rfl, fun path hpath hapart => ?_⟩
  cases hpath with
  | @item _ j v path hj hv =>
      obtain ⟨w, hw, hvw⟩ := hentry j v hj
      refine .item hw (hvw path hv (hapart.2.mono ?_))
      split <;> omega

/-- **The entries of a mapping** that are kept apart are read back with it. -/
theorem exists_reading_entries (htext : KeptText text) {entries : Entries}
    (hnodup : (entries.map Prod.fst).Nodup)
    (hentries : ∀ e ∈ entries, (∃ s, e.1 = .str s ∧ LegibleName s) ∧
      ∃ y, Node.ofValue e.2 = .ok y ∧ Node.Bare y ∧ ReadsAs name text e.2 y) :
    ∃ nodes, Node.ofValue (.map entries) = .ok (.mapping .map nodes) ∧ Node.BareEntries nodes ∧
      ∀ column depth, ∃ fs, Node.constructEntries .older depth (Node.rereadEntries column nodes) =
        .ok ([], fs) ∧ ∀ path, EntryAt name text path (.map entries) → Apart name column path →
        EntryAt name text path (.map (ofList fs)) := by
  have hkeys : TextKeys entries := fun e he => (hentries e he).1.imp fun _ hs => hs.1
  obtain ⟨n, hn⟩ : ∃ n, Node.ofValue (.map entries) = .ok n := by
    have hattempts : ∀ a ∈ sortByKey (Node.ofEntries entries), ∃ e, a.2 = .ok e := by
      intro a ha
      rw [(sortByKey_perm _).mem_iff, ofEntries_eq_map, List.mem_map] at ha
      obtain ⟨e, he, rfl⟩ := ha
      obtain ⟨⟨s, hs, -⟩, y, hy, -⟩ := hentries e he
      exact ⟨(.scalar .str s.toList, y), by rw [attempt, hs, hy]; rfl⟩
    obtain ⟨nodes, hnodes⟩ := Outcome.exists_mapM_eq_ok hattempts
    exact ⟨.mapping .map nodes, by rw [Node.ofValue, hnodes]; rfl⟩
  obtain ⟨nodes, rfl, -, hof⟩ := Node.exists_ofValue_map hn
  refine ⟨nodes, hn, Node.bareEntries_iff.mpr fun e he => ?_, fun column depth => ?_⟩
  · obtain ⟨k, v, hkv, hk, hv⟩ := hof e.1 e.2 he
    obtain ⟨⟨s, rfl, hs⟩, y, hy, hbare, -⟩ := hentries _ hkv
    rw [← Except.ok.inj hk, Except.ok.inj (hv.symm.trans hy)]
    exact ⟨hs.bareKey, hbare⟩
  · have hvalues : ∀ e ∈ entries, ∀ y, Node.ofValue e.2 = .ok y → ∀ place, ∃ w,
        Node.construct .older depth (Node.reread place column y) = .ok w := by
      intro e he y hy place
      obtain ⟨-, y', hy', -, hreads⟩ := hentries e he
      obtain rfl : y = y' := Except.ok.inj (hy.symm.trans hy')
      exact (hreads depth place column).imp fun _ hw => hw.1
    obtain ⟨nodes', fs, heq, hfs, hread, hback⟩ := exists_rereadsEntry hn hkeys hvalues
    obtain rfl := (Node.mapping.inj heq).2
    refine ⟨fs, hfs, fun path hpath hapart => ?_⟩
    cases hpath with
    | here he =>
        obtain ⟨y, w, hy, hw, hm⟩ := mem_ofList_of_rereadsEntry hnodup hread hback he hapart
        obtain rfl := Except.ok.inj hy
        rw [Node.reread, htext, Node.construct_scalar (by decide) rfl, String.ofList_toList] at hw
        obtain rfl := Except.ok.inj hw
        exact .here hm
    | @under _ key v path he hv =>
        obtain ⟨s, rfl⟩ := hkeys _ he
        obtain ⟨y, w, hy, hw, hm⟩ := mem_ofList_of_rereadsEntry hnodup hread hback he
          (hapart.1 s rfl)
        obtain ⟨-, y', hy', -, hreads⟩ := hentries _ he
        obtain rfl : y = y' := Except.ok.inj (hy.symm.trans hy')
        obtain ⟨w', hw', hentry⟩ := hreads depth (placeUnder (.str s)) column
        obtain rfl : w = w' := Except.ok.inj (hw.symm.trans hw')
        exact .under hm (hentry path hv hapart.2)

mutual

/-- **Plain data** is written and read back with its entries that are kept apart. -/
theorem exists_reading (htext : KeptText text) : ∀ v : Value, Readable v →
    ∃ n, Node.ofValue v = .ok n ∧ Node.Bare n ∧ ReadsAs name text v n
  | .null, _ => ⟨_, rfl, readsAs_scalar (by decide) (by decide) (by decide) (by decide)
      ⟨.null, rfl⟩ nofun⟩
  | .bool true, _ => ⟨_, rfl, readsAs_scalar (by decide) (by decide) (by decide) (by decide)
      ⟨.bool true, rfl⟩ nofun⟩
  | .bool false, _ => ⟨_, rfl, readsAs_scalar (by decide) (by decide) (by decide) (by decide)
      ⟨.bool false, rfl⟩ nofun⟩
  | .int n, h => by
      obtain ⟨hplain, hne, htag, hvalue⟩ := intText_reads n h
      have hn : intText? n = some (intText n) := if_pos h
      exact ⟨_, by rw [Node.ofValue, hn],
        readsAs_scalar (by decide) hplain hne htag ⟨.int n, hvalue⟩ nofun⟩
  | .float x, _ => by
      obtain ⟨hplain, hne, htag, hvalue⟩ := doubleText_reads x
      exact ⟨_, rfl, readsAs_scalar (by decide) hplain hne htag hvalue nofun⟩
  | .date d, h => by
      obtain ⟨hplain, hne, htag, hvalue⟩ := dateText_reads h
      exact ⟨_, rfl, readsAs_scalar (by decide) hplain hne htag ⟨.date d, hvalue⟩ nofun⟩
  | .moment t, h => by
      obtain ⟨hplain, hne, htag, hvalue⟩ := momentText_reads h.1 h.2.1 h.2.2
      exact ⟨_, rfl, readsAs_scalar (by decide) hplain hne htag ⟨.moment t, hvalue⟩ nofun⟩
  | .str s, _ => by
      refine ⟨_, rfl, .inl rfl, fun depth place i =>
        ⟨.str (String.ofList (Node.readText false (i + 2) .str s.toList)), ?_, nofun⟩⟩
      rw [Node.reread]
      exact Node.construct_scalar (by decide) rfl depth
  | .list items, h => by
      obtain ⟨nodes, hnodes, hbare, hread⟩ := exists_reading_items htext items h
      exact ⟨.sequence .seq nodes, by rw [Node.ofValue, hnodes]; rfl, ⟨rfl, hbare⟩, hread.list⟩
  | .pair a b, h => by
      obtain ⟨x, hx, hbarex, hreadx⟩ := exists_reading htext a h.1
      obtain ⟨y, hy, hbarey, hready⟩ := exists_reading htext b h.2
      refine ⟨.sequence .seq [x, y], by rw [Node.ofValue, hx, hy]; rfl,
        ⟨rfl, hbarex, hbarey, trivial⟩, ?_⟩
      intro depth place i
      obtain ⟨w, hw, hinside⟩ := (hreadx.cons (hready.cons .nil)).list depth place i
      exact ⟨w, hw, fun path hpath => hinside path hpath.list_of_pair⟩
  | .map entries, h => by
      obtain ⟨nodes, hnodes, hbare, hread⟩ := exists_reading_entries htext h.1
        (exists_reading_values htext entries h.2)
      refine ⟨.mapping .map nodes, hnodes, ⟨rfl, hbare⟩, fun depth place i => ?_⟩
      obtain ⟨fs, hfs, hinside⟩ := hread (i + 2) (depth + 1)
      obtain ⟨hmergeable, hany⟩ := Node.mergeable_rereadEntries
        (fun e he => (Node.bareEntries_iff.mp hbare e he).1.exists_text) (i + 2)
      refine ⟨.map (ofList fs), ?_, hinside⟩
      rw [Node.reread, Node.construct, if_pos hmergeable, hany, hfs]
      rfl

/-- The same of items. -/
private theorem exists_reading_items (htext : KeptText text) :
    ∀ items : List Value, AreReadable items → ∃ ns, Node.ofItems items = .ok ns ∧
    Node.BareItems ns ∧ ReadsItems name text items ns
  | [], _ => ⟨[], rfl, trivial, .nil⟩
  | v :: rest, h => by
      obtain ⟨n, hn, hbare, hread⟩ := exists_reading htext v h.1
      obtain ⟨ns, hns, hbares, hreads⟩ := exists_reading_items htext rest h.2
      exact ⟨n :: ns, by rw [Node.ofItems, hn, hns]; rfl, ⟨hbare, hbares⟩, hread.cons hreads⟩

/-- The same of the values of entries. -/
private theorem exists_reading_values (htext : KeptText text) : ∀ entries : List (Value × Value),
    EntriesReadable entries → ∀ e ∈ entries,
    (∃ s, e.1 = .str s ∧ LegibleName s) ∧ ∃ y, Node.ofValue e.2 = .ok y ∧ Node.Bare y ∧
      ReadsAs name text e.2 y
  | [], _ => nofun
  | (_, v) :: rest, h => List.forall_mem_cons.mpr ⟨⟨h.1, exists_reading htext v h.2.1⟩,
      exists_reading_values htext rest h.2.2⟩

end

end Yaml

namespace Document

open Value Yaml

/-- **A document of plain data** is written, and read back with its entries that are kept apart. -/
theorem exists_decode_encode (name : String) {text : String} (htext : KeptText text)
    {entries : Entries}
    (h : Readable (.map entries)) (hne : entries ≠ []) :
    ∃ page es, encode (.map entries) = .ok page ∧ decode page = .ok (.map es) ∧
      ∀ path, EntryAt name text path (.map entries) → Apart name 0 path →
        EntryAt name text path (.map es) := by
  obtain ⟨nodes, hnodes, hbare, hread⟩ :=
    exists_reading_entries htext h.1 (exists_reading_values htext entries h.2)
  obtain ⟨e, rest, rfl⟩ : ∃ e rest, nodes = e :: rest := by
    obtain ⟨nodes', heq, hto, -⟩ := Node.exists_ofValue_map hnodes
    obtain rfl := (Node.mapping.inj heq).2
    obtain ⟨⟨k, v⟩, rest, rfl⟩ := List.exists_cons_of_ne_nil hne
    obtain ⟨x, y, hxy, -⟩ := hto k v List.mem_cons_self
    exact List.exists_cons_of_ne_nil (List.ne_nil_of_mem hxy)
  obtain ⟨fs, hfs, hinside⟩ := hread 0 1
  obtain ⟨hmergeable, hany⟩ := Node.mergeable_rereadEntries
    (fun f hf => (Node.bareEntries_iff.mp hbare f hf).1.exists_text) 0
  have hvalue : (Node.mapping .map (Node.rereadEntries 0 (e :: rest))).toValue .older =
      .ok (.map (ofList fs)) := by
    rw [Node.toValue, Node.construct, if_pos hmergeable, hany, hfs]
    rfl
  refine ⟨String.ofList (Node.page (.mapping .map (e :: rest))), ofList fs, ?_, ?_, hinside⟩
  · rw [encode, Yaml.write, hnodes]
    rfl
  · rw [decode, Yaml.read, readAs, readOver, String.toList_ofList, Node.ofText_page hbare]
    exact congrArg _ hvalue

end Document

end RegistryBundle
