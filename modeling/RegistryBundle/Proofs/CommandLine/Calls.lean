import RegistryBundle.CommandLine.Call
import RegistryBundle.Proofs.Keys.Manifest
import RegistryBundle.Proofs.Output
import RegistryBundle.Proofs.Pass.Agreement
import RegistryBundle.Proofs.Pass.Series

/-!
# Calls one after another

Calls that keep the secret keys in their output directory do what passes do that hand the snapshot
on in memory: each call writes what the pass in its place makes, with the same random octets, and
what the next call loads is the snapshot of that pass.

* `Invocation` is a call with what it finds around it, `Invocation.order?` the pass
  that its inputs ask for;
* `Tree.Keeps` says that a file of secret keys stands for a snapshot,
  `Tree.Keeps.loaded` what is loaded from it;
* `Invocation.answer_follows` is one call, `Workplace.follows_afterAll` any number of them;
* `Workplace.calls_refine_passes` is the main statement.
-/

namespace RegistryBundle

/-- A call with what it finds around it. -/
structure Invocation where
  around : Surroundings
  texts : List String

namespace Invocation

/-- What the call answers, and the workplace after it. -/
def answer (i : Invocation) (w : Workplace) : Answer × Workplace :=
  Call.answer i.around i.texts w

/-- The call writes into a directory and keeps the secret keys there. -/
def KeepsKeysIn (i : Invocation) (directory : FilePath) : Prop :=
  ∃ a, Arguments.ofTexts i.texts = .run a ∧ a.outputDir = directory ∧
    a.secretKeys = some (directory.child secretKeysFile)

/-- The pass that the inputs of the call ask for. -/
def order? (i : Invocation) (t : Tree) : Option Pass.Order :=
  match Arguments.ofTexts i.texts with
  | .run a =>
    match Call.inputs t i.around.environment a with
    | .ok (settings, request) => some ⟨settings, i.around.now, request⟩
    | .error _ => none
  | _ => none

end Invocation

namespace Workplace

/-- The workplace after calls one after another. -/
def afterAll (w : Workplace) (calls : List Invocation) : Workplace :=
  calls.foldl (fun w i => (i.answer w).2) w

/-- The passes that the inputs of calls ask for, each call reading what those before it left. -/
def orders : Workplace → List Invocation → List Pass.Order
  | _, [] => []
  | w, i :: rest => (i.order? w.tree).toList ++ orders (i.answer w).2 rest

end Workplace

/-- The file of the secret keys stands for a snapshot: for none it is not there, else it is
the page of the snapshot. -/
def Tree.Keeps (t : Tree) (p : FilePath) : Option Snapshot → Prop
  | none => t.content? (p.place t.home) = none
  | some s => ∃ page, Artifacts.manifestPage s = .ok page ∧ t.lookup p = .ok (.file (.ofText page))

/-- **What is loaded** from the file that stands for a snapshot is that snapshot. -/
theorem Tree.Keeps.loaded {t : Tree} {p : FilePath} {kept loaded : Option Snapshot}
    (h : t.Keeps p kept)
    (hkept : ∀ s ∈ kept, s.Textual) (hload : Loading.secretKeys t (some p) = .ok loaded) :
    Option.Rel Snapshot.Same loaded kept ∧ ∀ s ∈ loaded, s.Textual := by
  cases kept with
  | some s =>
      obtain ⟨page, hpage, hfile⟩ := h
      have htextual := hkept s rfl
      rw [Loading.secretKeys_of_page htextual hpage hfile] at hload
      obtain rfl := Except.ok.inj hload
      refine ⟨.some (Snapshot.same_sorted s).symm, ?_⟩
      intro _ heq
      cases heq
      exact htextual.sorted
  | none =>
      -- A file cannot be there, and a directory cannot be read.
      rw [Loading.secretKeys, Loading.secretKeysOver] at hload
      cases hlookup : t.lookup p with
      | error e =>
          have hpath : t.hasPath p = false := by rw [hasPath, hlookup]
          rw [hpath] at hload
          obtain rfl := Except.ok.inj hload
          exact ⟨.none, fun _ hs => absurd hs (by simp)⟩
      | ok o =>
          have hpath : t.hasPath p = true := by rw [hasPath, hlookup]
          cases o with
          | file c =>
              have hcontent : t.content? (p.place t.home) = none := h
              rw [content?_of_occupant (lookup_ok hlookup)] at hcontent
              exact absurd hcontent (by simp)
          | directory =>
              have hread : t.read p = .error .isDirectory := by
                rw [read, hlookup]
                rfl
              rw [hpath, Loading.documentOver, hread] at hload
              exact absurd hload (by simp)

/-- **After the artifacts of a pass were written** the file stands for their snapshot; without one
it is as before, and there was none before. -/
theorem Tree.Keeps.write {t t' : Tree} {directory : FilePath} {kept : Option Snapshot}
    {made : Artifacts}
    {paths : List FilePath} (h : t.Keeps (directory.child secretKeysFile) kept)
    (hkept : made.snapshot = none → kept = none) (hnamed : made.Named)
    (hwrite : made.write directory t = (.ok paths, t')) :
      t'.Keeps (directory.child secretKeysFile) made.snapshot := by
  obtain ⟨hhome, hfile⟩ := Artifacts.write_ok hnamed hwrite
  cases hsnapshot : made.snapshot with
  | some s =>
      rw [hsnapshot] at hfile
      exact hfile
  | none =>
      rw [hkept hsnapshot] at h
      rw [hsnapshot] at hfile
      rw [Tree.Keeps, hhome]
      exact hfile.trans h

namespace Call

variable {around : Surroundings} {a : Arguments} {w : Workplace} {texts : List String}

/-- A failure has an exit code of its own. -/
private theorem code_ending {result : Except Failure (List FilePath)}
    (h : (ending result).code = 0) :
    ∃ paths, result = .ok paths := by
  cases result with
  | ok paths => exact ⟨paths, rfl⟩
  | error f =>
      rw [ending, Ending.code] at h
      split at h <;> exact absurd h (by decide)

/-- A call that writes has written what its pass made. -/
private theorem perform_ok {paths : List FilePath} (h : (perform around a w).1 = .ok paths) :
    ∃ made s, (make around w.tree a).perform w.session = (.ok made, s) ∧
      (made.write a.outputDir w.tree).1 = .ok paths ∧
      (perform around a w).2 = ⟨(made.write a.outputDir w.tree).2, s⟩ := by
  rw [perform] at h ⊢
  generalize (make around w.tree a).perform w.session = result at h ⊢
  obtain ⟨_ | made, s⟩ := result
  · exact absurd h (by simp)
  · exact ⟨made, s, rfl, h, rfl⟩

/-- **A call that ends well** has written what its pass made. -/
private theorem answer_ok (ha : Arguments.ofTexts texts = .run a)
    (hcode : (answer around texts w).1.ending.code = 0) :
    ∃ made s paths, (make around w.tree a).perform { w.session with log := [] } = (.ok made, s) ∧
      (made.write a.outputDir w.tree).1 = .ok paths ∧
        (answer around texts w).1.ending = .written paths ∧
      (answer around texts w).2 = ⟨(made.write a.outputDir w.tree).2, s⟩ := by
  rw [answer, ha] at hcode ⊢
  simp only [run] at hcode ⊢
  cases hthreshold : Level.threshold a.logLevel with
  | error f =>
      rw [hthreshold] at hcode
      exact absurd hcode (by simp [Ending.code])
  | ok threshold =>
      rw [hthreshold] at hcode
      obtain ⟨paths, hpaths⟩ := code_ending hcode
      obtain ⟨made, s, hmade, hwrite, hafter⟩ := perform_ok hpaths
      exact ⟨made, s, paths, hmade, hwrite, congrArg ending hpaths, hafter⟩

/-- The inputs of a pass that a call makes. -/
theorem make_ok {t : Tree} {s s' : Session} {made : Artifacts}
    (h : (make around t a).perform s = (.ok made, s')) :
    ∃ settings request, inputs t around.environment a = .ok (settings, request) ∧
      (Pass.run settings around.now request).perform s = (.ok made, s') := by
  rw [make] at h
  obtain ⟨⟨settings, request⟩, hinputs, h⟩ := Action.perform_ofExcept_bind_ok.mp h
  exact ⟨settings, request, hinputs, h⟩

/-- The snapshot of the request is the one that was loaded. -/
private theorem inputs_ok {t : Tree} {environment : Table String} {settings : Settings}
    {request : Pass.Request}
    (h : inputs t environment a = .ok (settings, request)) :
    Loading.secretKeys t a.secretKeys = .ok request.snapshot := by
  rw [inputs] at h
  obtain ⟨_, -, h⟩ := Outcome.bind_eq_ok.mp h
  obtain ⟨_, -, h⟩ := Outcome.bind_eq_ok.mp h
  obtain ⟨_, -, h⟩ := Outcome.bind_eq_ok.mp h
  obtain ⟨snapshot, hsnapshot, h⟩ := Outcome.bind_eq_ok.mp h
  rw [hsnapshot]
  split at h <;> obtain ⟨-, rfl⟩ := Prod.mk.inj (Except.ok.inj h) <;> rfl

end Call

/-! ## One call -/

/-- Passes in memory follow calls: they share the session, and the file of the secret keys stands
for the snapshot. -/
structure Workplace.Follows (w : Workplace) (directory : FilePath) (st : Pass.Standing) : Prop where
  session : st.session = w.session
  textual : ∀ s ∈ st.snapshot, s.Textual
  keeps : w.tree.Keeps (directory.child secretKeysFile) st.snapshot

/-- A pass over a snapshot of texts makes one. -/
theorem Pass.Order.textual {o : Order} {given : Option Snapshot} {s s' : Session} {made : Artifacts}
    (h : (o.pass given).perform s = (.ok made, s')) (hgiven : ∀ t ∈ given, t.Textual) :
    ∀ t ∈ made.snapshot, t.Textual := by
  obtain ⟨keys, _, _, hkeys, -, -, -, hsnapshot, -⟩ := run_ok h
  rw [hsnapshot]
  exact Snapshot.textual_of_resolvePair hkeys hgiven

/-- A snapshot that is there stays there. -/
theorem Pass.Order.none_of_none {o : Order} {given : Option Snapshot} {s s' : Session}
    {made : Artifacts}
    (h : (o.pass given).perform s = (.ok made, s')) (hnone : made.snapshot = none) :
      given = none := by
  obtain ⟨hgrows, -⟩ := o.pass_ok h
  cases given with
  | none => rfl
  | some t =>
      rw [hnone] at hgrows
      obtain ⟨_, hthere, -⟩ := hgrows
      exact absurd hthere (by simp)

/-- Equal passes write the same. -/
theorem Artifacts.write_eq_of_same {made made' : Artifacts} (h : made.Same made')
    (hmade : ∀ s ∈ made.snapshot, s.Textual) (hmade' : ∀ s ∈ made'.snapshot, s.Textual)
    (directory : FilePath)
    (t : Tree) : made'.write directory t = made.write directory t := by
  obtain ⟨kept, rfl, hkept⟩ := h
  obtain ⟨secretKey, databaseKey, snapshot, generated, configFiles, serviceFiles, certificate⟩ :=
    made
  cases hkept with
  | none => rfl
  | some hst =>
      have hpage := manifestPage_eq_of_same hst (hmade _ rfl) (hmade' _ rfl)
      simp only [write, writeAll, hpage]
      rfl

/-- **One call** writes what the pass in its place makes, and the passes follow it. -/
theorem Invocation.answer_follows {i : Invocation} {directory : FilePath} {w : Workplace}
    {st : Pass.Standing}
    (hkeeps : i.KeepsKeysIn directory) (hst : w.Follows directory st)
    (hcode : (i.answer w).1.ending.code = 0) :
    ∃ o made s paths, i.order? w.tree = some o ∧ st.perform o = (.ok made, s) ∧
      (i.answer w).1.ending = .written paths ∧ (i.answer w).2.session = s ∧
      made.write directory w.tree = (.ok paths, (i.answer w).2.tree) ∧
      (i.answer w).2.Follows directory (st.after o) := by
  obtain ⟨a, ha, rfl, hkeys⟩ := hkeeps
  obtain ⟨fromFile, s, paths, hmake, hwrite, hending, hafter⟩ := Call.answer_ok ha hcode
  obtain ⟨settings, request, hinputs, hrun⟩ := Call.make_ok hmake
  have hload := Call.inputs_ok hinputs
  rw [hkeys] at hload
  obtain ⟨hsame, hloaded⟩ := hst.keeps.loaded hst.textual hload
  -- The pass in memory differs from that of the call in its snapshot only.
  obtain ⟨made, hmade, hartifacts⟩ := (Pass.agree_run settings i.around.now request hsame).ok hrun
  have hperform : st.perform ⟨settings, i.around.now, request⟩ = (.ok made, s) := by
    rw [Pass.Standing.perform, hst.session]
    exact hmade
  have htextual : ∀ t ∈ made.snapshot, t.Textual := Pass.Order.textual hperform hst.textual
  have hfromFile : ∀ t ∈ fromFile.snapshot, t.Textual :=
    Pass.Order.textual (o := ⟨settings, i.around.now, request⟩) hrun hloaded
  have hsecond : st.after ⟨settings, i.around.now, request⟩ = ⟨s, made.snapshot⟩ := by
    rw [Pass.Standing.after, hperform]
  have hanswer : (i.answer w).2 = ⟨(fromFile.write a.outputDir w.tree).2, s⟩ := hafter
  have hwritten : made.write a.outputDir w.tree = (.ok paths, (i.answer w).2.tree) := by
    rw [Artifacts.write_eq_of_same hartifacts hfromFile htextual, hanswer, ← hwrite]
  refine ⟨_, made, s, paths, ?_, hperform, hending, by rw [hanswer], hwritten, ?_⟩
  · rw [order?, ha]
    simp only [hinputs]
  rw [hsecond]
  refine ⟨by rw [hanswer], htextual, ?_⟩
  exact hst.keeps.write (fun hnone => Pass.Order.none_of_none hperform hnone)
    (Pass.named_of_run hmade) hwritten

/-! ## Any number of calls -/

namespace Workplace

/-- Each of the calls ends with the exit code zero where its turn comes. -/
def AllEndWell (w : Workplace) (calls : List Invocation) : Prop :=
  ∀ before i after, calls = before ++ i :: after → (i.answer (w.afterAll before)).1.ending.code = 0

theorem AllEndWell.of_append {w : Workplace} {calls more : List Invocation}
    (h : w.AllEndWell (calls ++ more)) :
    w.AllEndWell calls := by
  intro before i after heq
  subst heq
  exact h before i (after ++ more) (by rw [List.append_assoc, List.cons_append])

/-- **Any number of calls** that end well, followed by passes in memory. -/
theorem follows_afterAll {directory : FilePath} {w : Workplace} {st : Pass.Standing}
    {calls : List Invocation}
    (hkeeps : ∀ i ∈ calls, i.KeepsKeysIn directory) (hwell : w.AllEndWell calls)
    (hst : w.Follows directory st) :
    (w.afterAll calls).Follows directory (st.afterAll (w.orders calls)) := by
  induction calls generalizing w st with
  | nil => exact hst
  | cons i rest ih =>
      obtain ⟨o, made, s, paths, horder, -, -, -, -, hnext⟩ :=
        i.answer_follows (hkeeps i List.mem_cons_self) hst (hwell [] i rest rfl)
      have horders : w.orders (i :: rest) = o :: (i.answer w).2.orders rest := by
        rw [orders, horder]
        rfl
      have hrest : (i.answer w).2.AllEndWell rest := by
        intro before j after heq
        subst heq
        exact hwell (i :: before) j after rfl
      rw [horders]
      exact ih (fun j hj => hkeeps j (List.mem_cons_of_mem i hj)) hrest hnext

/-- A file of secret keys holds a snapshot: without one there is no file, else
it is loaded from there. -/
def HoldsKeys (w : Workplace) (p : FilePath) : Option Snapshot → Prop
  | none => w.tree.content? (p.place w.tree.home) = none
  | some s => ∃ loaded, Loading.secretKeys w.tree (some p) = .ok (some loaded) ∧ s.Same loaded

theorem Follows.holdsKeys {directory : FilePath} {w : Workplace} {st : Pass.Standing}
    (h : w.Follows directory st) :
    w.HoldsKeys (directory.child secretKeysFile) st.snapshot := by
  obtain ⟨session, snapshot⟩ := st
  cases snapshot with
  | none => exact h.keeps
  | some s =>
      obtain ⟨page, hpage, hfile⟩ := h.keeps
      have htextual := h.textual s rfl
      exact ⟨s.sorted, Loading.secretKeys_of_page htextual hpage hfile,
        Snapshot.same_sorted s⟩

end Workplace

/-! ## A call that ends well -/

/-- A tree with files and a directory for what calls write. -/
def Tree.withOut (files : List (Place × Content)) : Tree :=
  { files := files, directories := [["out"]] }

namespace Tree

private theorem ensureDirectory_withOut (files : List (Place × Content)) :
    (withOut files).ensureDirectory ⟨false, ["out"]⟩ = .ok (withOut files) := by
  simp [withOut, ensureDirectory, makeDirectory, resolve, walk, occupant?, isDirectory, lookup]

private theorem ensureDirectory_registryFile (c : Content) :
    ({ files := [(["r.yaml"], c)] } : Tree).ensureDirectory ⟨false, ["out"]⟩ =
      .ok (withOut [(["r.yaml"], c)]) := by
  simp [withOut, ensureDirectory, makeDirectory, resolve, walk, occupant?]

theorem write_withOut (files : List (Place × Content)) {name : String} (h : name ≠ "..")
    (c : Content) :
    (withOut files).write ⟨false, ["out", name]⟩ c =
      .ok (withOut (putFile ["out", name] c files)) := by
  have hresolve : (withOut files).resolve ⟨false, ["out", name]⟩ = .ok ["out", name] := by
    simp [withOut, resolve, walk, occupant?, h]
  rw [write, hresolve, Outcome.ok_bind]
  simp only [withOut, occupant?]
  cases List.find? (fun f => f.1 == ["out", name]) files <;> simp

end Tree

/-- A file in that directory is written there. -/
theorem Writing.run_writeFile_withOut (files : List (Place × Content)) {name : String}
    (h : name ≠ "..") (c : Content) :
    (writeFile ⟨false, ["out", name]⟩ c).run.run (Tree.withOut files) =
      (.ok ⟨false, ["out", name]⟩, Tree.withOut (Tree.putFile ["out", name] c files)) := by
  have hdirectory : (makeDirectories (FilePath.parent ⟨false, ["out", name]⟩)).run.run
    (Tree.withOut files) =
      (.ok (), Tree.withOut files) := by
    rw [makeDirectories, run_change]
    simp [FilePath.parent, Tree.makeDirectories, Tree.ensureDirectory_withOut]
  rw [writeFile, Outcome.run_bind, hdirectory]
  simp only
  rw [Outcome.run_bind, run_change, Tree.write_withOut files h c]
  rfl

/-- What a pass without components makes is written there. -/
theorem Artifacts.write_withOut {made : Artifacts} {t : Tree} {files : List (Place × Content)}
    {base page : String}
    {s : Snapshot} (hdirectory : t.ensureDirectory ⟨false, ["out"]⟩ = .ok (Tree.withOut files))
    (hfiles : made.files = [([Pass.baseFile], .ofText base)]) (hsnapshot : made.snapshot = some s)
    (hpage : manifestPage s = .ok page) :
    made.write ⟨false, ["out"]⟩ t =
      (.ok [⟨false, ["out", Pass.baseFile]⟩, ⟨false, ["out", secretKeysFile]⟩],
        Tree.withOut (Tree.putFile ["out", secretKeysFile] (.ofText page)
        (Tree.putFile ["out", Pass.baseFile] (.ofText base) files))) := by
  have hmade : (Writing.makeDirectories ⟨false, ["out"]⟩).run.run t =
      (.ok (), Tree.withOut files) := by
    rw [Writing.makeDirectories, Writing.run_change]
    simp [Tree.makeDirectories, hdirectory]
  have hbase := Writing.run_writeFile_withOut files (show Pass.baseFile ≠ ".." by decide)
    (.ofText base)
  have hlast := Writing.run_writeFile_withOut
    (Tree.putFile ["out", Pass.baseFile] (.ofText base) files)
    (show secretKeysFile ≠ ".." by decide) (.ofText page)
  have hall : (made.files.mapM fun f => Writing.writeFile ⟨false, ["out"] ++ f.1⟩ f.2).run.run
    (Tree.withOut files) =
      (.ok [⟨false, ["out", Pass.baseFile]⟩],
        Tree.withOut (Tree.putFile ["out", Pass.baseFile] (.ofText base) files)) := by
    rw [hfiles, List.mapM_cons, List.mapM_nil]
    exact Outcome.run_bind_eq_ok.mpr ⟨_, _, hbase, rfl⟩
  rw [write, writeAll]
  refine Outcome.run_bind_eq_ok.mpr ⟨_, _, hmade, Outcome.run_bind_eq_ok.mpr ⟨_, _, hall, ?_⟩⟩
  simp only [hsnapshot, hpage]
  exact Outcome.run_bind_eq_ok.mpr ⟨_, _, hlast, rfl⟩

/-- A call whose pass makes something and writes it ends well. -/
theorem Call.answer_of_ok {around : Surroundings} {texts : List String} {a : Arguments}
    {w : Workplace}
    {threshold : Nat} {made : Artifacts} {s : Session} {paths : List FilePath} {tree : Tree}
    (ha : Arguments.ofTexts texts = .run a)
    (hlevel : Level.threshold a.logLevel = .ok threshold)
    (hmake : (make around w.tree a).perform { w.session with log := [] } = (.ok made, s))
    (hwrite : made.write a.outputDir w.tree = (.ok paths, tree)) :
    (answer around texts w).1.ending.code = 0 ∧ (answer around texts w).2 = ⟨tree, s⟩ := by
  have hperform : perform around a { w with session := { w.session with log := [] } } =
      (.ok paths, ⟨tree, s⟩) := by
    simp only [perform, hmake, hwrite]
  rw [answer, ha]
  simp only [run, hlevel, hperform]
  exact ⟨rfl, trivial⟩

/-- A call for the registry of a file, with a component that has no overlay
and without a certificate. -/
def plainCall : Invocation :=
  { around := { environment := [], now := Pass.noon }
    texts := ["--descriptor=r.yaml", "--output-dir=out", "--secret-keys=out/secret-keys.yaml",
      "--component=horizontalpodautoscaler", "--no-tls"] }

/-- The arguments of that call. -/
def plainArguments : Arguments :=
  { descriptor := ⟨false, ["r.yaml"]⟩, outputDir := ⟨false, ["out"]⟩
    secretKeys := some (FilePath.child ⟨false, ["out"]⟩ secretKeysFile)
    components := [Component.podAutoscaler.name], issueCertificate := false }

private theorem ofTexts_plainCall : Arguments.ofTexts plainCall.texts = .run plainArguments := by
  decide +kernel

/-- The request of that call. -/
def plainRequest (snapshot : Option Snapshot) : Pass.Request :=
  { descriptor := { name := "r" }, snapshot := snapshot, components := [.str
    Component.podAutoscaler.name]
    issueCertificate := false }

/-- The call ends well if its keys are found and the directory is there or can be made, and the file
of the registry stays as it is. -/
private theorem plainCall_answer {w : Workplace} {page : String} {files : List (Place × Content)}
    {loaded : Option Snapshot}
    {keys : SecretKey.ResolvedPair} {s : Snapshot} {t : Session}
    (hprinted : Yaml.Printed page.toList)
    (hread : Yaml.read page = .ok (.map [(.str "name", .str "r")]))
    (hfile : w.tree.lookup ⟨false, ["r.yaml"]⟩ = .ok (.file (.ofText page)))
    (hdirectory : w.tree.ensureDirectory ⟨false, ["out"]⟩ = .ok (Tree.withOut files))
    (hload : Loading.secretKeys w.tree plainArguments.secretKeys = .ok loaded)
    (hkeys : (SecretKey.resolvePair { name := "r" } SecretKey.usualLength [] loaded).perform
      { w.session with log := [] } = (.ok keys, t))
    (hsnapshot : keys.snapshot = some s) (hs : s.Textual) :
    (plainCall.answer w).1.ending.code = 0 ∧ ∃ base kept, Artifacts.manifestPage s = .ok kept ∧
      (plainCall.answer w).2.tree = Tree.withOut
        (Tree.putFile ["out", secretKeysFile] (.ofText kept)
        (Tree.putFile ["out", Pass.baseFile] base files)) := by
  have hdescriptor : Loading.descriptor w.tree plainArguments.descriptor = .ok { name := "r" } := by
    rw [Loading.descriptor, plainArguments, Loading.document_of_page hprinted hread hfile]
    rfl
  have hinputs : Call.inputs w.tree [] plainArguments = .ok ({}, plainRequest loaded) := by
    have hsettings : Settings.load w.tree plainArguments.settings [] = .ok {} := rfl
    rw [Call.inputs, hsettings, hdescriptor, hload]
    rfl
  have htree : Value.IsTree (.map (plainRequest loaded).config) := ⟨List.nodup_nil, trivial⟩
  obtain ⟨base, s', hrun⟩ : ∃ base s', (Pass.run {} Pass.noon (plainRequest loaded)).perform
      { w.session with log := [] } = (.ok (Pass.start keys base), s') :=
    Pass.run_unrendered htree rfl rfl (fun _ _ => ⟨_, rfl⟩) hkeys
  have hmake : (Call.make plainCall.around w.tree plainArguments).perform
    { w.session with log := [] } =
      (.ok (Pass.start keys base), s') := by
    rw [Call.make]
    exact Action.perform_ofExcept_bind_ok.mpr ⟨_, hinputs, hrun⟩
  obtain ⟨kept, hkept, -⟩ := Artifacts.manifestPage_ok hs
  have hfiles : (Pass.start keys base).files = [([Pass.baseFile], .ofText base)] := rfl
  have hwrite := Artifacts.write_withOut hdirectory hfiles hsnapshot hkept
  obtain ⟨hcode, hafter⟩ := Call.answer_of_ok ofTexts_plainCall rfl hmake hwrite
  refine ⟨hcode, .ofText base, kept, hkept, ?_⟩
  rw [Invocation.answer, hafter]

theorem Tree.lookup_withOut {files : List (Place × Content)} {place : Place} {name : String}
    (hname : name ≠ "..")
    {c : Content} (h : files.find? (fun f => f.1 == ["out", name]) = some (place, c)) :
    (withOut files).lookup ⟨false, ["out", name]⟩ = .ok (.file c) := by
  simp [withOut, lookup, resolve, walk, occupant?, hname, h]

/-- A workplace with the file of a registry and nothing else. -/
def Workplace.withRegistry (page : String) : Workplace :=
  ⟨{ files := [(["r.yaml"], .ofText page)] }, .fresh⟩

namespace Workplace

private theorem holdsKeys_withRegistry (page : String) :
    (withRegistry page).HoldsKeys (FilePath.child ⟨false, ["out"]⟩ secretKeysFile) none := by
  simp [withRegistry, HoldsKeys, FilePath.place, FilePath.child, secretKeysFile, Tree.destination,
    Tree.content?, Tree.occupant?]

/-- Two such calls end well: the first makes both keys, the second finds them. -/
private theorem allEndWell_withRegistry {page : String} (hprinted : Yaml.Printed page.toList)
    (hread : Yaml.read page = .ok (.map [(.str "name", .str "r")])) :
    (withRegistry page).AllEndWell [plainCall, plainCall] := by
  obtain ⟨keys, t, hkeys⟩ : ∃ keys t,
    (SecretKey.resolvePair { name := "r" } SecretKey.usualLength []
      none).perform { (withRegistry page).session with log := [] } = (.ok keys, t) := ⟨_, _, rfl⟩
  obtain ⟨-, -, hfound⟩ := SecretKey.resolvePair_ok (by decide) hkeys
  obtain ⟨s, hsnapshot, -⟩ := hfound .secret rfl
  have hs : s.Textual := Snapshot.textual_of_resolvePair hkeys (fun _ h => absurd h (by simp)) s
    hsnapshot
  have hfile : (withRegistry page).tree.lookup ⟨false, ["r.yaml"]⟩ =
      .ok (.file (.ofText page)) := by
    simp [withRegistry, Tree.lookup, Tree.resolve, Tree.walk, Tree.occupant?]
  have hload : Loading.secretKeys (withRegistry page).tree plainArguments.secretKeys =
      .ok none := by
    have hpath : (withRegistry page).tree.hasPath (FilePath.child ⟨false, ["out"]⟩ secretKeysFile) =
        false := by
      simp [withRegistry, FilePath.child, Tree.hasPath, Tree.lookup, Tree.resolve, Tree.walk,
        Tree.occupant?]
    rw [Loading.secretKeys, plainArguments, Loading.secretKeysOver, hpath]
    rfl
  obtain ⟨hfirst, base, kept, hkept, hafter⟩ := plainCall_answer hprinted hread hfile
    (Tree.ensureDirectory_registryFile _) hload hkeys hsnapshot hs
  have hsecond : (plainCall.answer (plainCall.answer (withRegistry page)).2).1.ending.code = 0 := by
    have hboth : ∀ k : ManagedKey, ∃ key, s.sorted.lookup k.name = .ok (some key) := fun k => by
      obtain ⟨u, hu, hkey⟩ := hfound k rfl
      obtain rfl : s = u := Option.some.inj (hsnapshot.symm.trans hu)
      exact ⟨_, by rw [(Snapshot.same_sorted s).lookup, hkey]⟩
    have habsent : ∀ k : ManagedKey, Value.get? ([] : Entries) k.name = none := fun _ => rfl
    obtain ⟨again, t', hagain, hsame⟩ :=
      SecretKey.resolvePair_of_found (d := { name := "r" }) habsent hboth
      { (plainCall.answer (withRegistry page)).2.session with log := [] }
    have hfile' : (plainCall.answer (withRegistry page)).2.tree.lookup ⟨false, ["r.yaml"]⟩ =
        .ok (.file (.ofText page)) := by
      rw [hafter]
      simp [Tree.withOut, Tree.lookup, Tree.resolve, Tree.walk, Tree.occupant?, Tree.putFile]
    have hkeys' : (plainCall.answer (withRegistry page)).2.tree.lookup
        (FilePath.child ⟨false, ["out"]⟩ secretKeysFile) = .ok (.file (.ofText kept)) := by
      rw [hafter]
      exact Tree.lookup_withOut (by decide) (Tree.find?_putFile_self _ _ _)
    exact (plainCall_answer hprinted hread hfile'
      (by rw [hafter]; exact Tree.ensureDirectory_withOut _)
      (Loading.secretKeys_of_page hs hkept hkeys') hagain hsame hs.sorted).1
  rintro (_ | ⟨x, _ | ⟨y, before⟩⟩) i after h
  · obtain ⟨rfl, -⟩ := List.cons.inj h
    exact hfirst
  · obtain ⟨rfl, hrest⟩ := List.cons.inj h
    obtain ⟨rfl, -⟩ := List.cons.inj hrest
    exact hsecond
  · simp at h

/-! ## Calls and passes -/

/-- **Calls refine passes in memory.** Calls that keep the secret keys in their output directory,
where there is no file of them at first, and that all end well: each call writes just what is made
by the pass over its inputs in a series of passes that hand the snapshot on in memory, with the same
random octets, and the file of the secret keys holds the snapshot of that pass. Any snapshot of
texts is loaded again from its page. -/
theorem calls_refine_passes {directory : FilePath} {w : Workplace} {calls : List Invocation}
    (hkeeps : ∀ i ∈ calls, i.KeepsKeysIn directory)
    (habsent : w.HoldsKeys (directory.child secretKeysFile) none)
    (hwell : w.AllEndWell calls) :
    (∀ before i after, calls = before ++ i :: after →
      ∃ o made s paths, i.order? (w.afterAll before).tree = some o ∧
        (Pass.Standing.afterAll ⟨w.session, none⟩ (w.orders before)).perform o = (.ok made, s) ∧
        (i.answer (w.afterAll before)).1.ending = .written paths ∧
        made.write directory (w.afterAll before).tree =
          (.ok paths, (i.answer (w.afterAll before)).2.tree) ∧
        (i.answer (w.afterAll before)).2.session = s ∧
        (i.answer (w.afterAll before)).2.HoldsKeys (directory.child secretKeysFile) made.snapshot) ∧
      ∀ s : Snapshot, s.Textual → ∃ page, Artifacts.manifestPage s = .ok page ∧
        ∀ (t : Tree) (p : FilePath), t.lookup p = .ok (.file (.ofText page)) →
          ∃ loaded, Loading.secretKeys t (some p) = .ok (some loaded) ∧ s.Same loaded := by
  refine ⟨?_, fun s hs => ?_⟩
  · intro before i after heq
    subst heq
    have hstart : w.Follows directory ⟨w.session, none⟩ :=
      ⟨rfl, fun _ hs => absurd hs (by simp), habsent⟩
    have hbefore := follows_afterAll (fun j hj => hkeeps j (List.mem_append_left _ hj))
      hwell.of_append hstart
    obtain ⟨o, made, s, paths, horder, hperform, hending, hsession, hwritten, hnext⟩ :=
      i.answer_follows (hkeeps i (by simp)) hbefore (hwell before i after rfl)
    have hholds := hnext.holdsKeys
    rw [Pass.Standing.after, hperform] at hholds
    exact ⟨o, made, s, paths, horder, hperform, hending, hwritten, hsession, hholds⟩
  · obtain ⟨page, hpage, -⟩ := Artifacts.manifestPage_ok hs
    exact ⟨page, hpage, fun t p hfile =>
      ⟨s.sorted, Loading.secretKeys_of_page hs hpage hfile, Snapshot.same_sorted s⟩⟩

/-- The second of two such calls refines a pass over the snapshot that the first one made. -/
theorem calls_refine_passes_twice :
    ∃ (w : Workplace) (o : Pass.Order) (made : Artifacts) (s : Session) (paths : List FilePath),
      w.AllEndWell [plainCall, plainCall] ∧
        plainCall.order? (w.afterAll [plainCall]).tree = some o ∧
      (Pass.Standing.afterAll ⟨w.session, none⟩ (w.orders [plainCall])).perform o = (.ok made, s) ∧
      made.write ⟨false, ["out"]⟩ (w.afterAll [plainCall]).tree =
        (.ok paths, (w.afterAll [plainCall, plainCall]).tree) := by
  have htree : Value.IsTree (.map [(.str "name", .str "r")]) :=
    ⟨by simp, ⟨"name", rfl, by decide⟩, trivial, trivial⟩
  obtain ⟨page, -, hprinted, hread⟩ := Yaml.read_write_of_height htree (by simp) (by decide)
  have hwell := allEndWell_withRegistry hprinted hread
  have hall : ∀ i ∈ [plainCall, plainCall], i.KeepsKeysIn ⟨false, ["out"]⟩ := by
    intro i hi
    obtain rfl : i = plainCall := by simpa using hi
    exact ⟨plainArguments, ofTexts_plainCall, rfl, rfl⟩
  obtain ⟨hcalls, -⟩ := Workplace.calls_refine_passes hall (holdsKeys_withRegistry page) hwell
  obtain ⟨o, made, s, paths, horder, hperform, -, hwrite, -⟩ := hcalls [plainCall] plainCall [] rfl
  exact ⟨_, o, made, s, paths, hwell, horder, hperform, hwrite⟩

end Workplace

end RegistryBundle
