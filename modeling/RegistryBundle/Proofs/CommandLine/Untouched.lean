import RegistryBundle.Proofs.CommandLine.Calls
import RegistryBundle.Proofs.Output.Failures

/-!
# Calls that change no file

A call touches the file tree only to write what its pass made. By then its settings and its input
files are loaded, and whatever ends the writing after that is no fault of the configuration, so that
a call with the exit code of such a fault leaves the tree as it was.

* `Call.Loads` says that the settings and the three input files of a call are loaded
  (`Call.inputs_eq_ok_iff`);
* `Call.perform_cases` tells a call that changes nothing from one that writes what its pass made;
* `Call.tree_of_answer` is the main statement.
-/

namespace RegistryBundle.Call

variable {around : Surroundings} {a : Arguments} {w : Workplace} {settings : Settings}
  {r : Pass.Request}

/-- The request of a call over what its input files hold. -/
def requestOf (a : Arguments) (d : Descriptor) (config : Entries) (snapshot : Option Snapshot) :
    Pass.Request :=
  let r : Pass.Request :=
    { descriptor := d, config := config, snapshot := snapshot
      issueCertificate := a.issueCertificate }
  if a.components.isEmpty then r else { r with components := a.components.map .str }

/-- The settings of a call and its three input files are loaded, and make a request. -/
structure Loads (around : Surroundings) (a : Arguments) (t : Tree) (settings : Settings)
    (r : Pass.Request) : Prop where
  settings : Settings.load t a.settings around.environment = .ok settings
  descriptor : Loading.descriptor t a.descriptor = .ok r.descriptor
  config : Loading.userConfig t a.config = .ok r.config
  snapshot : Loading.secretKeys t a.secretKeys = .ok r.snapshot
  request : r = requestOf a r.descriptor r.config r.snapshot

/-- A call has inputs exactly if all of them are loaded. -/
theorem inputs_eq_ok_iff {t : Tree} :
    inputs t around.environment a = .ok (settings, r) ↔ Loads around a t settings r := by
  have hinputs : inputs t around.environment a = (do
      let settings ← Settings.load t a.settings around.environment
      let d ← Loading.descriptor t a.descriptor
      let config ← Loading.userConfig t a.config
      let snapshot ← Loading.secretKeys t a.secretKeys
      return (settings, requestOf a d config snapshot)) := by
    unfold inputs requestOf
    split <;> rfl
  have hfields : ∀ d config snapshot, (requestOf a d config snapshot).descriptor = d ∧
      (requestOf a d config snapshot).config = config ∧
        (requestOf a d config snapshot).snapshot = snapshot := by
    intro d config snapshot
    unfold requestOf
    split <;> exact ⟨rfl, rfl, rfl⟩
  rw [hinputs]
  constructor
  · intro h
    obtain ⟨settings', hsettings, h⟩ := Outcome.bind_eq_ok.mp h
    obtain ⟨d, hdescriptor, h⟩ := Outcome.bind_eq_ok.mp h
    obtain ⟨config, hconfig, h⟩ := Outcome.bind_eq_ok.mp h
    obtain ⟨snapshot, hsnapshot, h⟩ := Outcome.bind_eq_ok.mp h
    obtain ⟨rfl, rfl⟩ := Prod.mk.inj (Except.ok.inj h)
    obtain ⟨hd, hc, hs⟩ := hfields d config snapshot
    exact ⟨hsettings, by rw [hd, hdescriptor], by rw [hc, hconfig], by rw [hs, hsnapshot], by
      rw [hd, hc, hs]⟩
  · intro h
    rw [h.settings, h.descriptor, h.config, h.snapshot]
    simp only [Outcome.ok_bind, ← h.request, Outcome.pure_eq_ok]

/-- A call makes artifacts: its inputs are loaded, and its pass succeeds. -/
def Makes (around : Surroundings) (a : Arguments) (w : Workplace) (made : Artifacts) : Prop :=
  ∃ settings r s, Loads around a w.tree settings r ∧
    (Pass.run settings around.now r).perform { w.session with log := [] } = (.ok made, s)

/-- **A call that is performed** changes no file, or it writes what its pass made. -/
theorem perform_cases (around : Surroundings) (a : Arguments) (w : Workplace) :
    (perform around a w).2.tree = w.tree ∨
      ∃ made s, (make around w.tree a).perform w.session = (.ok made, s) ∧
        (perform around a w).1 = (made.write a.outputDir w.tree).1 ∧
        (perform around a w).2.tree = (made.write a.outputDir w.tree).2 := by
  rw [perform]
  generalize (make around w.tree a).perform w.session = result
  obtain ⟨_ | made, s⟩ := result
  · exact .inl rfl
  · exact .inr ⟨made, s, rfl, rfl, rfl⟩

/-- Exit code 2 is that of a failure, which lies in what the operator provides. -/
theorem isConfiguration_of_code_ending {result : Except Failure (List FilePath)}
    (h : (ending result).code = 2) :
    ∃ f, result = .error f ∧ f.isConfiguration = true := by
  cases result with
  | ok paths => exact absurd h (Nat.ne_of_lt Nat.zero_lt_two)
  | error f =>
      cases hf : f.isConfiguration with
      | true => exact ⟨f, rfl, hf⟩
      | false =>
          rw [ending, Ending.code, hf] at h
          exact absurd h (by decide)

/-- A call with any arguments changes no file, or it writes what its pass made and
has the exit code of that. -/
theorem answer_cases (around : Surroundings) (texts : List String) (w : Workplace) :
    (answer around texts w).2.tree = w.tree ∨
      ∃ a made, Arguments.ofTexts texts = .run a ∧ Makes around a w made ∧
        (answer around texts w).1.ending = ending (made.write a.outputDir w.tree).1 ∧
        (answer around texts w).2.tree = (made.write a.outputDir w.tree).2 := by
  rw [answer]
  cases ha : Arguments.ofTexts texts with
  | help => exact .inl rfl
  | misuse m => exact .inl rfl
  | run a =>
      simp only [run]
      cases Level.threshold a.logLevel with
      | error f => exact .inl rfl
      | ok threshold =>
          obtain hsame | ⟨made, s, hmade, hresult, htree⟩ :=
            perform_cases around a { w with session := { w.session with log := [] } }
          · exact .inl hsame
          · obtain ⟨settings, r, hinputs, hrun⟩ := make_ok hmade
            refine .inr ⟨a, made, rfl, ⟨settings, r, s, inputs_eq_ok_iff.mp hinputs, hrun⟩, ?_,
              htree⟩
            exact congrArg ending hresult

/-- **A call with exit code 2 changes no file and no directory.** Any other call changes them only
to write what its pass made, after its settings and its three input files were loaded and the pass
succeeded; so a call for which one of these fails leaves the tree as it was. -/
theorem tree_of_answer (around : Surroundings) (texts : List String) (w : Workplace) :
    ((answer around texts w).1.ending.code = 2 → (answer around texts w).2.tree = w.tree) ∧
      ((answer around texts w).2.tree ≠ w.tree →
        ∃ a made, Arguments.ofTexts texts = .run a ∧ Makes around a w made ∧
          (answer around texts w).2.tree = (made.write a.outputDir w.tree).2) := by
  obtain hsame | ⟨a, made, ha, hmakes, hending, htree⟩ := answer_cases around texts w
  · exact ⟨fun _ => hsame, fun hne => absurd hsame hne⟩
  · refine ⟨fun hcode => ?_, fun _ => ⟨a, made, ha, hmakes, htree⟩⟩
    rw [hending] at hcode
    obtain ⟨f, hwrite, hconfiguration⟩ := isConfiguration_of_code_ending hcode
    rw [Artifacts.isConfiguration_of_write_error hwrite] at hconfiguration
    exact absurd hconfiguration Bool.false_ne_true

end RegistryBundle.Call
