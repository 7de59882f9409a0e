import RegistryBundle.Proofs.CommandLine.Untouched
import RegistryBundle.Proofs.Loading

/-!
# Exit codes of calls whose inputs do not load

A call whose settings are in order and one of whose input files does not load ends with the exit
code of the first failure. That is 2 for a fault of the configuration, and each of the three files
has such faults only, if it decodes and the registry in it is well typed.

* `Call.code_of_inputs_error` is the exit code of a failure;
* `Call.SoundInputs` are the files that fail, if at all, for a fault of the configuration
  (`Call.onlyConfig_inputs`);
* `Call.loading_faults` is the main statement.
-/

namespace RegistryBundle.Call

variable {around : Surroundings} {texts : List String} {a : Arguments} {w : Workplace} {t : Tree}
  {threshold : Nat}
  {settings : Settings} {f : Failure}

/-- **A call whose inputs fail** ends for that reason. -/
theorem code_of_inputs_error (ha : Arguments.ofTexts texts = .run a)
    (hlevel : Level.threshold a.logLevel = .ok threshold)
    (hinputs : inputs w.tree around.environment a = .error f) :
    (answer around texts w).1.ending.code = if f.isConfiguration then 2 else 1 := by
  have hmake : ((make around w.tree a).perform { w.session with log := [] }).1 = .error f := by
    rw [make, hinputs]
    rfl
  obtain ⟨hperform, -⟩ := perform_of_error (w := { w with session := { w.session with log := [] } })
    hmake
  rw [answer, ha]
  simp only [run, hlevel, hperform]
  rfl

/-- The input files of a call fail, if at all, for a fault of the configuration. -/
structure SoundInputs (t : Tree) (a : Arguments) : Prop where
  descriptor : Loading.Describes t a.descriptor
  config : ∀ p, a.config = some p → Loading.Decodes t p
  secretKeys : ∀ p, a.secretKeys = some p → Loading.Decodes t p

/-- One of the input files of a call does not load. -/
def Unloadable (t : Tree) (a : Arguments) : Prop :=
  (∃ f, Loading.descriptor t a.descriptor = .error f) ∨
    (∃ f, Loading.userConfig t a.config = .error f) ∨
    ∃ f, Loading.secretKeys t a.secretKeys = .error f

/-- Then the call has no inputs. -/
theorem Unloadable.inputs_error (h : Unloadable t a) (environment : Table String) :
    ∃ f, inputs t environment a = .error f := by
  cases hinputs : inputs t environment a with
  | error f => exact ⟨f, rfl⟩
  | ok pair =>
      have hloads : Loads ⟨environment, Pass.noon⟩ a t pair.1 pair.2 := inputs_eq_ok_iff.mp hinputs
      rcases h with ⟨f, hf⟩ | ⟨f, hf⟩ | ⟨f, hf⟩
      · exact nomatch hf.symm.trans hloads.descriptor
      · exact nomatch hf.symm.trans hloads.config
      · exact nomatch hf.symm.trans hloads.snapshot

/-- Files that fail only for such faults make inputs that do, once the settings are loaded. -/
theorem onlyConfig_inputs (h : SoundInputs t a) {environment : Table String}
    (hsettings : Settings.load t a.settings environment = .ok settings) :
      OnlyConfig (inputs t environment a) := by
  rw [inputs, hsettings, Outcome.ok_bind]
  refine ((Loading.onlyConfig_descriptor_iff t a.descriptor).mpr h.descriptor).bind fun d => ?_
  refine ((Loading.onlyConfig_userConfig_iff t a.config).mpr h.config).bind fun config => ?_
  refine ((Loading.onlyConfig_secretKeys_iff t a.secretKeys).mpr h.secretKeys).bind fun snapshot =>
    ?_
  split <;> exact .ok _

/-- **What does not load is a fault of the configuration** exactly in these cases: of the
registry's file, if it decodes and what it holds is well typed; of the other two files, if
they decode. If that is so of all three, a call with settings that load ends with exit code 2
where one of them does not. -/
theorem loading_faults (t : Tree) (a : Arguments) :
    (OnlyConfig (Loading.descriptor t a.descriptor) ↔ Loading.Describes t a.descriptor) ∧
      (OnlyConfig (Loading.userConfig t a.config) ↔ ∀ p, a.config = some p → Loading.Decodes t p) ∧
      (OnlyConfig (Loading.secretKeys t a.secretKeys) ↔ ∀ p, a.secretKeys = some p →
        Loading.Decodes t p) ∧
      ∀ (around : Surroundings) (texts : List String) (session : Session) (threshold : Nat)
        (settings : Settings), Arguments.ofTexts texts = .run a →
        Level.threshold a.logLevel = .ok threshold →
        Settings.load t a.settings around.environment = .ok settings → Unloadable t a →
        SoundInputs t a → (answer around texts ⟨t, session⟩).1.ending.code = 2 := by
  refine ⟨Loading.onlyConfig_descriptor_iff t a.descriptor,
    Loading.onlyConfig_userConfig_iff t a.config, Loading.onlyConfig_secretKeys_iff t a.secretKeys,
    ?_⟩
  intro around texts session threshold settings ha hlevel hsettings hunloadable hsound
  obtain ⟨f, hinputs⟩ := hunloadable.inputs_error around.environment
  obtain ⟨fault, rfl⟩ := onlyConfig_inputs hsound hsettings f hinputs
  exact code_of_inputs_error (w := ⟨t, session⟩) ha hlevel hinputs

/-- A call for the registry of a file. -/
def bareTexts : List String :=
  ["--descriptor", "r.yaml", "--output-dir", "o"]

/-- Its arguments. -/
def bareArguments : Arguments :=
  { descriptor := ⟨false, ["r.yaml"]⟩, outputDir := ⟨false, ["o"]⟩ }

private theorem ofTexts_bareTexts : Arguments.ofTexts bareTexts = .run bareArguments := by
  decide +kernel

/-- A tree with a file of an opening bracket, which is no document. -/
def unclosed : Tree :=
  { files := [(["r.yaml"], .octets ⟨#[0x5b]⟩)] }

/-- The bracket is not in the format. -/
private theorem read_unclosed : ∃ layer, Yaml.read "[" = .error (.malformed layer) := by
  have htokens : Yaml.Token.ofText "[".toList = [.flowSequence] := by decide +kernel
  have hnode : Yaml.Node.ofText (A := .characters) .older "[".toList =
      .error (.malformed .grammar) := by
    rw [Yaml.Node.ofText, htokens]
    rfl
  exact ⟨.grammar, by rw [Yaml.read, Yaml.readAs, Yaml.readOver, hnode]; rfl⟩

/-- **With a file that is no document** the call ends with exit code 2. -/
theorem loading_faults_unclosed :
    Unloadable unclosed bareArguments ∧ SoundInputs unclosed bareArguments ∧
      (answer ⟨[], Pass.noon⟩ bareTexts ⟨unclosed, .fresh⟩).1.ending.code = 2 := by
  obtain ⟨layer, hread⟩ := read_unclosed
  have hbytes : unclosed.read bareArguments.descriptor = .ok ⟨#[0x5b]⟩ := rfl
  have htext : FileText.ofBytes? ⟨#[0x5b]⟩ = some "[" := rfl
  have hdocument : ∃ f, Loading.document unclosed bareArguments.descriptor = .error f := by
    have hover : Yaml.readOver .characters .older "[" = .error (.malformed layer) := hread
    rw [Loading.document, Loading.documentOver, hbytes]
    simp only [htext, hover]
    exact ⟨_, rfl⟩
  have hdecodes : Loading.Decodes unclosed bareArguments.descriptor := by
    intro bytes hb
    obtain rfl := Except.ok.inj (hbytes.symm.trans hb)
    exact ⟨"[", htext, fun fault hfault => ⟨layer, Except.error.inj (hfault.symm.trans hread)⟩⟩
  obtain ⟨f, hf⟩ := hdocument
  have hunloadable : Unloadable unclosed bareArguments :=
    .inl ⟨f, by rw [Loading.descriptor, hf]; rfl⟩
  have hsound : SoundInputs unclosed bareArguments :=
    ⟨⟨hdecodes, fun _ _ h => absurd (hf.symm.trans h) (by simp)⟩,
      fun _ h => absurd h (by simp [bareArguments]), fun _ h => absurd h (by simp [bareArguments])⟩
  obtain ⟨-, -, -, hcode⟩ := loading_faults unclosed bareArguments
  exact ⟨hunloadable, hsound,
    hcode ⟨[], Pass.noon⟩ bareTexts .fresh _ {} ofTexts_bareTexts rfl rfl hunloadable hsound⟩

/-- A tree with a file of one octet, which encodes no text. -/
def undecodable : Tree :=
  { files := [(["r.yaml"], .octets ⟨#[0xff]⟩)] }

/-- **With that file** it ends with exit code 1. -/
theorem crash_on_undecodable :
    Loading.descriptor undecodable ⟨false, ["r.yaml"]⟩ = .error (.breach .encoding) ∧
      ¬ OnlyConfig (Loading.descriptor undecodable ⟨false, ["r.yaml"]⟩) ∧
      (answer ⟨[], Pass.noon⟩ bareTexts ⟨undecodable, .fresh⟩).1.ending.code = 1 := by
  have hdescriptor : Loading.descriptor undecodable ⟨false, ["r.yaml"]⟩ =
    .error (.breach .encoding) := rfl
  have hinputs : inputs undecodable (⟨[], Pass.noon⟩ : Surroundings).environment bareArguments =
      .error (.breach .encoding) := rfl
  refine ⟨hdescriptor, ?_, code_of_inputs_error (w := ⟨undecodable, .fresh⟩) ofTexts_bareTexts
    rfl hinputs⟩
  rw [hdescriptor, OnlyConfig.error_iff]
  exact fun ⟨_, h⟩ => nomatch h

end RegistryBundle.Call
