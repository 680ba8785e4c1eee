import TrustedRoot.CommandLine.Program
import TrustedRoot.Proofs.CommandLine.Steps
import TrustedRoot.Proofs.CommandLine.Tone
import TrustedRoot.Volume

namespace TrustedRoot

/-- Surroundings that are the same but for the variable that sets the verbosity. -/
structure Environment.SameButVerbosity (e e' : Environment) : Prop where
  home : e.home = e'.home
  workingDirectory : e.workingDirectory = e'.workingDirectory
  setting? : ∀ name, name ≠ Verbosity.settingVariable → e.setting? name = e'.setting? name

variable {e e' : Environment}

/-- The variables that do not set the tone have the same texts. -/
theorem Environment.SameButVerbosity.text? (hsame : e.SameButVerbosity e') (name : String)
    (hname : name ≠ Verbosity.settingVariable) : e.text? name = e'.text? name := by
  rw [Environment.text?, Environment.text?, hsame.setting? name hname]

namespace Config

variable {m : Type → Type} [Monad m] (host : Host m)

private theorem applyVariables_sameButVerbosity (hsame : e.SameButVerbosity e') (config : Config) :
    applyVariables e config = applyVariables e' config := by
  have hroot := hsame.text? rootVariable (by decide)
  have hdefault := hsame.text? defaultRootVariable (by decide)
  have hroots := hsame.text? rootsVariable (by decide)
  simp only [applyVariables, applyVariable, hroot, hdefault, hroots]

private theorem fileLayer_sameButVerbosity (hsame : e.SameButVerbosity e') (plan : Plan) :
    fileLayer host e plan = fileLayer host e' plan := by
  have huser (directory : Option Path) : userPath e directory = userPath e' directory := by
    simp only [userPath, hsame.home]
  simp only [fileLayer, loadAll, loadUser, huser, hsame.workingDirectory]

/-- The same configuration is assembled, whatever sets the tone. -/
theorem assemble_sameButVerbosity (hsame : e.SameButVerbosity e') (plan : Plan) :
    assemble host e plan = assemble host e' plan := by
  simp only [assemble, withVariables, applyVariables_sameButVerbosity hsame,
    fileLayer_sameButVerbosity host hsame, hsame.home]

end Config

namespace CommandLine

section
variable {m : Type → Type} [Monad m] (host : Host m) (wording : Wording)

/-- No command looks at the variable that sets the verbosity. -/
theorem Command.run_sameButVerbosity (hsame : e.SameButVerbosity e') (directory : Option Path)
    (command : Command) : command.run host wording e directory =
      command.run host wording e' directory := by
  have hload : loadConfig host e directory = loadConfig host e' directory := by
    rw [loadConfig, loadConfig, Config.assemble_sameButVerbosity host hsame]
  have hroots (config : Config) (names : List String) :
      (printRoots e config names : Session Failure m Unit) = printRoots e' config names := by
    induction names with
    | nil => rfl
    | cons name rest ih => simp only [printRoots, hsame.home, ih]
  cases command with
  | join selection json paths | check selection path =>
    simp only [Command.run, chooseRoot, hload, hsame.home]
  | roots => simp only [Command.run, listRoots, hload, hroots]
  | validate file => simp only [Command.run, validateFile, hsame.home]
  | completions shell => rfl

end

/-- The tone of a run that is told to be quiet and not to be verbose. -/
def hushed : Tone := ⟨true, .quiet⟩

/-- Nothing that a session puts out is heard in a hushed tone but its output. -/
theorem errorText_hushed (notice : Notice) : notice.errorText hushed = "" := by
  cases notice with
  | output text | remark text => rfl
  | message severity text => cases severity <;> rfl
  | record r =>
    obtain ⟨severity, text⟩ := r
    cases severity <;> rfl

private theorem remark_hushed (text : String) : hushed.remark text = "" := rfl

/-- A report in a hushed tone has no errors, not even that for a failure. -/
theorem errors_report_hushed (result : Except Failure Unit) (notices : List Notice) :
    (report hushed result notices).errors = "" := by
  have hnotices : String.join (notices.map (·.errorText hushed)) = "" := by
    induction notices with
    | nil => rfl
    | cons notice rest ih =>
      rw [List.map_cons, String.join_cons, ih, errorText_hushed, String.append_empty]
  cases result <;> simp [report, hnotices, remark_hushed]

/-- Verbosity never changes the answer. Two runs whose command lines are the same
but for the words that set the tone, in surroundings that are the same but for
the variable that sets it, write the same output and end with the same code; one
that is told to be quiet and not to be verbose writes nothing else. This holds
whatever the scripts for the shells are. -/
theorem answer_independent_of_verbosity (host : Host Id) (wording : Wording)
    (hsame : e.SameButVerbosity e') {words words' : List Bytes}
    (hwords : withoutTone words = withoutTone words')
    {invocation invocation' : Invocation}
    (hread : Invocation.read (e.setting? configVariable) words = .ok invocation)
    (hread' : Invocation.read (e'.setting? configVariable) words' = .ok invocation') :
    (runProgram host wording e words).run.output = (runProgram host wording e' words').run.output ∧
      (runProgram host wording e words).run.exitCode =
        (runProgram host wording e' words').run.exitCode ∧
      (Switch.quiet.IsIn words → ¬ Switch.verbose.IsIn words →
        (runProgram host wording e words).run.errors = "") := by
  -- Without the words for the tone both command lines ask for the same.
  have hplain := read_withoutTone hread
  have hplain' := read_withoutTone hread'
  rw [← hwords, ← hsame.setting? configVariable (by decide), hplain] at hplain'
  injection hplain' with hplain'
  injection hplain' with _ _ hdirectory hcommand
  have hrun : runProgram host wording e words = invocation.run host wording e := by
    rw [runProgram, hread]
  have hrun' : runProgram host wording e' words' = invocation'.run host wording e' := by
    rw [runProgram, hread']
  have hsession : invocation.command.run host wording e invocation.configDirectory =
      invocation'.command.run host wording e' invocation'.configDirectory := by
    rw [hdirectory, hcommand]
    exact Command.run_sameButVerbosity host wording hsame _ _
  rw [hrun, hrun', Invocation.run, Invocation.run, hsession]
  refine ⟨rfl, rfl, fun hquiet hverbose => ?_⟩
  obtain ⟨hasked, hhushed⟩ := isOn_of_read hread
  have htone : invocation.tone e = hushed := by
    have hloud : invocation.verbose = false := by simpa using hasked.not.mpr hverbose
    simp [Invocation.tone, Verbosity.choose, hhushed.mpr hquiet, hloud, hushed]
  rw [htone]
  exact errors_report_hushed _ _

/-- An environment in which the variable asks for every message. -/
def talkative : Environment :=
  { bare with setting? := fun name =>
      if name = Verbosity.settingVariable then some (Utf8.encode "verbose") else none }

/-- Quiet in front of the command, or verbose behind it and in the variable. -/
theorem answer_of_check_quiet_verbose :
    let words := ["--quiet", "check", "--root", "/jail", "a"].map Utf8.encode
    let words' := ["check", "--root", "/jail", "--verbose", "a"].map Utf8.encode
    let run := (runProgram Volume.empty.host wordless bare words).run
    let run' := (runProgram Volume.empty.host wordless talkative words').run
    run.output = run'.output ∧ run.exitCode = run'.exitCode ∧ run.errors = "" := by
  intro words words' run run'
  have hsame : bare.SameButVerbosity talkative := by
    refine ⟨rfl, rfl, fun name hname => ?_⟩
    simp [bare, talkative, hname]
  let command := Command.check ⟨some (.ofString "/jail"), none⟩ (.ofString "a")
  have hread : Invocation.read (bare.setting? configVariable) words =
      .ok ⟨false, true, none, command⟩ := by decide
  have hread' : Invocation.read (talkative.setting? configVariable) words' =
      .ok ⟨true, false, none, command⟩ := by decide
  obtain ⟨houtput, hcode, herrors⟩ :=
    answer_independent_of_verbosity Volume.empty.host wordless hsame (by decide) hread hread'
  exact ⟨houtput, hcode, herrors (by decide) (by decide)⟩

end CommandLine
end TrustedRoot
