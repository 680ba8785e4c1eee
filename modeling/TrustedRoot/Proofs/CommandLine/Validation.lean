import TrustedRoot.CommandLine.Program
import TrustedRoot.Proofs.CommandLine.Steps
import TrustedRoot.Proofs.Config.Layers
import TrustedRoot.Volume

namespace TrustedRoot

open Session

namespace Config

/-- The plan that goes by files only, that of the user in a given directory. -/
def filesOnly (workingDirectory : Option Path) (directory : Path) : Plan :=
  ⟨workingDirectory, some directory, false, true, none⟩

/-- The search finds no project if none of the directories on the way up has the file. -/
theorem nearestProject?_eq_none {host : Host Id} {directory : Path}
    (hnone : ∀ above ∈ directory.ancestors, (host.isFile (above.join projectFile)).run = false) :
    nearestProject? host directory = none := by
  induction directory using nearestProject?.induct host with
  | case1 directory path hfile =>
    have hself := hnone directory (by rw [Path.ancestors_eq_cons]; exact List.mem_cons_self)
    exact absurd (hself.symm.trans hfile) Bool.false_ne_true
  | case2 directory path hfile htop => rw [nearestProject?_eq, if_neg hfile, htop, Option.bind_none]
  | case3 directory path hfile above hparent ih =>
    rw [nearestProject?_eq, if_neg hfile, hparent, Option.bind_some]
    refine ih fun q hq => hnone q ?_
    rw [Path.ancestors_eq_cons, hparent]
    exact List.mem_cons_of_mem _ hq

variable {host : Host Id} {environment : Environment} {workingDirectory : Option Path}
  {directory start : Path}

/-- With nothing but the user's file to go by, assembling is reading that file and
putting it to the rules. -/
theorem result_assemble_filesOnly
    (hpresent : (host.isPresent (directory.join userFile)).run = true)
    (hstart : (filesOnly workingDirectory directory).start environment = .ok start)
    (hproject : ∀ above ∈ start.ancestors, (host.isFile (above.join projectFile)).run = false) :
    (assemble host environment (filesOnly workingDirectory directory)).start.run.1 = (do
      let config ← ofContents (directory.join userFile) (host.read (directory.join userFile)).run
      (config.validate environment.home).map fun _ => config) := by
  have huser : userLayer host environment (filesOnly workingDirectory directory) =
      ofContents (directory.join userFile) (host.read (directory.join userFile)).run := by
    simp [userLayer, filesOnly, userPath, hpresent]
  have hnone : projectLayer host environment (filesOnly workingDirectory directory) = .ok empty := by
    change (filesOnly workingDirectory directory).start environment >>= _ = _
    rw [hstart, ok_bind, nearestProject?_eq_none hproject]
  have hsettings : variableLayer environment (filesOnly workingDirectory directory) =
      .ok empty.layer :=
    rfl
  rcases result_assemble_cases host environment (filesOnly workingDirectory directory) with
    ⟨user, project, settings, config, hread, hfound, hset, hlayered, houtcome⟩ | ⟨e, hread, houtcome⟩
  · rw [huser] at hread
    obtain rfl := Except.ok.inj (hnone.symm.trans hfound)
    obtain rfl := Except.ok.inj (hsettings.symm.trans hset)
    -- The file says nothing of the overriding root, so it answers to the layers by itself.
    have hself : Layered empty.layer empty.layer empty.layer user.layer user :=
      layered_of_layer_eq (rootOverride_of_ofContents hread) rfl
        (by rw [merge_empty, empty_layer_over, empty_layer_over])
    obtain rfl := hlayered.unique hself
    rw [houtcome, hread, ok_bind]
  · rcases hread with hread | hread | hread
    · rw [houtcome, ← huser, hread, error_bind]
    · rw [hnone] at hread
      cases hread
    · rw [hsettings] at hread
      cases hread

end Config

namespace CommandLine

/-- What comes of the contents of a file: how the command ends that looks at the file
alone, and what is assembled from it. -/
inductive Judged (environment : Environment) (file : Path) (contents : Except IoError Bytes) :
    Except Failure Unit → Except Error Config → Prop
  /-- The contents cannot be read, or are not text. -/
  | unreadable {e : IoError} (htext : textOfContents contents = .error e) :
      Judged environment file contents (.error (.io e))
        (.error (.invalidPath file s!"Failed to read configuration file: {e.text}"))
  /-- The text holds no configuration. -/
  | malformed {text : String} {fault : Yaml.Fault} (htext : textOfContents contents = .ok text)
      (hparse : Config.parse text = .error fault) :
      Judged environment file contents (.error (.refuted "Configuration file is invalid"))
        (.error (.configuration fault))
  /-- The configuration breaks the rules. -/
  | refused {text : String} {config : Config} {e : Error}
      (htext : textOfContents contents = .ok text) (hparse : Config.parse text = .ok config)
      (hrules : config.validate environment.home = .error e) :
      Judged environment file contents (.error (.refuted "Configuration validation failed"))
        (.error e)
  | accepted {text : String} {config : Config} (htext : textOfContents contents = .ok text)
      (hparse : Config.parse text = .ok config)
      (hrules : config.validate environment.home = .ok ()) :
      Judged environment file contents (.ok ()) (.ok config)

variable {host : Host Id} {wording : Wording} {environment : Environment}
  {workingDirectory : Option Path} {directory start file : Path}

/-- How looking at a file ends: it stops at the first of its three stages that fails. -/
theorem result_validateFile (hpresent : (host.isPresent file).run = true) (before : List Notice) :
    result (validateFile host environment file) before =
      match textOfContents (host.read file).run with
      | .error e => .error (.io e)
      | .ok text =>
        match Config.parse text with
        | .error _ => .error (.refuted "Configuration file is invalid")
        | .ok config =>
          match config.validate environment.home with
          | .error _ => .error (.refuted "Configuration validation failed")
          | .ok () => .ok () := by
  have hread : (host.readText file).run = textOfContents (host.read file).run := rfl
  simp only [validateFile, result_bind, result_ask, ok_bind, hpresent, if_true, result_failAs,
    result_check, hread]
  cases textOfContents (host.read file).run with
  | error e => rfl
  | ok text =>
    simp only [Except.mapError, ok_bind]
    cases Config.parse text with
    | error fault => rfl
    | ok config =>
      dsimp only
      cases config.validate environment.home <;> rfl

/-- Both ways of looking at a file go through the same three stages, and where one
stops the other does. -/
theorem judged_validateFile_assemble
    (hpresent : (host.isPresent (directory.join Config.userFile)).run = true)
    (hstart : (Config.filesOnly workingDirectory directory).start environment = .ok start)
    (hproject : ∀ above ∈ start.ancestors,
      (host.isFile (above.join Config.projectFile)).run = false) (before : List Notice) :
    Judged environment (directory.join Config.userFile)
      (host.read (directory.join Config.userFile)).run
      (result (validateFile host environment (directory.join Config.userFile)) before)
      (Config.assemble host environment
        (Config.filesOnly workingDirectory directory)).start.run.1 := by
  rw [result_validateFile hpresent, Config.result_assemble_filesOnly hpresent hstart hproject,
    Config.ofContents]
  cases htext : textOfContents (host.read (directory.join Config.userFile)).run with
  | error e => exact .unreadable htext
  | ok text =>
    cases hparse : Config.parse text with
    | error fault =>
      simp only [hparse]
      exact .malformed htext hparse
    | ok config =>
      simp only [hparse, ok_bind]
      cases hrules : config.validate environment.home with
      | error e => exact .refused htext hparse hrules
      | ok _ => exact .accepted htext hparse hrules

/-- A file is told to be valid exactly if a configuration is assembled from it where
it is the only source, and what is assembled is what the file holds. Nothing is asked
of its contents: they may be unreadable, no text, or no configuration. -/
theorem validate_iff_assembled
    (hpresent : (host.isPresent (directory.join Config.userFile)).run = true)
    (hstart : (Config.filesOnly workingDirectory directory).start environment = .ok start)
    (hproject : ∀ above ∈ start.ancestors,
      (host.isFile (above.join Config.projectFile)).run = false)
    (verbose quiet : Bool) (configDirectory : Option Path) :
    let file := directory.join Config.userFile
    let report :=
      (Invocation.run host wording environment
        ⟨verbose, quiet, configDirectory, .validate file⟩).run
    let assembled :=
      (Config.assemble host environment (Config.filesOnly workingDirectory directory)).start.run.1
    (report.exitCode = 0 ↔ ∃ config, assembled = .ok config) ∧
    ∀ config, assembled = .ok config →
      ∃ text, textOfContents (host.read file).run = .ok text ∧ Config.parse text = .ok config := by
  intro file report assembled
  have hjudged : Judged environment file (host.read file).run
      (result (validateFile host environment file) []) assembled :=
    judged_validateFile_assemble hpresent hstart hproject []
  have hended : ((Command.validate file).run host wording environment configDirectory).start.run.1 =
      result (validateFile host environment file) [] :=
    rfl
  rw [exitCode_run, hended]
  generalize result (validateFile host environment file) [] = ended at hjudged
  generalize assembled = built at hjudged
  cases hjudged with
  | unreadable | malformed | refused => simp [Failure.exitCode]
  | accepted htext hparse =>
    refine ⟨by simp, fun config hconfig => ?_⟩
    obtain rfl := Except.ok.inj hconfig
    exact ⟨_, htext, hparse⟩

/-- A volume with a file for the user and no project. -/
def cabin : Volume :=
  (Volume.empty.put [Utf8.encode "conf"] .directory).put
    [Utf8.encode "conf", Utf8.encode "config.yaml"] (.file (Utf8.encode "roots: \x7bdata: ~/data\x7d"))

private theorem isFile_cabin_eq_false : ∀ above ∈ (Path.ofString "/work").ancestors,
    (cabin.host.isFile (above.join Config.projectFile)).run = false := by
  have hup : (Path.ofString "/work").ancestors = [.ofString "/work", .ofString "/"] := by cbv
  have hwork : (cabin.host.isFile ((Path.ofString "/work").join Config.projectFile)).run =
      false := by cbv
  have htop : (cabin.host.isFile ((Path.ofString "/").join Config.projectFile)).run = false := by
    cbv
  simp [hup, hwork, htop]

private theorem exitCode_validate_cabin : (Invocation.run cabin.host wordless bare
    ⟨false, true, none, .validate ((Path.ofString "/conf").join Config.userFile)⟩).run.exitCode =
      0 := by
  cbv

/-- A file with one root, in a volume without a project. -/
theorem validate_cabin_iff_assembled :
    (Invocation.run cabin.host wordless bare
      ⟨false, true, none, .validate ((Path.ofString "/conf").join Config.userFile)⟩).run.exitCode =
        0 ∧
    ∃ config, (Config.assemble cabin.host bare
        (Config.filesOnly none (.ofString "/conf"))).start.run.1 = .ok config ∧
      Config.parse "roots: \x7bdata: ~/data\x7d" = .ok config := by
  have hpresent : (cabin.host.isPresent ((Path.ofString "/conf").join Config.userFile)).run =
      true := by cbv
  have htext : textOfContents (cabin.host.read ((Path.ofString "/conf").join Config.userFile)).run =
      .ok "roots: \x7bdata: ~/data\x7d" := by cbv
  have hstart : (Config.filesOnly none (.ofString "/conf")).start bare = .ok (.ofString "/work") :=
    rfl
  obtain ⟨hiff, hheld⟩ :=
    validate_iff_assembled hpresent hstart isFile_cabin_eq_false false true none
  obtain ⟨config, hassembled⟩ := hiff.mp exitCode_validate_cabin
  obtain ⟨text, hread, hparse⟩ := hheld config hassembled
  obtain rfl := Except.ok.inj (htext.symm.trans hread)
  exact ⟨exitCode_validate_cabin, config, hassembled, hparse⟩

end CommandLine
end TrustedRoot
