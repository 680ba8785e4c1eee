import TrustedRoot.Proofs.Config.Layers
import TrustedRoot.Proofs.Config.RootList

namespace TrustedRoot

/-- The text of a variable. One that is not set has none, and neither has one whose
value is not UTF-8. -/
def Environment.Holds (environment : Environment) (name value : String) : Prop :=
  ∃ contents, environment.setting? name = some contents ∧ Utf8.decode? contents = some value

/-- A variable is read as the text that it holds. -/
theorem Environment.text?_eq_some_iff {environment : Environment} {name value : String} :
    environment.text? name = some value ↔ environment.Holds name value :=
  Option.bind_eq_some_iff

namespace Config

open Session

section Files

/-- What a file says that is there. It may be unreadable, it may not be UTF-8, and its
text may hold no configuration. -/
inductive FileSays (host : Host Id) (path : Path) : Except Error Config → Prop
  | unreadable {e : IoError} (hread : (host.read path).run = .error e) :
      FileSays host path
        (.error (.invalidPath path s!"Failed to read configuration file: {e.text}"))
  | notText {contents : Bytes} (hread : (host.read path).run = .ok contents)
      (htext : Utf8.decode? contents = none) :
      FileSays host path (.error (.invalidPath path
        "Failed to read configuration file: stream did not contain valid UTF-8"))
  | malformed {contents : Bytes} {text : String} {fault : Yaml.Fault}
      (hread : (host.read path).run = .ok contents) (htext : Utf8.decode? contents = some text)
      (hparse : parse text = .error fault) :
      FileSays host path (.error (.configuration fault))
  | config {contents : Bytes} {text : String} {config : Config}
      (hread : (host.read path).run = .ok contents) (htext : Utf8.decode? contents = some text)
      (hparse : parse text = .ok config) :
      FileSays host path (.ok config)

/-- Where the user's file is: in the directory that is given, else in one of its own
below the home directory. -/
inductive UserFile (environment : Environment) : Option Path → Path → Prop
  | given {directory : Path} :
      UserFile environment (some directory) (directory.join (.ofString "config.yaml"))
  | default {home : Path} (hhome : environment.home = some home) :
      UserFile environment none
        ((home.join (.ofString ".rootjoin")).join (.ofString "config.yaml"))

/-- What the user's file says. Where no directory is given it takes a home directory to
tell where the file would be. -/
inductive UserSays (host : Host Id) (environment : Environment) (plan : Plan) :
    Except Error Config → Prop
  | skipped (hfiles : plan.skipsFiles = true) : UserSays host environment plan (.ok empty)
  | homeless (hfiles : plan.skipsFiles = false) (hdirectory : plan.configDirectory = none)
      (hhome : environment.home = none) :
      UserSays host environment plan
        (.error (.invalidPath (.ofString "~/.rootjoin") "Cannot determine home directory"))
  | absent {path : Path} (hfiles : plan.skipsFiles = false)
      (hpath : UserFile environment plan.configDirectory path)
      (habsent : (host.isPresent path).run = false) :
      UserSays host environment plan (.ok empty)
  | present {path : Path} {said : Except Error Config} (hfiles : plan.skipsFiles = false)
      (hpath : UserFile environment plan.configDirectory path)
      (hpresent : (host.isPresent path).run = true) (hsaid : FileSays host path said) :
      UserSays host environment plan said

/-- The file of the nearest project: that of a directory itself, else that of the
nearest one above it. -/
inductive Nearest (host : Host Id) : Path → Option Path → Prop
  | here {directory : Path}
      (hfile : (host.isFile (directory.join (.ofString "rootjoin.yaml"))).run = true) :
      Nearest host directory (some (directory.join (.ofString "rootjoin.yaml")))
  | above {directory above : Path} {found : Option Path}
      (hfile : (host.isFile (directory.join (.ofString "rootjoin.yaml"))).run = false)
      (hparent : directory.parent? = some above) (hfound : Nearest host above found) :
      Nearest host directory found
  | nowhere {directory : Path}
      (hfile : (host.isFile (directory.join (.ofString "rootjoin.yaml"))).run = false)
      (hparent : directory.parent? = none) : Nearest host directory none

/-- What the file of the project says. It may be unknown where to look for it. -/
inductive ProjectSays (host : Host Id) (environment : Environment) (plan : Plan) :
    Except Error Config → Prop
  | skipped (hfiles : plan.skipsFiles = true) : ProjectSays host environment plan (.ok empty)
  | lost {e : Error} (hfiles : plan.skipsFiles = false)
      (hstart : plan.start environment = .error e) : ProjectSays host environment plan (.error e)
  | absent {directory : Path} (hfiles : plan.skipsFiles = false)
      (hstart : plan.start environment = .ok directory) (hnearest : Nearest host directory none) :
      ProjectSays host environment plan (.ok empty)
  | present {directory path : Path} {said : Except Error Config} (hfiles : plan.skipsFiles = false)
      (hstart : plan.start environment = .ok directory)
      (hnearest : Nearest host directory (some path)) (hsaid : FileSays host path said) :
      ProjectSays host environment plan said

variable {host : Host Id} {environment : Environment} {plan : Plan}

/-- What a file says is what is made of its contents. -/
theorem fileSays_iff {path : Path} {said : Except Error Config} :
    FileSays host path said ↔ ofContents path (host.read path).run = said := by
  constructor
  · intro hsays
    cases hsays with
    | unreadable hread =>
      rw [hread]
      rfl
    | notText hread htext =>
      simp only [hread, ofContents, textOfContents, ok_bind, htext]
      rfl
    | malformed hread htext hparse | config hread htext hparse =>
      simp only [hread, ofContents, textOfContents, ok_bind, htext, hparse]
  · rintro rfl
    cases hread : (host.read path).run with
    | error e => exact .unreadable hread
    | ok contents =>
      cases htext : Utf8.decode? contents with
      | none =>
        simp only [ofContents, textOfContents, ok_bind, htext]
        exact .notText hread htext
      | some text =>
        simp only [ofContents, textOfContents, ok_bind, htext]
        cases hparse : parse text with
        | error fault => exact .malformed hread htext hparse
        | ok config => exact .config hread htext hparse

/-- The user's file is looked for where it is. -/
theorem userFile_iff {directory : Option Path} {path : Path} :
    UserFile environment directory path ↔ userPath environment directory = .ok path := by
  constructor
  · intro hfile
    cases hfile with
    | given => rfl
    | default hhome =>
      simp only [userPath, hhome]
      rfl
  · intro hpath
    cases directory with
    | some directory =>
      cases hpath
      exact .given
    | none =>
      cases hhome : environment.home with
      | none => simp [userPath, hhome, defaultDirectory] at hpath
      | some home =>
        simp only [userPath, hhome, defaultDirectory, ok_bind] at hpath
        cases hpath
        exact .default hhome

/-- Only an unknown home directory keeps from looking for the user's file. -/
theorem userPath_eq_error_iff {directory : Option Path} {e : Error} :
    userPath environment directory = .error e ↔
      directory = none ∧ environment.home = none ∧
        e = .invalidPath (.ofString "~/.rootjoin") "Cannot determine home directory" := by
  cases directory with
  | some directory => simp [userPath]
  | none =>
    cases hhome : environment.home with
    | none => simp [userPath, hhome, defaultDirectory, Path.homeUnknown, eq_comm]
    | some home => simp [userPath, hhome, defaultDirectory]

/-- What the user's file says is the layer that is read from it. -/
theorem userSays_iff {said : Except Error Config} :
    UserSays host environment plan said ↔ userLayer host environment plan = said := by
  constructor
  · intro hsays
    cases hsays with
    | skipped hfiles => simp [userLayer, hfiles]
    | homeless hfiles hdirectory hhome =>
      simp [userLayer, hfiles, userPath, hdirectory, defaultDirectory, hhome, Path.homeUnknown]
    | absent hfiles hpath habsent => simp [userLayer, hfiles, userFile_iff.mp hpath, habsent]
    | present hfiles hpath hpresent hsaid =>
      simp [userLayer, hfiles, userFile_iff.mp hpath, hpresent, fileSays_iff.mp hsaid]
  · rintro rfl
    unfold userLayer
    cases hfiles : plan.skipsFiles with
    | true => exact .skipped hfiles
    | false =>
      cases hpath : userPath environment plan.configDirectory with
      | error e =>
        obtain ⟨hdirectory, hhome, rfl⟩ := userPath_eq_error_iff.mp hpath
        exact .homeless hfiles hdirectory hhome
      | ok path =>
        have hfile := userFile_iff.mpr hpath
        simp only [Bool.false_eq_true, if_false, ok_bind]
        split_ifs with hpresent
        · exact .present hfiles hfile hpresent (fileSays_iff.mpr rfl)
        · exact .absent hfiles hfile (eq_false_of_ne_true hpresent)

/-- The search up the directories finds the nearest project. -/
theorem nearest_iff {directory : Path} {found : Option Path} :
    Nearest host directory found ↔ nearestProject? host directory = found := by
  constructor
  · intro hnearest
    induction hnearest with
    | here hfile =>
      rw [nearestProject?_eq]
      exact if_pos hfile
    | @above directory above found hfile hparent _ ih =>
      have hnone : ¬ (host.isFile (directory.join projectFile)).run = true :=
        ne_true_of_eq_false hfile
      rwa [nearestProject?_eq, if_neg hnone, hparent, Option.bind_some]
    | @nowhere directory hfile hparent =>
      have hnone : ¬ (host.isFile (directory.join projectFile)).run = true :=
        ne_true_of_eq_false hfile
      rw [nearestProject?_eq, if_neg hnone, hparent, Option.bind_none]
  · rintro rfl
    induction directory using nearestProject?.induct host with
    | case1 directory path hfile =>
      rw [nearestProject?_eq, if_pos hfile]
      exact .here hfile
    | case2 directory path hfile htop =>
      rw [nearestProject?_eq, if_neg hfile, htop]
      exact .nowhere (eq_false_of_ne_true hfile) htop
    | case3 directory path hfile above hparent ih =>
      rw [nearestProject?_eq, if_neg hfile, hparent]
      exact .above (eq_false_of_ne_true hfile) hparent ih

/-- What the file of the project says is the layer that is read from it. -/
theorem projectSays_iff {said : Except Error Config} :
    ProjectSays host environment plan said ↔ projectLayer host environment plan = said := by
  constructor
  · intro hsays
    cases hsays with
    | skipped hfiles => simp [projectLayer, hfiles]
    | lost hfiles hstart => simp [projectLayer, hfiles, hstart]
    | absent hfiles hstart hnearest =>
      simp [projectLayer, hfiles, hstart, nearest_iff.mp hnearest]
    | present hfiles hstart hnearest hsaid =>
      simp [projectLayer, hfiles, hstart, nearest_iff.mp hnearest, fileSays_iff.mp hsaid]
  · rintro rfl
    unfold projectLayer
    cases hfiles : plan.skipsFiles with
    | true => exact .skipped hfiles
    | false =>
      cases hstart : plan.start environment with
      | error e => exact .lost hfiles hstart
      | ok directory =>
        simp only [Bool.false_eq_true, if_false, ok_bind]
        cases hfound : nearestProject? host directory with
        | none => exact .absent hfiles hstart (nearest_iff.mpr hfound)
        | some path => exact .present hfiles hstart (nearest_iff.mpr hfound) (fileSays_iff.mpr rfl)

end Files

section Variables

/-- What a value says that must not be blank. -/
inductive WordSays (name value : String) : Except Error String → Prop
  | blank (hblank : ∀ c ∈ value.toList, Blank.isBlank c = true) :
      WordSays name value (.error (.validation name "Cannot be empty"))
  | word {c : Char} (hmem : c ∈ value.toList) (hfilled : Blank.isBlank c = false) :
      WordSays name value (.ok value)

/-- What a variable says whose text is read in a given way: nothing at all if it has no text. -/
inductive VariableSays {α : Type} (environment : Environment) (name : String)
    (Reads : String → Except Error α → Prop) : Except Error (Option α) → Prop
  | unset (hunset : ∀ value, ¬ environment.Holds name value) :
      VariableSays environment name Reads (.ok none)
  | rejected {value : String} {e : Error} (hvalue : environment.Holds name value)
      (hreads : Reads value (.error e)) : VariableSays environment name Reads (.error e)
  | accepted {value : String} {a : α} (hvalue : environment.Holds name value)
      (hreads : Reads value (.ok a)) : VariableSays environment name Reads (.ok (some a))

/-- What the variable with the overriding root says. -/
def OverrideSays (environment : Environment) : Except Error (Option String) → Prop :=
  VariableSays environment "ROOTJOIN_ROOT" (WordSays "ROOTJOIN_ROOT")

/-- What the variable with the default name says. -/
def DefaultSays (environment : Environment) : Except Error (Option String) → Prop :=
  VariableSays environment "ROOTJOIN_DEFAULT_ROOT" (WordSays "ROOTJOIN_DEFAULT_ROOT")

/-- What the variable with the list of roots says: what the items between its commas say. -/
def RootsSay (environment : Environment) : Except Error (Option (List (String × Path))) → Prop :=
  VariableSays environment "ROOTJOIN_ROOTS" fun text => ItemsSay (Split.splitOn ',' text.toList)

/-- What the variables say together. The first that is rejected tells why all are; a name
that is given several paths has the last of them. -/
inductive VariablesSay (environment : Environment) (plan : Plan) : Except Error Layer → Prop
  | skipped (hvariables : plan.skipsVariables = true) :
      VariablesSay environment plan (.ok empty.layer)
  | badOverride {e : Error} (hvariables : plan.skipsVariables = false)
      (hoverride : OverrideSays environment (.error e)) : VariablesSay environment plan (.error e)
  | badDefault {override : Option String} {e : Error} (hvariables : plan.skipsVariables = false)
      (hoverride : OverrideSays environment (.ok override))
      (hdefault : DefaultSays environment (.error e)) : VariablesSay environment plan (.error e)
  | badRoots {override default : Option String} {e : Error}
      (hvariables : plan.skipsVariables = false)
      (hoverride : OverrideSays environment (.ok override))
      (hdefault : DefaultSays environment (.ok default))
      (hroots : RootsSay environment (.error e)) : VariablesSay environment plan (.error e)
  | layer {override default : Option String} {pairs : Option (List (String × Path))}
      (hvariables : plan.skipsVariables = false)
      (hoverride : OverrideSays environment (.ok override))
      (hdefault : DefaultSays environment (.ok default))
      (hroots : RootsSay environment (.ok pairs)) :
      VariablesSay environment plan
        (.ok ⟨lastOf (pairs.getD []), default, override.map .ofString⟩)

variable {environment : Environment} {plan : Plan}

private theorem wordSays_iff {name value : String} {said : Except Error String} :
    WordSays name value said ↔ notBlank name value = said := by
  have hall : Blank.isAllBlank value.toList = true ↔
      ∀ c ∈ value.toList, Blank.isBlank c = true := List.all_eq_true
  constructor
  · intro hsays
    cases hsays with
    | blank hblank => exact if_pos (hall.mpr hblank)
    | word hmem hfilled =>
      exact if_neg fun hblank => ne_true_of_eq_false hfilled (hall.mp hblank _ hmem)
  · rintro rfl
    unfold notBlank
    split_ifs with hblank
    · exact .blank (hall.mp hblank)
    · rw [hall] at hblank
      push Not at hblank
      obtain ⟨c, hmem, hfilled⟩ := hblank
      exact .word hmem (eq_false_of_ne_true hfilled)

/-- What a variable says is what its text is read as, if there is one. -/
theorem variableSays_iff {α : Type} {name : String} {Reads : String → Except Error α → Prop}
    {read : String → Except Error α} (hreads : ∀ value said, Reads value said ↔ read value = said)
    {said : Except Error (Option α)} :
    VariableSays environment name Reads said ↔ (environment.text? name).mapM read = said := by
  constructor
  · intro hsays
    cases hsays with
    | unset hunset =>
      have hnone : environment.text? name = none :=
        Option.eq_none_iff_forall_ne_some.mpr fun value hvalue =>
          hunset value (Environment.text?_eq_some_iff.mp hvalue)
      rw [hnone]
      rfl
    | rejected hvalue hread | accepted hvalue hread =>
      rw [Environment.text?_eq_some_iff.mpr hvalue, Option.mapM_some, (hreads _ _).mp hread]
      rfl
  · rintro rfl
    cases htext : environment.text? name with
    | none =>
      refine .unset fun value hvalue => ?_
      rw [Environment.text?_eq_some_iff.mpr hvalue] at htext
      cases htext
    | some value =>
      have hvalue := Environment.text?_eq_some_iff.mp htext
      rw [Option.mapM_some]
      cases hread : read value with
      | error e => exact .rejected hvalue ((hreads _ _).mpr hread)
      | ok a => exact .accepted hvalue ((hreads _ _).mpr hread)

private theorem overrideSays_iff {said : Except Error (Option String)} :
    OverrideSays environment said ↔
      (environment.text? rootVariable).mapM (notBlank rootVariable) = said := by
  apply variableSays_iff
  exact fun _ _ => wordSays_iff

private theorem defaultSays_iff {said : Except Error (Option String)} :
    DefaultSays environment said ↔
      (environment.text? defaultRootVariable).mapM (notBlank defaultRootVariable) = said := by
  apply variableSays_iff
  exact fun _ _ => wordSays_iff

private theorem rootsSay_iff {said : Except Error (Option (List (String × Path)))} :
    RootsSay environment said ↔ (environment.text? rootsVariable).mapM parseRoots = said := by
  apply variableSays_iff
  exact fun _ _ => itemsSay_iff

/-- What the variables say together is the layer that is read from them. -/
theorem variablesSay_iff {said : Except Error Layer} :
    VariablesSay environment plan said ↔ variableLayer environment plan = said := by
  constructor
  · intro hsays
    cases hsays with
    | skipped hvariables => simp [variableLayer, hvariables]
    | badOverride hvariables hoverride =>
      simp [variableLayer, hvariables, overrideSays_iff.mp hoverride]
    | badDefault hvariables hoverride hdefault =>
      simp [variableLayer, hvariables, overrideSays_iff.mp hoverride, defaultSays_iff.mp hdefault]
    | badRoots hvariables hoverride hdefault hroots | layer hvariables hoverride hdefault hroots =>
      simp [variableLayer, hvariables, overrideSays_iff.mp hoverride, defaultSays_iff.mp hdefault,
        rootsSay_iff.mp hroots]
  · rintro rfl
    unfold variableLayer
    cases hvariables : plan.skipsVariables with
    | true => exact .skipped hvariables
    | false =>
      simp only [Bool.false_eq_true, if_false]
      cases hoverride : (environment.text? rootVariable).mapM (notBlank rootVariable) with
      | error e => exact .badOverride hvariables (overrideSays_iff.mpr hoverride)
      | ok override =>
        replace hoverride := overrideSays_iff.mpr hoverride
        cases hdefault : (environment.text? defaultRootVariable).mapM
            (notBlank defaultRootVariable) with
        | error e => exact .badDefault hvariables hoverride (defaultSays_iff.mpr hdefault)
        | ok default =>
          replace hdefault := defaultSays_iff.mpr hdefault
          cases hroots : (environment.text? rootsVariable).mapM parseRoots with
          | error e => exact .badRoots hvariables hoverride hdefault (rootsSay_iff.mpr hroots)
          | ok pairs => exact .layer hvariables hoverride hdefault (rootsSay_iff.mpr hroots)

end Variables

/-- A layer that counts cannot be read, and this is why. -/
def Broken (host : Host Id) (environment : Environment) (plan : Plan) (e : Error) : Prop :=
  UserSays host environment plan (.error e) ∨ ProjectSays host environment plan (.error e) ∨
    VariablesSay environment plan (.error e)

private theorem broken_iff {host : Host Id} {environment : Environment} {plan : Plan} {e : Error} :
    Broken host environment plan e ↔ Unreadable host environment plan e := by
  rw [Broken, userSays_iff, projectSays_iff, variablesSay_iff, Unreadable]

/-- Assembling lays four layers over each other, name by name: what the caller gives,
the variables, the file of the nearest project, the file of the user. It succeeds
exactly if every layer that counts can be read and the outcome keeps the rules; a
layer that cannot be read is not made up for by those above it. -/
theorem assemble_layered (host : Host Id) (environment : Environment) (plan : Plan) :
    let outcome := (assemble host environment plan).start.run.1
    (∀ config, outcome = .ok config ↔
      ∃ user project settings, UserSays host environment plan (.ok user) ∧
        ProjectSays host environment plan (.ok project) ∧
        VariablesSay environment plan (.ok settings) ∧
        Layered (plan.overrides.getD empty).layer settings project.layer user.layer config ∧
        config.validate environment.home = .ok ()) ∧
    ((∃ e, Broken host environment plan e) →
      ∃ e, Broken host environment plan e ∧ outcome = .error e) := by
  intro outcome
  simp only [broken_iff, userSays_iff, projectSays_iff, variablesSay_iff]
  rcases result_assemble_cases host environment plan with
    ⟨user, project, settings, config, huser, hproject, hsettings, hlayered, houtcome⟩ |
    ⟨e, hread, houtcome⟩
  · have hreadable : ¬ ∃ e, Unreadable host environment plan e := by
      simp [Unreadable, huser, hproject, hsettings]
    refine ⟨fun config' => ⟨fun hok => ?_, ?_⟩, fun hread => absurd hread hreadable⟩
    · obtain ⟨_, hvalid, rfl⟩ := map_eq_ok_iff.mp (houtcome.symm.trans hok)
      exact ⟨user, project, settings, huser, hproject, hsettings, hlayered, hvalid⟩
    · rintro ⟨user', project', settings', huser', hproject', hsettings', hlayered', hvalid⟩
      obtain rfl := Except.ok.inj (huser.symm.trans huser')
      obtain rfl := Except.ok.inj (hproject.symm.trans hproject')
      obtain rfl := Except.ok.inj (hsettings.symm.trans hsettings')
      obtain rfl := hlayered.unique hlayered'
      exact houtcome.trans (by rw [hvalid]; rfl)
  · refine ⟨fun config' => ⟨fun hok => ?_, ?_⟩, fun _ => ⟨e, hread, houtcome⟩⟩
    · simp [outcome, houtcome] at hok
    · rintro ⟨user, project, settings, huser, hproject, hsettings, _⟩
      simp [Unreadable, huser, hproject, hsettings] at hread

end Config
end TrustedRoot
