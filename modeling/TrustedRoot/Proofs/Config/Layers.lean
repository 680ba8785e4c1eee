import TrustedRoot.Config.Assembly
import TrustedRoot.Proofs.Path.Ancestry
import TrustedRoot.Proofs.Session

namespace TrustedRoot.Config

open Session

/-- What one source says of a configuration. -/
structure Layer where
  root? : String → Option Path
  defaultRoot : Option String
  rootOverride : Option Path

/-- One layer over another: what the upper one leaves open is left to the lower
one, each name by itself. -/
def Layer.over (upper lower : Layer) : Layer where
  root? name := (upper.root? name).or (lower.root? name)
  defaultRoot := upper.defaultRoot.or lower.defaultRoot
  rootOverride := upper.rootOverride.or lower.rootOverride

/-- What a configuration says when it is taken as a source. -/
def layer (config : Config) : Layer :=
  ⟨fun name => config.roots[name]?, config.defaultRoot, config.rootOverride⟩

/-- A configuration is what it says as a layer. -/
theorem eq_of_layer_eq {config config' : Config} (hlayer : config.layer = config'.layer) :
    config = config' := by
  have hroots : config.roots = config'.roots :=
    Std.ExtTreeMap.ext_getElem? fun name => congrFun (congrArg Layer.root? hlayer) name
  have hdefault : config.defaultRoot = config'.defaultRoot := congrArg Layer.defaultRoot hlayer
  have hoverride : config.rootOverride = config'.rootOverride :=
    congrArg Layer.rootOverride hlayer
  cases config
  cases config'
  simp_all

/-- Merging lays what the upper configuration says over what the lower one does. -/
theorem layer_merge (lower upper : Config) :
    (lower.merge upper).layer = upper.layer.over lower.layer := by
  simp [layer, merge, Layer.over, Std.ExtTreeMap.getElem?_union]

/-- An empty layer leaves everything to the one below. -/
theorem empty_layer_over (layer : Layer) : empty.layer.over layer = layer := by
  simp [Layer.over, Config.layer, empty]

private theorem over_empty_layer (layer : Layer) : layer.over empty.layer = layer := by
  simp [Layer.over, Config.layer, empty]

/-- The empty configuration has nothing to say below another. -/
theorem empty_merge (config : Config) : empty.merge config = config := by
  apply eq_of_layer_eq
  rw [layer_merge, over_empty_layer]

/-- Nor above another. -/
theorem merge_empty (config : Config) : config.merge empty = config := by
  apply eq_of_layer_eq
  rw [layer_merge, empty_layer_over]

section Variables

/-- The path that a list of roots gives to a name: that of its last pair. -/
def lastOf (pairs : List (String × Path)) (name : String) : Option Path :=
  (pairs.reverse.find? (·.1 = name)).map (·.2)

/-- What the variables say. Each is read on its own, one that is not set says nothing. -/
def variableLayer (environment : Environment) (plan : Plan) : Except Error Layer :=
  if plan.skipsVariables then .ok empty.layer
  else do
    let override ← (environment.text? rootVariable).mapM (notBlank rootVariable)
    let default ← (environment.text? defaultRootVariable).mapM (notBlank defaultRootVariable)
    let pairs ← (environment.text? rootsVariable).mapM parseRoots
    .ok ⟨lastOf (pairs.getD []), default, override.map .ofString⟩

@[simp] theorem lastOf_nil (name : String) : lastOf [] name = none := rfl

/-- The last path that is given to a name is the one that it has. -/
@[simp] theorem getElem?_roots_insertRoots (config : Config) (pairs : List (String × Path))
    (name : String) :
    (config.insertRoots pairs).roots[name]? = (lastOf pairs name).or config.roots[name]? := by
  induction pairs generalizing config with
  | nil => rfl
  | cons pair rest ih =>
    obtain ⟨known, path⟩ := pair
    have hrest := ih { config with roots := config.roots.insert known path }
    have hlast : lastOf ((known, path) :: rest) name =
        (lastOf rest name).or (if known = name then some path else none) := by
      simp only [lastOf, List.reverse_cons, List.find?_append, Option.map_or]
      by_cases hname : known = name <;> simp [hname]
    rw [hlast, Option.or_assoc]
    refine hrest.trans (congrArg _ ?_)
    rw [Std.ExtTreeMap.getElem?_insert]
    by_cases hname : known = name <;> simp [hname]

@[simp] theorem defaultRoot_insertRoots (config : Config) (pairs : List (String × Path)) :
    (config.insertRoots pairs).defaultRoot = config.defaultRoot :=
  rfl

@[simp] theorem rootOverride_insertRoots (config : Config) (pairs : List (String × Path)) :
    (config.insertRoots pairs).rootOverride = config.rootOverride :=
  rfl

/-- Reading a variable and setting a value by what was read, in one step. -/
theorem applyVariable_eq {α : Type} (environment : Environment) (name : String) (config : Config)
    (read : String → Except Error α) (set : α → Config) :
    (applyVariable environment name config fun value => do
        let a ← read value
        .ok (set a)) =
      match (environment.text? name).mapM read with
      | .error e => (config, .error e)
      | .ok none => (config, .ok ())
      | .ok (some a) => (set a, .ok ()) := by
  unfold applyVariable
  cases environment.text? name with
  | none => rfl
  | some value => cases hread : read value <;> simp [hread, Functor.map, Except.map]

/-- Setting values one variable after the other is laying one layer over all
that was there; it fails if one of the variables cannot be read. -/
theorem layer_withVariables (environment : Environment) (plan : Plan) (config : Config) :
    (withVariables environment plan config).map layer =
      (variableLayer environment plan).map (·.over config.layer) := by
  unfold withVariables variableLayer
  by_cases hskip : plan.skipsVariables
  · simp [hskip, Except.map, Layer.over, layer, empty]
  · -- Both sides read the variables in the same order and stop at the same one.
    simp only [hskip, applyVariables, applyVariable_eq]
    cases (environment.text? rootVariable).mapM (notBlank rootVariable) with
    | error e => rfl
    | ok override =>
      cases (environment.text? defaultRootVariable).mapM (notBlank defaultRootVariable) with
      | error e => cases override <;> rfl
      | ok default =>
        cases (environment.text? rootsVariable).mapM parseRoots with
        | error e => cases override <;> cases default <;> rfl
        | ok pairs =>
          cases override <;> cases default <;> cases pairs <;>
            simp [Except.map, Layer.over, layer]

end Variables

section Files

/-- The file of the nearest project: that of a directory itself if it has one,
else that of the directory above it. -/
def nearestProject? (host : Host Id) (directory : Path) : Option Path :=
  let path := directory.join projectFile
  if (host.isFile path).run then some path
  else match _h : directory.parent? with
    | none => none
    | some above => nearestProject? host above
termination_by directory.bytes.length
decreasing_by exact Path.length_parent?_lt _h

/-- One step of the search for the nearest project. -/
theorem nearestProject?_eq (host : Host Id) (directory : Path) :
    nearestProject? host directory =
      if (host.isFile (directory.join projectFile)).run then some (directory.join projectFile)
      else directory.parent?.bind (nearestProject? host) := by
  rw [nearestProject?]
  split_ifs
  · rfl
  · cases directory.parent? <;> rfl

/-- Where the search for a project starts. -/
def Plan.start (plan : Plan) (environment : Environment) : Except Error Path :=
  match plan.workingDirectory with
  | some directory => .ok directory
  | none => environment.workingDirectory.mapError .io

/-- What the user's file says; one that is not there says nothing. -/
def userLayer (host : Host Id) (environment : Environment) (plan : Plan) : Except Error Config :=
  if plan.skipsFiles then .ok empty
  else do
    let path ← userPath environment plan.configDirectory
    if (host.isPresent path).run then ofContents path (host.read path).run else .ok empty

/-- What the file of the project says, if there is a project. -/
def projectLayer (host : Host Id) (environment : Environment) (plan : Plan) :
    Except Error Config :=
  if plan.skipsFiles then .ok empty
  else do
    match nearestProject? host (← plan.start environment) with
    | none => .ok empty
    | some path => ofContents path (host.read path).run

variable (host : Host Id) (environment : Environment) (plan : Plan) (before : List Notice)

private theorem result_load (path : Path) :
    result (load host path) before = ofContents path (host.read path).run := by
  simp only [load, result_bind, result_ask, ok_bind, result_check, Session.log, result_put]
  cases ofContents path (host.read path).run <;> rfl

/-- What a file says that may not be there. -/
def said (source : Option Source) : Config := (source.map (·.config)).getD empty

/-- The files stand in the order of their precedence already, that of the project on top. -/
theorem mergeAll_sources {user project : Option Source}
    (huser : ∀ source, user = some source → source.precedence = 1)
    (hproject : ∀ source, project = some source → source.precedence = 2) :
    mergeAll (((user.toList ++ project.toList).mergeSort fun a b => a.precedence ≤ b.precedence).map
      (·.config)) = (said user).merge (said project) := by
  have hsorted : (user.toList ++ project.toList).mergeSort
      (fun a b => a.precedence ≤ b.precedence) = user.toList ++ project.toList := by
    apply List.mergeSort_of_pairwise
    cases user with
    | none => cases project <;> simp
    | some mine => cases project <;> simp [huser, hproject]
  rw [hsorted]
  cases user <;> cases project <;> simp [mergeAll, said, empty_merge, merge_empty]

/-- Loading the user's file comes to what it says, an absent one to nothing. -/
theorem said_loadUser (directory : Option Path) :
    (result (loadUser host environment directory) before).map said =
      userPath environment directory >>= fun path =>
        if (host.isPresent path).run then ofContents path (host.read path).run else .ok empty := by
  simp only [loadUser, result_bind, result_check, result_ask, notices_check]
  cases userPath environment directory with
  | error e => rfl
  | ok path =>
    simp only [ok_bind]
    by_cases hpresent : (host.isPresent path).run = true
    · simp only [hpresent, if_true, result_bind, result_load]
      cases ofContents path _ <;> rfl
    · simp only [hpresent]
      rfl

private theorem precedence_of_loadUser {directory : Option Path} {found : Option Source}
    (hloaded : result (loadUser host environment directory) before = .ok found) :
    ∀ source, found = some source → source.precedence = 1 := by
  rintro source rfl
  simp only [loadUser, result_bind, result_ask, bind_eq_ok_iff] at hloaded
  obtain ⟨path, _, present, _, hloaded⟩ := hloaded
  cases present with
  | false => cases hloaded
  | true =>
    simp only [if_true, result_bind, bind_eq_ok_iff] at hloaded
    obtain ⟨config, _, hsource⟩ := hloaded
    cases hsource
    rfl

private theorem precedence_of_loadNearest {directories : List Path} {found : Option Source}
    (hloaded : result (loadNearest host directories) before = .ok found) :
    ∀ source, found = some source → source.precedence = 2 := by
  rintro source rfl
  induction directories generalizing before with
  | nil => cases hloaded
  | cons directory rest ih =>
    simp only [loadNearest, result_bind, result_ask, bind_eq_ok_iff] at hloaded
    obtain ⟨present, _, hloaded⟩ := hloaded
    cases present with
    | false => exact ih _ hloaded
    | true =>
      simp only [if_true, result_bind, bind_eq_ok_iff] at hloaded
      obtain ⟨config, _, hsource⟩ := hloaded
      cases hsource
      rfl

/-- Loading the project's file comes to what that of the nearest project says. -/
theorem said_loadProject (directory : Path) :
    (result (loadProject host directory) before).map said =
      match nearestProject? host directory with
      | none => .ok empty
      | some path => ofContents path (host.read path).run := by
  -- The directories above are those of `ancestors`, taken one at a time.
  unfold loadProject
  induction directory using nearestProject?.induct host with
  | case1 directory path hfile =>
    replace hfile : (host.isFile (directory.join projectFile)).run = true := hfile
    rw [nearestProject?, Path.ancestors_eq_cons, loadNearest]
    simp only [result_bind, result_ask, notices_ask, ok_bind, hfile, if_true, result_load]
    cases ofContents (directory.join projectFile) _ <;> rfl
  | case2 directory path hfile htop =>
    replace hfile : ¬ (host.isFile (directory.join projectFile)).run = true := hfile
    rw [nearestProject?, Path.ancestors_eq_cons, loadNearest, htop]
    simp only [result_bind, result_ask, notices_ask, ok_bind, hfile]
    rfl
  | case3 directory path hfile above hparent ih =>
    replace hfile : ¬ (host.isFile (directory.join projectFile)).run = true := hfile
    rw [nearestProject?, Path.ancestors_eq_cons, loadNearest, hparent]
    simp only [result_bind, result_ask, notices_ask, ok_bind, hfile]
    exact ih

private theorem mergeAll_loadAll (directory : Path) (configDirectory : Option Path) :
    ((result (loadAll host environment directory configDirectory) before).map fun sources =>
        mergeAll (sources.map (·.config))) = (do
      let user ← result (loadUser host environment configDirectory) before
      let project ← result (loadProject host directory)
        (notices (loadUser host environment configDirectory) before)
      .ok ((said user).merge (said project))) := by
  simp only [loadAll, result_bind, result_pure]
  cases hloaded : result (loadUser host environment configDirectory) before with
  | error e => rfl
  | ok user =>
    rw [ok_bind, ok_bind]
    cases hfound : result (loadProject host directory) _ with
    | error e => rfl
    | ok project =>
      have huser := precedence_of_loadUser host environment before hloaded
      have hproject := precedence_of_loadNearest host _ hfound
      exact congrArg Except.ok (mergeAll_sources huser hproject)

private theorem result_fileLayer (hfiles : plan.skipsFiles = false) :
    result (fileLayer host environment plan) before = (do
      let directory ← plan.start environment
      let user ← result (loadUser host environment plan.configDirectory) before
      let project ← result (loadProject host directory)
        (notices (loadUser host environment plan.configDirectory) before)
      .ok ((said user).merge (said project))) := by
  simp only [fileLayer, hfiles, Bool.false_eq_true, if_false, result_bind, result_check,
    notices_check, result_pure, ← mergeAll_loadAll]
  refine congrArg (plan.start environment >>= ·) (funext fun directory => ?_)
  cases result (loadAll host environment directory plan.configDirectory) before <;> rfl

/-- The files are both read, and that of the project is laid over that of the user,
or the first error is reported. -/
theorem result_fileLayer_cases :
    (∃ user project, userLayer host environment plan = .ok user ∧
      projectLayer host environment plan = .ok project ∧
      result (fileLayer host environment plan) before = .ok (user.merge project)) ∨
    ∃ e, (userLayer host environment plan = .error e ∨
        projectLayer host environment plan = .error e) ∧
      result (fileLayer host environment plan) before = .error e := by
  cases hfiles : plan.skipsFiles with
  | true =>
    exact .inl ⟨empty, empty, by simp [userLayer, hfiles], by simp [projectLayer, hfiles],
      by simp [fileLayer, hfiles, merge_empty]⟩
  | false =>
    rw [result_fileLayer host environment plan before hfiles]
    cases hstart : plan.start environment with
    | error e => exact .inr ⟨e, .inr (by simp [projectLayer, hfiles, hstart]), rfl⟩
    | ok directory =>
      have huser : (result (loadUser host environment plan.configDirectory) before).map said =
          userLayer host environment plan := by
        simp [userLayer, hfiles, said_loadUser]
      have hproject (between : List Notice) :
          (result (loadProject host directory) between).map said =
            projectLayer host environment plan := by
        simp [projectLayer, hfiles, hstart, said_loadProject]
      rw [ok_bind]
      cases hloaded : result (loadUser host environment plan.configDirectory) before with
      | error e =>
        rw [hloaded] at huser
        exact .inr ⟨e, .inl huser.symm, rfl⟩
      | ok user =>
        rw [hloaded] at huser
        have hproject := hproject (notices (loadUser host environment plan.configDirectory) before)
        rw [ok_bind]
        cases hfound : result (loadProject host directory) _ with
        | error e =>
          rw [hfound] at hproject
          exact .inr ⟨e, .inr hproject.symm, rfl⟩
        | ok project =>
          rw [hfound] at hproject
          exact .inl ⟨said user, said project, huser.symm, hproject.symm, rfl⟩

private theorem wrongType_ne_ok {α : Type} (node : Yaml.Node) (expected : String) (site : Yaml.Site)
    (a : α) : Yaml.Document.wrongType node expected site ≠ .ok a := by
  unfold Yaml.Document.wrongType
  split
  · split <;> simp
  all_goals simp

/-- A document has no field for the overriding root. -/
theorem rootOverride_of_ofDocument {document : Yaml.Document} {config : Config}
    (hread : ofDocument document = .ok config) : config.rootOverride = none := by
  simp only [ofDocument, bind_eq_ok_iff] at hread
  obtain ⟨⟨node, mark⟩, _, hnode⟩ := hread
  split at hnode
  · obtain ⟨fields, _, hfields⟩ := bind_eq_ok_iff.mp hnode
    rw [← Except.ok.inj hfields]
  · split at hnode
    · cases hnode
      rfl
    · exact absurd hnode (wrongType_ne_ok _ _ _ _)

private theorem rootOverride_of_parse {text : String} {config : Config}
    (hread : parse text = .ok config) : config.rootOverride = none := by
  simp only [parse, bind_eq_ok_iff] at hread
  obtain ⟨found, hfound, hchecked⟩ := hread
  split at hchecked
  · cases hchecked
  · split at hchecked
    · cases hchecked
      exact rootOverride_of_ofDocument hfound
    · cases hchecked

/-- A file has no say in the overriding root. -/
theorem rootOverride_of_ofContents {path : Path} {contents : Except IoError Bytes}
    {config : Config} (hread : ofContents path contents = .ok config) :
    config.rootOverride = none := by
  unfold ofContents at hread
  split at hread
  · cases hread
  · split at hread
    · cases hread
    · rename_i found hparse
      cases hread
      exact rootOverride_of_parse hparse

variable {host environment plan}

private theorem rootOverride_of_userLayer {user : Config}
    (hread : userLayer host environment plan = .ok user) : user.rootOverride = none := by
  unfold userLayer at hread
  split at hread
  · cases hread
    rfl
  · obtain ⟨path, _, hfound⟩ := bind_eq_ok_iff.mp hread
    split at hfound
    · exact rootOverride_of_ofContents hfound
    · cases hfound
      rfl

private theorem rootOverride_of_projectLayer {project : Config}
    (hread : projectLayer host environment plan = .ok project) : project.rootOverride = none := by
  unfold projectLayer at hread
  split at hread
  · cases hread
    rfl
  · obtain ⟨directory, _, hfound⟩ := bind_eq_ok_iff.mp hread
    split at hfound
    · cases hfound
      rfl
    · exact rootOverride_of_ofContents hfound

end Files

section Assembly

/-- How a configuration answers to four layers: each name, and the default, are
those of the first layer that has them, whatever the others say. Files have no say
in the overriding root. -/
structure Layered (overrides settings project user : Layer) (config : Config) : Prop where
  root : ∀ name, config.roots[name]? =
    [overrides, settings, project, user].findSome? (·.root? name)
  defaultRoot : config.defaultRoot =
    [overrides, settings, project, user].findSome? (·.defaultRoot)
  rootOverride : config.rootOverride = [overrides, settings].findSome? (·.rootOverride)

/-- Four layers are answered to by one configuration at most. -/
theorem Layered.unique {overrides settings project user : Layer} {config config' : Config}
    (hlayered : Layered overrides settings project user config)
    (hlayered' : Layered overrides settings project user config') : config = config' := by
  have hroot (name : String) : config.layer.root? name = config'.layer.root? name :=
    (hlayered.root name).trans (hlayered'.root name).symm
  apply eq_of_layer_eq
  simp only [layer, Layer.mk.injEq]
  exact ⟨funext hroot, hlayered.defaultRoot.trans hlayered'.defaultRoot.symm,
    hlayered.rootOverride.trans hlayered'.rootOverride.symm⟩

theorem findSome?_cons_eq_or {α β : Type} (f : α → Option β) (a : α) (rest : List α) :
    (a :: rest).findSome? f = (f a).or (rest.findSome? f) := by
  cases hfirst : f a <;> simp [hfirst]

/-- Layers laid over each other two by two are asked in one row. -/
theorem layered_of_layer_eq {overrides settings : Layer} {user project config : Config}
    (huser : user.rootOverride = none) (hproject : project.rootOverride = none)
    (hlayer : config.layer = overrides.over (settings.over (user.merge project).layer)) :
    Layered overrides settings project.layer user.layer config := by
  rw [layer_merge] at hlayer
  have hroots (name : String) := congrFun (congrArg Layer.root? hlayer) name
  have hdefault := congrArg Layer.defaultRoot hlayer
  have hoverride := congrArg Layer.rootOverride hlayer
  simp only [layer, Layer.over, huser, hproject, Option.or_none] at hroots hdefault hoverride
  constructor <;> simp only [findSome?_cons_eq_or, List.findSome?_nil, Option.or_none]
  · exact hroots
  · exact hdefault
  · exact hoverride

/-- One of the layers that count cannot be read, and this is why. -/
def Unreadable (host : Host Id) (environment : Environment) (plan : Plan) (e : Error) : Prop :=
  userLayer host environment plan = .error e ∨ projectLayer host environment plan = .error e ∨
    variableLayer environment plan = .error e

/-- What assembling comes to: every layer is read and the configuration that answers
to them is put to the rules, or a layer that cannot be read fails the whole, whatever
those above it say. -/
theorem result_assemble_cases (host : Host Id) (environment : Environment) (plan : Plan) :
    (∃ user project settings config, userLayer host environment plan = .ok user ∧
      projectLayer host environment plan = .ok project ∧
      variableLayer environment plan = .ok settings ∧
      Layered (plan.overrides.getD empty).layer settings project.layer user.layer config ∧
      (assemble host environment plan).start.run.1 =
        (config.validate environment.home).map fun _ => config) ∨
    ∃ e, Unreadable host environment plan e ∧
      (assemble host environment plan).start.run.1 = .error e := by
  rw [run_start]
  simp only [assemble, result_bind, result_check, result_pure]
  rcases result_fileLayer_cases host environment plan [] with
    ⟨user, project, huser, hproject, hfiles⟩ | ⟨e, hread, hfiles⟩
  · rw [hfiles, ok_bind]
    have hsettings := layer_withVariables environment plan (user.merge project)
    cases hread : variableLayer environment plan with
    | error e =>
      rw [hread] at hsettings
      cases hwith : withVariables environment plan (user.merge project) with
      | ok config => simp [hwith, Except.map] at hsettings
      | error e' =>
        obtain rfl : e' = e := by simpa [hwith, Except.map] using hsettings
        exact .inr ⟨e', .inr (.inr hread), rfl⟩
    | ok settings =>
      rw [hread] at hsettings
      cases hwith : withVariables environment plan (user.merge project) with
      | error e => simp [hwith, Except.map] at hsettings
      | ok config =>
        have hlayer : config.layer = settings.over (user.merge project).layer := by
          simpa [hwith, Except.map] using hsettings
        refine .inl ⟨user, project, settings, config.merge (plan.overrides.getD empty), huser,
          hproject, rfl, ?_, ?_⟩
        · refine layered_of_layer_eq (rootOverride_of_userLayer huser)
            (rootOverride_of_projectLayer hproject) ?_
          rw [layer_merge, hlayer]
        · rw [ok_bind]
          cases (config.merge (plan.overrides.getD empty)).validate environment.home <;> rfl
  · refine .inr ⟨e, ?_, by rw [hfiles]; rfl⟩
    exact hread.elim .inl fun hproject => .inr (.inl hproject)

end Assembly

end TrustedRoot.Config
