import TrustedRoot.Proofs.CommandLine.Steps
import TrustedRoot.Proofs.Config.Layers

namespace TrustedRoot

namespace Config

open Session

/-- A check lets pass exactly what keeps a rule, and tells of the rest which field
breaks the rules. -/
def Checks (result : Except Error Unit) (rule : Prop) : Prop :=
  (rule ∧ result = .ok ()) ∨
    (¬ rule ∧ ∃ field message, result = .error (.validation field message))

namespace Checks

variable {first second : Except Error Unit} {rule rule' : Prop}

private theorem passed (hrule : rule) : Checks (.ok ()) rule := .inl ⟨hrule, rfl⟩

private theorem refused {field message : String} (hrule : ¬ rule) :
    Checks (.error (.validation field message)) rule :=
  .inr ⟨hrule, field, message, rfl⟩

/-- A check succeeds exactly if its rule is kept. -/
theorem eq_ok_iff (hfirst : Checks first rule) : first = .ok () ↔ rule := by
  rcases hfirst with ⟨hrule, rfl⟩ | ⟨hrule, field, message, rfl⟩ <;> simp [hrule]

private theorem congr (hfirst : Checks first rule) (hiff : rule ↔ rule') : Checks first rule' :=
  propext hiff ▸ hfirst

/-- One check after the other. -/
theorem bind (hfirst : Checks first rule) (hsecond : Checks second rule') :
    Checks (first >>= fun _ => second) (rule ∧ rule') := by
  rcases hfirst with ⟨hrule, rfl⟩ | ⟨hrule, field, message, rfl⟩
  · exact hsecond.congr (by simp [hrule])
  · exact refused fun hboth => hrule hboth.1

end Checks

/-- The characters that the rules allow in the name of a root. -/
def NameChar (c : Char) : Prop :=
  ('A' ≤ c ∧ c ≤ 'Z') ∨ ('a' ≤ c ∧ c ≤ 'z') ∨ ('0' ≤ c ∧ c ≤ '9') ∨ c = '_' ∨ c = '.' ∨ c = '-'

private theorem isNameChar_iff (c : Char) : isNameChar c = true ↔ NameChar c := by
  simp [isNameChar, NameChar, Char.isAlphanum, Char.isAlpha, Char.isUpper, Char.isLower,
    Char.isDigit, Char.le_def, or_assoc]

/-- A name that a root can have. -/
def NameOk (name : String) : Prop := name ≠ "" ∧ ∀ c ∈ name.toList, NameChar c

/-- A path that comes to an absolute one once its tilde is expanded. -/
def Expands (home : Option Path) (path : Path) : Prop :=
  ∃ expanded, path.expandHome home = .ok expanded ∧ expanded.isAbsolute = true

/-- A name is let pass if it is one that a root can have. -/
theorem checkName_checks (name : String) : Checks (checkName name) (NameOk name) := by
  unfold checkName
  split_ifs with hempty hchars
  · exact .refused fun hname => hname.1 (String.isEmpty_iff.mp hempty)
  · refine .passed ⟨fun hname => hempty (String.isEmpty_iff.mpr hname), fun c hc => ?_⟩
    exact (isNameChar_iff c).mp (List.all_eq_true.mp hchars c hc)
  · refine .refused fun hname => hchars (List.all_eq_true.mpr fun c hc => ?_)
    exact (isNameChar_iff c).mpr (hname.2 c hc)

private theorem expandHome_of_empty {path : Path} (hempty : path.bytes = []) (home : Option Path) :
    path.expandHome home = .ok path := by
  unfold Path.expandHome
  rw [hempty]
  split_ifs <;> rfl

/-- A path is let pass if it comes to an absolute one. -/
theorem checkPath_checks (home : Option Path) (field : String) (path : Path) :
    Checks (checkPath home field path) (Expands home path) := by
  unfold checkPath Expands
  split_ifs with hempty
  · -- The check for an empty path only has a message of its own: it is not absolute either.
    refine .refused ?_
    rintro ⟨expanded, hexpanded, habsolute⟩
    rw [expandHome_of_empty hempty] at hexpanded
    obtain rfl := Except.ok.inj hexpanded
    simp [Path.isAbsolute, hempty] at habsolute
  · cases hexpanded : path.expandHome home with
    | error e => exact .refused (by simp)
    | ok expanded =>
      by_cases habsolute : expanded.isAbsolute = true
      · simp only [habsolute, if_true]
        exact .passed ⟨expanded, rfl, habsolute⟩
      · simp only [habsolute]
        exact .refused (by simpa using habsolute)

private theorem checkRoots_checks (home : Option Path) (pairs : List (String × Path)) :
    Checks (checkRoots home pairs) (∀ pair ∈ pairs, NameOk pair.1 ∧ Expands home pair.2) := by
  induction pairs with
  | nil => exact .passed (by simp)
  | cons pair rest ih =>
    obtain ⟨name, path⟩ := pair
    have hfirst := checkName_checks name
    have hsecond := checkPath_checks home s!"roots.{name}" path
    exact (hfirst.bind (hsecond.bind ih)).congr (by simp [and_assoc])

/-- A default is let pass if a root has its name. -/
theorem checkDefault_checks (config : Config) :
    Checks (checkDefault config) (∀ name, config.defaultRoot = some name → name ∈ config.roots) := by
  unfold checkDefault
  cases config.defaultRoot with
  | none => exact .passed (by simp)
  | some name =>
    by_cases hknown : config.roots.contains name = true
    · simp only [hknown, if_true]
      refine .passed ?_
      rintro _ ⟨⟩
      exact hknown
    · simp only [hknown]
      exact .refused fun hall => hknown (hall name rfl)

private theorem checkOverride_checks (home : Option Path) (config : Config) :
    Checks (checkOverride home config)
      (∀ path, config.rootOverride = some path → Expands home path) := by
  unfold checkOverride
  cases config.rootOverride with
  | none => exact .passed (by simp)
  | some path => exact (checkPath_checks home "root_override" path).congr (by simp)

/-- A configuration whose roots can all be used. -/
structure Usable (config : Config) (home : Option Path) : Prop where
  name : ∀ name ∈ config.roots, NameOk name
  root : ∀ name ∈ config.roots, ∃ path, config.root home name = .ok path ∧ path.isAbsolute = true
  defaultRoot : ∀ name, config.defaultRoot = some name → name ∈ config.roots
  rootOverride : ∀ path, config.rootOverride = some path → Expands home path

/-- The root of a name is its path with the tilde expanded. -/
theorem root_of_getElem? {config : Config} {name : String} {path : Path}
    (hpath : config.roots[name]? = some path) (home : Option Path) :
    config.root home name = path.expandHome home := by
  simp [root, hpath]

/-- A name that no root has is unknown. -/
theorem root_of_not_mem {config : Config} {name : String} (hname : name ∉ config.roots)
    (home : Option Path) : config.root home name = .error (.unknownRoot name) := by
  simp [root, Std.ExtTreeMap.getElem?_eq_none hname]

private theorem usable_iff {home : Option Path} {config : Config} :
    config.Usable home ↔
      (∀ pair ∈ config.roots.toList, NameOk pair.1 ∧ Expands home pair.2) ∧
      (∀ name, config.defaultRoot = some name → name ∈ config.roots) ∧
      ∀ path, config.rootOverride = some path → Expands home path := by
  simp only [Prod.forall, Std.ExtTreeMap.mem_toList_iff_getElem?_eq_some]
  constructor
  · intro husable
    refine ⟨fun name path hpath => ?_, husable.defaultRoot, husable.rootOverride⟩
    have hname : name ∈ config.roots := by
      rw [Std.ExtTreeMap.mem_iff_isSome_getElem?, hpath]
      rfl
    obtain ⟨expanded, hexpanded, habsolute⟩ := husable.root name hname
    rw [root_of_getElem? hpath] at hexpanded
    exact ⟨husable.name name hname, expanded, hexpanded, habsolute⟩
  · rintro ⟨hroots, hdefault, hoverride⟩
    refine ⟨fun name hname => ?_, fun name hname => ?_, hdefault, hoverride⟩
    all_goals
      obtain ⟨path, hpath⟩ := Option.isSome_iff_exists.mp
        (Std.ExtTreeMap.mem_iff_isSome_getElem?.mp hname)
      obtain ⟨hok, expanded, hexpanded, habsolute⟩ := hroots name path hpath
    · exact hok
    · exact ⟨expanded, (root_of_getElem? hpath home).trans hexpanded, habsolute⟩

/-- Validation lets pass exactly the configurations whose roots can all be used. -/
theorem validate_checks (home : Option Path) (config : Config) :
    Checks (config.validate home) (config.Usable home) := by
  have hroots := checkRoots_checks home config.roots.toList
  have hrest := (checkDefault_checks config).bind (checkOverride_checks home config)
  exact (hroots.bind hrest).congr usable_iff.symm

/-- A configuration from which every root that can be asked for is absolute or, if no
one gave it a name, unknown; the default one is there if one was set. -/
structure Ready (config : Config) (home : Option Path) : Prop where
  root : ∀ name, (∃ path, config.root home name = .ok path ∧ path.isAbsolute = true) ∨
    config.root home name = .error (.unknownRoot name)
  defaultRootPath : ∃ found, config.defaultRootPath home = .ok found ∧
    (found.isSome ↔ config.rootOverride.isSome ∨ config.defaultRoot.isSome) ∧
    ∀ path, found = some path → path.isAbsolute = true

/-- Every root of a usable configuration is ready to be asked for. -/
theorem Usable.ready {home : Option Path} {config : Config} (husable : config.Usable home) :
    config.Ready home := by
  refine ⟨fun name => ?_, ?_⟩
  · by_cases hname : name ∈ config.roots
    · exact .inl (husable.root name hname)
    · exact .inr (root_of_not_mem hname home)
  · unfold defaultRootPath
    cases hoverride : config.rootOverride with
    | some path =>
      obtain ⟨expanded, hexpanded, habsolute⟩ := husable.rootOverride path hoverride
      exact ⟨some expanded, by simp [hexpanded, Except.map], by simp, by simpa using habsolute⟩
    | none =>
      cases hdefault : config.defaultRoot with
      | none => exact ⟨none, rfl, by simp, by simp⟩
      | some name =>
        obtain ⟨path, hpath, habsolute⟩ := husable.root name (husable.defaultRoot name hdefault)
        exact ⟨some path, by simp [hpath, Except.map], by simp, by simpa using habsolute⟩

/-- Whatever is assembled can be used. -/
theorem usable_of_assemble {host : Host Id} {environment : Environment} {plan : Plan}
    {config : Config} (hok : (assemble host environment plan).start.run.1 = .ok config) :
    config.Usable environment.home := by
  rcases result_assemble_cases host environment plan with
    ⟨_, _, _, laid, _, _, _, _, houtcome⟩ | ⟨e, _, houtcome⟩
  · obtain ⟨_, hvalid, rfl⟩ := map_eq_ok_iff.mp (houtcome.symm.trans hok)
    exact (validate_checks environment.home laid).eq_ok_iff.mp hvalid
  · simp [houtcome] at hok

end Config

namespace CommandLine

open Session

/-- A root that is not given itself comes out of a configuration that was put to the rules. -/
theorem isAbsolute_of_chooseRoot {host : Host Id} {environment : Environment}
    {configDirectory : Option Path} {selection : Selection} {root : Path}
    (hselection : selection.root = none)
    (hroot : (chooseRoot host environment configDirectory selection).start.run.1 = .ok root) :
    root.isAbsolute = true := by
  rw [run_start] at hroot
  simp only [chooseRoot, hselection, result_bind, result_loadConfig] at hroot
  obtain ⟨config, hconfig, hchosen⟩ := bind_eq_ok_iff.mp hroot
  have hready := (Config.usable_of_assemble (mapError_eq_ok_iff.mp hconfig)).ready
  cases hname : selection.rootName with
  | some name =>
    have hnamed : config.root environment.home name = .ok root := by
      simpa only [hname, result_checkLibrary, mapError_eq_ok_iff] using hchosen
    rcases hready.root name with ⟨path, hpath, habsolute⟩ | hunknown
    · rwa [Except.ok.inj (hnamed.symm.trans hpath)]
    · cases hnamed.symm.trans hunknown
  | none =>
    obtain ⟨found, hfound, _, habsolute⟩ := hready.defaultRootPath
    simp only [hname, result_bind, result_checkLibrary, hfound, Except.mapError, ok_bind] at hchosen
    cases found with
    | none => cases hchosen
    | some path =>
      obtain rfl := Except.ok.inj hchosen
      exact habsolute path rfl

/-- The rules are exactly what looking up roots needs: a configuration keeps them if and
only if all its roots can be used, and what breaks them is named by its field. So no
configuration that was assembled leads to a root that is not absolute, by whatever way
it is asked for. -/
theorem validate_guards_roots :
    (∀ (config : Config) (home : Option Path),
      (config.validate home = .ok () ↔ config.Usable home) ∧
      (¬ config.Usable home →
        ∃ field message, config.validate home = .error (.validation field message))) ∧
    (∀ (host : Host Id) (environment : Environment) (plan : Config.Plan) (config : Config),
      (Config.assemble host environment plan).start.run.1 = .ok config →
        config.Ready environment.home) ∧
    ∀ (host : Host Id) (environment : Environment) (configDirectory : Option Path)
      (selection : Selection) (root : Path), selection.root = none →
        (chooseRoot host environment configDirectory selection).start.run.1 = .ok root →
          root.isAbsolute = true := by
  refine ⟨fun config home => ⟨?_, fun hunusable => ?_⟩, fun host environment plan config hok => ?_,
    fun host environment configDirectory selection root hselection hroot => ?_⟩
  · exact (Config.validate_checks home config).eq_ok_iff
  · rcases Config.validate_checks home config with ⟨husable, _⟩ | ⟨_, hrefused⟩
    · exact absurd husable hunusable
    · exact hrefused
  · exact (Config.usable_of_assemble hok).ready
  · exact isAbsolute_of_chooseRoot hselection hroot

end CommandLine
end TrustedRoot
