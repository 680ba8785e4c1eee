import TrustedRoot.Config.Variables
import TrustedRoot.Proofs.Session

namespace TrustedRoot

/-- The surroundings with the given variables set as they are, and no others. -/
def Environment.only (environment : Environment) (names : List String) : Environment :=
  { environment with
    setting? := fun name => if name ∈ names then environment.setting? name else none }

private theorem Environment.text?_only (environment : Environment) (names : List String)
    (name : String) : (environment.only names).text? name =
      if name ∈ names then environment.text? name else none := by
  split_ifs with hname <;> simp [only, text?, hname]

namespace Config

open Session

/-- A variable, and what its text makes of a configuration. -/
structure Use where
  name : String
  apply : Config → String → Except Error Config

/-- The variables in the order in which they are laid over a configuration. -/
def uses : List Use :=
  [⟨rootVariable, fun config value => do
      let value ← notBlank rootVariable value
      .ok { config with rootOverride := some (.ofString value) }⟩,
    ⟨defaultRootVariable, fun config value => do
      let value ← notBlank defaultRootVariable value
      .ok { config with defaultRoot := some value }⟩,
    ⟨rootsVariable, fun config value => do
      .ok (config.insertRoots (← parseRoots value))⟩]

/-- Variables laid over a configuration one after the other, up to the first bad one. -/
def applyEach (environment : Environment) : List Use → Config → Config × Except Error Unit
  | [], config => (config, .ok ())
  | use :: rest, config =>
    match applyVariable environment use.name config (use.apply config) with
    | (config, .error e) => (config, .error e)
    | (config, .ok ()) => applyEach environment rest config

/-- The program lays the variables of `uses` over a configuration, in that order. -/
theorem applyVariables_eq_applyEach (environment : Environment) (config : Config) :
    applyVariables environment config = applyEach environment uses config := by
  simp only [applyVariables, uses, applyEach]
  rcases applyVariable environment rootVariable config _ with ⟨config₁, _ | _⟩
  · rfl
  · dsimp only
    rcases applyVariable environment defaultRootVariable config₁ _ with ⟨config₂, _ | _⟩
    · rfl
    · dsimp only
      rcases applyVariable environment rootsVariable config₂ _ with ⟨config₃, _ | _⟩ <;> rfl

section Runs

variable {environment : Environment} {config after : Config} {e : Error}

/-- A variable that fails leaves the configuration as it is. -/
theorem applyVariable_eq_error_iff {name : String} {use : String → Except Error Config} :
    applyVariable environment name config use = (after, .error e) ↔
      after = config ∧ ∃ value, environment.text? name = some value ∧ use value = .error e := by
  unfold applyVariable
  cases environment.text? name with
  | none => simp
  | some value => cases hused : use value <;> simp [hused, eq_comm]

private theorem applyVariable_of_unset {name : String} (hunset : environment.text? name = none)
    (use : String → Except Error Config) :
    applyVariable environment name config use = (config, .ok ()) := by
  simp [applyVariable, hunset]

/-- Variables that are not set change nothing. -/
theorem applyEach_of_unset (config : Config) {rest : List Use}
    (hunset : ∀ use ∈ rest, environment.text? use.name = none) :
    applyEach environment rest config = (config, .ok ()) := by
  induction rest with
  | nil => rfl
  | cons use rest ih =>
    obtain ⟨huse, hrest⟩ := List.forall_mem_cons.mp hunset
    rw [applyEach, applyVariable_of_unset huse]
    exact ih hrest

private theorem applyEach_congr {environment' : Environment} {steps : List Use}
    (hsame : ∀ use ∈ steps, environment.text? use.name = environment'.text? use.name) :
    applyEach environment steps = applyEach environment' steps := by
  induction steps with
  | nil =>
    funext config
    rfl
  | cons use rest ih =>
    obtain ⟨huse, hrest⟩ := List.forall_mem_cons.mp hsame
    funext config
    simp only [applyEach, applyVariable, huse, ih hrest]

private theorem applyEach_append {front back : List Use} {between : Config}
    (hfront : applyEach environment front config = (between, .ok ())) :
    applyEach environment (front ++ back) config = applyEach environment back between := by
  induction front generalizing config with
  | nil =>
    cases hfront
    rfl
  | cons use rest ih =>
    rw [List.cons_append, applyEach]
    rw [applyEach] at hfront
    rcases hstep : applyVariable environment use.name config (use.apply config) with ⟨next, _ | _⟩
    · simp [hstep] at hfront
    · rw [hstep] at hfront
      exact ih hfront

/-- Laying variables over a configuration fails at one of them: those in front of it
are laid over the configuration, and that one fails where they have led. -/
theorem exists_bad_of_applyEach {steps : List Use}
    (hfails : applyEach environment steps config = (after, .error e)) :
    ∃ front use back, steps = front ++ use :: back ∧
      applyEach environment front config = (after, .ok ()) ∧
      ∃ value, environment.text? use.name = some value ∧ use.apply after value = .error e := by
  induction steps generalizing config with
  | nil => cases hfails
  | cons use rest ih =>
    rw [applyEach] at hfails
    split at hfails
    · rename_i hstep
      cases hfails
      obtain ⟨rfl, hbad⟩ := applyVariable_eq_error_iff.mp hstep
      exact ⟨[], use, rest, rfl, rfl, hbad⟩
    · rename_i next hstep
      obtain ⟨front, bad, back, rfl, hfront, hbad⟩ := ih hfails
      refine ⟨use :: front, bad, back, rfl, ?_, hbad⟩
      rw [applyEach, hstep]
      exact hfront

/-- A variable that does not fail leaves the configuration as it is or makes the new one. -/
theorem applyVariable_eq_ok {name : String} {use : String → Except Error Config}
    (hused : applyVariable environment name config use = (after, .ok ())) :
    after = config ∨ ∃ value, use value = .ok after := by
  unfold applyVariable at hused
  split at hused
  · cases hused
    exact .inl rfl
  · rename_i value _
    split at hused
    · rename_i used hvalue
      cases hused
      exact .inr ⟨value, hvalue⟩
    · cases hused

/-- Only the last of the variables has roots to add. -/
theorem roots_of_mem_dropLast {use : Use} (huse : use ∈ uses.dropLast) {value : String}
    (hvalue : use.apply config value = .ok after) : after.roots = config.roots := by
  simp only [uses, List.dropLast, List.mem_cons, List.not_mem_nil, or_false] at huse
  rcases huse with rfl | rfl
  all_goals
    obtain ⟨_, _, hset⟩ := bind_eq_ok_iff.mp hvalue
    cases hset
    rfl

/-- No variable but the last one touches the roots. -/
theorem roots_applyEach {steps : List Use} (hsteps : ∀ use ∈ steps, use ∈ uses.dropLast)
    (hlaid : applyEach environment steps config = (after, .ok ())) :
    after.roots = config.roots := by
  induction steps generalizing config with
  | nil =>
    cases hlaid
    rfl
  | cons use rest ih =>
    obtain ⟨huse, hrest⟩ := List.forall_mem_cons.mp hsteps
    rw [applyEach] at hlaid
    rcases hstep : applyVariable environment use.name config (use.apply config) with ⟨next, _ | _⟩
    · simp [hstep] at hlaid
    · rw [hstep] at hlaid
      rw [ih hrest hlaid]
      rcases applyVariable_eq_ok hstep with rfl | ⟨value, hvalue⟩
      · rfl
      · exact roots_of_mem_dropLast huse hvalue

/-- Whether the text of a variable is bad has nothing to do with the configuration. -/
theorem apply_eq_error_of_mem {use : Use} (huse : use ∈ uses) {value : String}
    (hvalue : use.apply config value = .error e) (other : Config) :
    use.apply other value = .error e := by
  simp only [uses, List.mem_cons, List.not_mem_nil, or_false] at huse
  rcases huse with rfl | rfl | rfl
  · cases hread : notBlank rootVariable value <;> simp_all
  · cases hread : notBlank defaultRootVariable value <;> simp_all
  · cases hread : parseRoots value <;> simp_all

private theorem nodup_uses : (uses.map Use.name).Nodup := by decide

variable {front back : List Use} {use : Use}

/-- With only some variables set, they are laid over a configuration as before, and
those behind them change nothing. -/
theorem applyEach_only_front (hdisjoint : (front.map Use.name).Disjoint (back.map Use.name))
    (hfront : applyEach environment front config = (after, .ok ())) :
    applyEach (environment.only (front.map Use.name)) (front ++ back) config = (after, .ok ()) := by
  have halone :
      applyEach (environment.only (front.map Use.name)) front config = (after, .ok ()) := by
    rw [← hfront, applyEach_congr fun use huse => ?_]
    rw [Environment.text?_only, if_pos (List.mem_map_of_mem huse)]
  rw [applyEach_append halone]
  refine applyEach_of_unset _ fun use huse => ?_
  rw [Environment.text?_only, if_neg fun hname => hdisjoint hname (List.mem_map_of_mem huse)]

/-- Set by itself, the bad variable is rejected just the same. -/
theorem applyEach_only_bad {value : String} (hname : use.name ∉ front.map Use.name)
    (hset : environment.text? use.name = some value) (hbad : use.apply config value = .error e) :
    applyEach (environment.only [use.name]) (front ++ use :: back) config = (config, .error e) := by
  have hskipped : applyEach (environment.only [use.name]) front config = (config, .ok ()) := by
    refine applyEach_of_unset _ fun earlier hearlier => ?_
    have hother : earlier.name ∉ [use.name] := by
      rw [List.mem_singleton]
      exact fun hsame => hname (hsame ▸ List.mem_map_of_mem hearlier)
    rw [Environment.text?_only, if_neg hother]
  have hfailing : applyVariable (environment.only [use.name]) use.name config (use.apply config) =
      (config, .error e) := by
    refine applyVariable_eq_error_iff.mpr ⟨rfl, value, ?_, hbad⟩
    rw [Environment.text?_only, if_pos List.mem_cons_self, hset]
  rw [applyEach_append hskipped, applyEach, hfailing]

end Runs

/-- What is left of a configuration when the variables fail is what those in front of
the bad one alone make of it, each laid over it entirely. The bad one leaves every
configuration as it is, whatever the others say, and those behind it are not looked
at. So the roots, which come last, are never touched. -/
theorem applyVariables_error {environment : Environment} {config after : Config} {e : Error}
    (hfails : applyVariables environment config = (after, .error e)) :
    (∃ front name back,
      [rootVariable, defaultRootVariable, rootsVariable] = front ++ name :: back ∧
        applyVariables (environment.only front) config = (after, .ok ()) ∧
        (∀ other, applyVariables (environment.only [name]) other = (other, .error e)) ∧
        ((∀ earlier ∈ front, environment.text? earlier = none) → after = config)) ∧
      after.roots = config.roots := by
  simp only [applyVariables_eq_applyEach] at hfails ⊢
  obtain ⟨front, use, back, hsplit, hfront, value, hset, hbad⟩ := exists_bad_of_applyEach hfails
  have huse : use ∈ uses := hsplit ▸ List.mem_append_right _ List.mem_cons_self
  have hnodup : (front.map Use.name ++ (use :: back).map Use.name).Nodup := by
    rw [← List.map_append, ← hsplit]
    exact nodup_uses
  have hdisjoint := List.disjoint_of_nodup_append hnodup
  refine ⟨⟨front.map Use.name, use.name, back.map Use.name, ?_, ?_, fun other => ?_, ?_⟩, ?_⟩
  · rw [← List.map_cons, ← List.map_append, ← hsplit]
    rfl
  · rw [hsplit]
    exact applyEach_only_front hdisjoint hfront
  · rw [hsplit]
    exact applyEach_only_bad (fun hname => hdisjoint hname List.mem_cons_self) hset
      (apply_eq_error_of_mem huse hbad other)
  · intro hunset
    have hidle := applyEach_of_unset config
      fun use huse => hunset use.name (List.mem_map_of_mem huse)
    exact congrArg Prod.fst (hfront.symm.trans hidle)
  · refine roots_applyEach (fun earlier hearlier => ?_) hfront
    rw [hsplit, List.dropLast_append_cons]
    exact List.mem_append_left _ hearlier

/-- Surroundings with a good variable in front of a bad one. -/
def halfSet : Environment where
  home := none
  workingDirectory := .ok Path.rootDirectory
  setting? name :=
    if name = rootVariable then some (Utf8.encode "/jail")
    else if name = defaultRootVariable then some (Utf8.encode " ")
    else none

private theorem applyVariables_halfSet :
    applyVariables halfSet empty = (⟨none, ∅, some (Path.ofString "/jail")⟩,
      .error (.validation defaultRootVariable "Cannot be empty")) := by
  cbv

/-- The variable in front of the bad one has been laid over the configuration. -/
theorem applyVariables_error_halfSet :
    applyVariables halfSet empty = (⟨none, ∅, some (Path.ofString "/jail")⟩,
        .error (.validation defaultRootVariable "Cannot be empty")) ∧
      ∃ front, applyVariables (halfSet.only front) empty =
        (⟨none, ∅, some (Path.ofString "/jail")⟩, .ok ()) := by
  obtain ⟨⟨front, _, _, _, halone, _⟩, _⟩ := applyVariables_error applyVariables_halfSet
  exact ⟨applyVariables_halfSet, front, halone⟩

/-- A bad variable does not undo what those in front of it have changed. -/
theorem not_forall_eq_of_applyVariables_error :
    ¬ ∀ (environment : Environment) (config after : Config) (e : Error),
      applyVariables environment config = (after, .error e) → after = config := by
  intro hall
  have hsame := congrArg Config.rootOverride (hall _ _ _ _ applyVariables_halfSet)
  cases hsame

end Config
end TrustedRoot
