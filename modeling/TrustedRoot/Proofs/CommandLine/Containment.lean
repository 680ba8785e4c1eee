import TrustedRoot.CommandLine.Program
import TrustedRoot.Proofs.CommandLine.Steps
import TrustedRoot.Proofs.Path.Places
import TrustedRoot.Proofs.Resolver.Confinement
import TrustedRoot.Volume

namespace TrustedRoot

namespace Resolver

/-- A resolution ends where names lead to below the root, or at a target that
lies inside the root by its own spelling. The root may be relative. -/
theorem LeadsTo.path_cases {answers : Answers} {root path : Path} {state : State} {run : Run}
    (hrun : LeadsTo answers root path state run) (hvalid : state.Valid) {r : Resolution}
    (hr : run.outcome = .ok r) :
    (∃ trail, (∀ n ∈ trail, ProperName n) ∧ r.path = trailPath root trail) ∨
      ∃ target, Path.inside? target root = some r.path := by
  induction hrun with
  | stop hstop =>
    subst hr
    cases hstop with
    | @arrive trail => exact .inl ⟨trail, hvalid.trail, rfl⟩
    | @keep _ _ _ _ _ target _ _ _ _ _ _ hinside => exact .inr ⟨target, hinside⟩
  | move hmove _ ih => exact ih (hmove.valid hvalid) hr

private theorem normalize_trailPath (root : Path) (trail : List Name) :
    (trailPath root trail).normalize = trailPath root trail :=
  Path.normalize_normalize _

/-- A resolution lies inside its root, but for one spelling of a root: nothing
except `.` itself starts with the component that `.` has in its normal form. -/
theorem isWithin_of_resolve (lookup : Lookup Id) (root path : Path) {r : Resolution}
    (hr : (resolve lookup root path).run.outcome = .ok r) :
    Kinship.isWithin r.path root = true ↔
      (root.normalize = .ofString "." → r.path = .ofString ".") := by
  have hcases := (resolve_leadsTo_of lookup root path).path_cases (State.Valid.start path) hr
  have hnormal : r.path.normalize = r.path := by
    rcases hcases with ⟨trail, _, hpath⟩ | ⟨target, hinside⟩
    · rw [hpath, normalize_trailPath]
    · rw [← (Path.inside?_eq_some_iff.mp hinside).2, Path.normalize_normalize]
  have hdot (p : Path) : p.normalize = .ofString "." ↔ p.place = .here :=
    Path.normalize_eq_iff (q := .ofString ".")
  by_cases hroot : root.place = .here
  · rw [Kinship.isWithin_here_iff hroot, ← hdot r.path, hnormal, hdot root]
    simp [hroot]
  · have hne : root.normalize ≠ .ofString "." := (hdot root).not.mpr hroot
    simp only [hne, false_imp_iff, iff_true]
    rcases hcases with ⟨trail, htrail, hpath⟩ | ⟨target, hinside⟩
    · rw [hpath]
      exact Kinship.isWithin_confine_ofNames hroot (properNames_reverse htrail)
    · obtain ⟨hstarts, htarget⟩ := Path.inside?_eq_some_iff.mp hinside
      rwa [Kinship.isWithin_iff_startsWith, hnormal, ← htarget]

end Resolver

namespace CommandLine

open Session

section Steps

variable (host : Host Id) (root path : Path) (before : List Notice)

private theorem result_joinAll_singleton :
    result (joinAll host root false [path]) before =
      result (resolve host root path) before >>= fun _ => .ok () := by
  simp only [joinAll, joinOne, result_bind]
  cases result (resolve host root path) before <;> simp [printPlain]

private theorem result_checkOne :
    result (checkOne host root path) before =
      result (resolve host root path) before >>= fun r =>
        if Kinship.isWithin r.path root then .ok ()
        else .error (.refuted s!"{path.display} resolves outside {root.display}") := by
  simp only [checkOne, result_bind]
  cases result (resolve host root path) before with
  | error e => rfl
  | ok r => by_cases hwithin : Kinship.isWithin r.path root = true <;> simp [hwithin]

end Steps

variable (host : Host Id) (wording : Wording) (environment : Environment)
  (configDirectory : Option Path) (selection : Selection) (path : Path)

/-- The root that is chosen comes down to `.`, and the path is resolved to
something else below it. -/
def EntersHere : Prop :=
  ∃ root r, (chooseRoot host environment configDirectory selection).start.run.1 = .ok root ∧
    (Resolver.resolve host.toLookup root path).run.outcome = .ok r ∧
    root.normalize = .ofString "." ∧ r.path ≠ .ofString "."

/-- How both commands begin: a root is chosen, and the path resolved below it. -/
def located : Except Failure (Path × Resolution) := do
  let root ← (chooseRoot host environment configDirectory selection).start.run.1
  let r ← (Resolver.resolve host.toLookup root path).run.outcome.mapError .library
  .ok (root, r)

/-- For a single path, joining ends well wherever a root is chosen and the path resolved. -/
theorem result_run_join :
    ((Command.join selection false [path]).run host wording environment
        configDirectory).start.run.1 =
      located host environment configDirectory selection path >>= fun _ => .ok () := by
  simp only [Command.run, located, run_start, result_bind, result_joinAll_singleton, result_resolve,
    bind_assoc, ok_bind]

/-- Checking begins the same way and then asks whether the result lies within the root. -/
theorem result_run_check :
    ((Command.check selection path).run host wording environment configDirectory).start.run.1 =
      located host environment configDirectory selection path >>= fun (root, r) =>
        if Kinship.isWithin r.path root then .ok ()
        else .error (.refuted s!"{path.display} resolves outside {root.display}") := by
  simp only [Command.run, located, run_start, result_bind, result_checkOne, result_resolve,
    bind_assoc, ok_bind]

private theorem located_eq_ok_iff {root : Path} {r : Resolution} :
    located host environment configDirectory selection path = .ok (root, r) ↔
      (chooseRoot host environment configDirectory selection).start.run.1 = .ok root ∧
        (Resolver.resolve host.toLookup root path).run.outcome = .ok r := by
  simp only [located, bind_eq_ok_iff, mapError_eq_ok_iff, Except.ok.injEq, Prod.mk.injEq]
  constructor
  · rintro ⟨_, hroot, _, hr, rfl, rfl⟩
    exact ⟨hroot, hr⟩
  · rintro ⟨hroot, hr⟩
    exact ⟨root, hroot, r, hr, rfl, rfl⟩

variable {host environment configDirectory selection path}

/-- Where the clean root is `.` and the result another path, joining ends well and
checking does not. -/
theorem exitCode_of_entersHere
    (hhere : EntersHere host environment configDirectory selection path) (verbose quiet : Bool) :
    (Invocation.run host wording environment
        ⟨verbose, quiet, configDirectory, .join selection false [path]⟩).run.exitCode = 0 ∧
      (Invocation.run host wording environment
        ⟨verbose, quiet, configDirectory, .check selection path⟩).run.exitCode = 1 := by
  obtain ⟨root, r, hroot, hr, hdot, hne⟩ := hhere
  have hlocated := (located_eq_ok_iff host environment configDirectory selection path).mpr ⟨hroot, hr⟩
  have hwithin : ¬ Kinship.isWithin r.path root = true := by
    rw [Resolver.isWithin_of_resolve host.toLookup root path hr]
    exact fun himp => hne (himp hdot)
  rw [exitCode_run, exitCode_run, result_run_join, result_run_check, hlocated]
  simp [hwithin, Failure.exitCode]

/-- Everywhere else the result lies within the root, so both commands end alike. -/
theorem exitCode_eq_of_not_entersHere
    (hhere : ¬ EntersHere host environment configDirectory selection path) (verbose quiet : Bool) :
    (Invocation.run host wording environment
        ⟨verbose, quiet, configDirectory, .check selection path⟩).run.exitCode =
      (Invocation.run host wording environment
        ⟨verbose, quiet, configDirectory, .join selection false [path]⟩).run.exitCode := by
  rw [exitCode_run, exitCode_run, result_run_join, result_run_check]
  cases hlocated : located host environment configDirectory selection path with
  | error e => rfl
  | ok pair =>
    obtain ⟨root, r⟩ := pair
    obtain ⟨hroot, hr⟩ :=
      (located_eq_ok_iff host environment configDirectory selection path).mp hlocated
    have hwithin : Kinship.isWithin r.path root = true := by
      rw [Resolver.isWithin_of_resolve host.toLookup root path hr]
      intro hdot
      by_contra hne
      exact hhere ⟨root, r, hroot, hr, hdot, hne⟩
    simp [hwithin]

/-- Making sure that a path resolves inside its root ends with the same exit code
as resolving it, whatever the root, save for one kind of relative root: a result
below `.` is told to lie outside, although it is what the other command prints. -/
theorem exitCode_check_join (host : Host Id) (wording : Wording) (environment : Environment)
    (configDirectory : Option Path) (selection : Selection) (path : Path) (verbose quiet : Bool) :
    let exitCode (command : Command) :=
      (Invocation.run host wording environment
        ⟨verbose, quiet, configDirectory, command⟩).run.exitCode
    (¬ EntersHere host environment configDirectory selection path ∧
      exitCode (.check selection path) = exitCode (.join selection false [path])) ∨
    (EntersHere host environment configDirectory selection path ∧
      exitCode (.join selection false [path]) = 0 ∧ exitCode (.check selection path) = 1) := by
  by_cases hhere : EntersHere host environment configDirectory selection path
  · exact .inr ⟨hhere, exitCode_of_entersHere wording hhere verbose quiet⟩
  · exact .inl ⟨hhere, exitCode_eq_of_not_entersHere wording hhere verbose quiet⟩

/-- Below `.`, a name that is not there is printed by one command and refused by the other. -/
theorem not_forall_exitCode_eq :
    ¬ ∀ (host : Host Id) (wording : Wording) (environment : Environment)
      (configDirectory : Option Path) (selection : Selection) (path : Path) (verbose quiet : Bool),
      (Invocation.run host wording environment
          ⟨verbose, quiet, configDirectory, .check selection path⟩).run.exitCode =
        (Invocation.run host wording environment
          ⟨verbose, quiet, configDirectory, .join selection false [path]⟩).run.exitCode := by
  intro hall
  have hcodes := hall Volume.empty.host wordless bare none ⟨some (.ofString "."), none⟩
    (.ofString "a") false false
  have hroot : (chooseRoot Volume.empty.host bare none ⟨some (.ofString "."), none⟩).start.run.1 =
      .ok (.ofString ".") := by cbv
  have hr : (Resolver.resolve Volume.empty.host.toLookup (.ofString ".") (.ofString "a")).run.outcome =
      .ok ⟨.ofString ".", .ofString "a", 0, false⟩ := by cbv
  have hhere : EntersHere Volume.empty.host bare none ⟨some (.ofString "."), none⟩ (.ofString "a") :=
    ⟨_, _, hroot, hr, by cbv, by decide⟩
  obtain ⟨hjoin, hcheck⟩ := exitCode_of_entersHere wordless hhere false false
  rw [hjoin, hcheck] at hcodes
  cases hcodes

end CommandLine
end TrustedRoot
