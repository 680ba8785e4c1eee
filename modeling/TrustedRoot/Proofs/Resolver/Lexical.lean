import TrustedRoot.Proofs.Resolver.Confinement
import TrustedRoot.Proofs.Resolver.Questions

namespace TrustedRoot

private theorem Path.confinedNames_eq_foldl (p : Path) :
    p.confinedNames = (p.components.foldl Place.step (Place.start true)).names := by
  have hfront : p.components.foldl Place.step (Place.start true) =
      p.steps.foldl Place.step (Place.start true) := by
    rw [components_eq_steps]
    split_ifs <;> rfl
  rw [hfront, confinedNames_eq_foldl_steps]

namespace Resolver

variable {answers : Answers} {root path : Path} {state next : State} {events : List Event}
  {outcome : Except Error Resolution} {run : Run}

/-- The names that the pending components lead to from the trail when nothing is
followed, innermost first. -/
def State.goal (state : State) : List Name :=
  (state.pending.foldl Place.step ⟨true, 0, state.trail⟩).trail

private theorem trailPath_goal_start (root path : Path) :
    trailPath root (State.start path).goal = root.confine path := by
  have hgoal : (State.start path).goal.reverse = path.confinedNames :=
    path.confinedNames_eq_foldl.symm
  have hnames : ∀ n ∈ path.confinedNames, ProperName n :=
    fun _ => Path.properName_of_mem_confinedNames
  rw [trailPath, hgoal, Path.confine, Path.confinedNames_ofNames hnames, Path.confine]

/-- A move that follows no link takes the step that the walk through the names takes as well. -/
theorem Move.goal_eq (hmove : Move answers root state events next)
    (hspent : next.expansions = state.expansions) : next.goal = state.goal := by
  cases hmove with
  | stay hc => rcases hc with rfl | rfl <;> rfl
  | leave | clamp | enter => rfl
  | follow | restart => simp at hspent

/-- No move takes a followed link back. -/
theorem Move.expansions_le (hmove : Move answers root state events next) :
    state.expansions ≤ next.expansions := by
  cases hmove with
  | stay | leave | clamp | enter => exact Nat.le_refl _
  | follow | restart => exact Nat.le_succ _

/-- So none is taken back in a run. -/
theorem LeadsTo.expansions_le (hrun : LeadsTo answers root path state run) {r : Resolution}
    (hr : run.outcome = .ok r) : state.expansions ≤ r.expansions := by
  induction hrun with
  | stop hstop =>
    subst hr
    cases hstop with
    | arrive => exact Nat.le_refl _
    | keep => exact Nat.le_succ _
  | move hmove _ ih => exact hmove.expansions_le.trans (ih hr)

/-- A run that succeeds without following a link ends where the names lead. -/
theorem LeadsTo.lexical (hrun : LeadsTo answers root path state run) {r : Resolution}
    (hr : run.outcome = .ok r) (hspent : r.expansions = state.expansions) :
    r.path = trailPath root state.goal ∧ r.shortCircuited = false := by
  induction hrun with
  | stop hstop =>
    subst hr
    cases hstop with
    | arrive => exact ⟨rfl, rfl⟩
    | keep => simp at hspent
  | @move state events next run hmove hrest ih =>
    have hbefore := hmove.expansions_le
    have hafter := hrest.expansions_le hr
    have hnext : next.expansions = state.expansions := by omega
    rw [← hmove.goal_eq hnext]
    exact ih hr (by omega)

/-- Every answer about an entry lets the resolution pass: no link, or nothing there. -/
def AllPass (calls : List Call) : Prop :=
  ∀ q answer, .inspect q answer ∈ calls → Passable answer

private theorem AllPass.of_append_left {front back : List Call} (hall : AllPass (front ++ back)) :
    AllPass front :=
  fun q answer hcall => hall q answer (List.mem_append_left back hcall)

private theorem AllPass.of_append_right {front back : List Call} (hall : AllPass (front ++ back)) :
    AllPass back :=
  fun q answer hcall => hall q answer (List.mem_append_right front hcall)

private theorem Move.expansions_eq_of_allPass (hmove : Move answers root state events next)
    (hpass : AllPass (calls events)) : next.expansions = state.expansions := by
  cases hmove with
  | stay | leave | clamp | enter => rfl
  | @follow trail expansions name rest entry _ _ hlink
  | @restart trail expansions name rest entry _ _ hlink =>
    have hplain : entry.isLink = false :=
      hpass (trailPath root (name :: trail)) (.ok entry) (by simp [Event.call?])
    rw [hlink] at hplain
    cases hplain

/-- Where every answer lets it pass, a resolution can only stop at its end. -/
theorem Stop.eq_ok_of_allPass (hstop : Stop answers root path state events outcome)
    (hpass : AllPass (calls events)) :
    ∃ r, outcome = .ok r ∧ r.expansions = state.expansions := by
  cases hstop with
  | arrive => exact ⟨_, rfl, rfl⟩
  | @refuse trail expansions name rest e _ hpresent =>
    have habsent : e.meansAbsent = true :=
      hpass (trailPath root (name :: trail)) (.error e) (by simp [Event.call?])
    rw [hpresent] at habsent
    cases habsent
  | @giveUp trail expansions name rest entry _ hlink
  | @unread trail expansions name rest entry _ _ hlink
  | @keep trail expansions name rest entry _ _ _ hlink =>
    have hplain : entry.isLink = false :=
      hpass (trailPath root (name :: trail)) (.ok entry) (by simp [Event.call?])
    rw [hlink] at hplain
    cases hplain

/-- A run that meets no link and no failed question succeeds and follows nothing. -/
theorem LeadsTo.eq_ok_of_allPass (hrun : LeadsTo answers root path state run)
    (hpass : AllPass (calls run.events)) :
    ∃ r, run.outcome = .ok r ∧ r.expansions = state.expansions := by
  induction hrun with
  | stop hstop => exact hstop.eq_ok_of_allPass hpass
  | move hmove _ ih =>
    rw [Run.after, calls_append] at hpass
    obtain ⟨r, hr, hexpansions⟩ := ih hpass.of_append_right
    exact ⟨r, hr, hexpansions.trans (hmove.expansions_eq_of_allPass hpass.of_append_left)⟩

/-- Without links a resolution is the confinement of the path by its spelling,
whatever the root and whatever the lookup answers. A success that followed
nothing is that confinement, and a resolution succeeds so unless it meets a link
or a question that fails. -/
theorem resolve_lexical {σ : Type} (lookup : Lookup (StateM σ)) (s : σ) (root path : Path) :
    ∃ run asked s', ((resolve (noted lookup) root path).run []).run s = ((run, asked), s') ∧
      (resolve lookup root path).run s = (run, s') ∧
      (∀ r, run.outcome = .ok r → r.expansions = 0 →
        r.path = root.confine path ∧ r.shortCircuited = false) ∧
      (AllPass asked → ∃ r, run.outcome = .ok r ∧ r.expansions = 0) := by
  have hrun := resolve_leadsTo_any lookup s root path
  refine ⟨_, _, ((resolve lookup root path).run s).2, ?_, rfl, ?_, hrun.eq_ok_of_allPass⟩
  · rw [resolve, run_walk_noted]
    rfl
  · intro r hr hspent
    rw [← trailPath_goal_start]
    exact hrun.lexical hr hspent

end Resolver
end TrustedRoot
