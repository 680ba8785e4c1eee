import TrustedRoot.Proofs.Resolver.Stability

namespace TrustedRoot.Resolver

/-- How a resolution goes on that has come to a state. -/
def State.run (lookup : Lookup Id) (root path : Path) (state : State) : Run :=
  (walk lookup root path state.trail state.expansions state.pending).run

/-- How a resolution ends that has come to a state. -/
def State.outcome (lookup : Lookup Id) (root path : Path) (state : State) :
    Except Error Resolution :=
  (walk lookup root path state.trail state.expansions state.pending).run.outcome

/-- A path is resolved from the state that it starts in. -/
theorem outcome_resolve (lookup : Lookup Id) (root path : Path) :
    (resolve lookup root path).run.outcome = (State.start path).outcome lookup root path :=
  rfl

private theorem State.outcome_eq_run (lookup : Lookup Id) (root path : Path) (state : State) :
    state.outcome lookup root path = (state.run lookup root path).outcome :=
  rfl

variable {lookup : Lookup Id} {answers : Answers} {root path : Path} {state next : State}
  {events : List Event} {result : Except Error Resolution} {run : Run}

/-- A lookup gives one answer about an entry. -/
theorem Answers.entry_of_iff {p : Path} {answer : Except IoError Entry} :
    (Answers.of lookup).entry p answer ↔ (lookup.inspect p).run = answer :=
  eq_comm

/-- And one about a target. -/
theorem Answers.target_of_iff {p : Path} {answer : Except IoError Path} :
    (Answers.of lookup).target p answer ↔ (lookup.target p).run = answer :=
  eq_comm

/-- Each move is a step of the walk, so the resolution goes on from where it leads. -/
theorem Move.run_eq (hmove : Move (.of lookup) root state events next) (path : Path) :
    state.run lookup root path = (next.run lookup root path).after events := by
  cases hmove with
  | stay hc => rcases hc with rfl | rfl <;> rw [State.run, walk] <;> rfl
  | leave | clamp =>
    rw [State.run, walk]
    rfl
  | enter hanswer hpass =>
    rw [Answers.entry_of_iff] at hanswer
    subst hanswer
    exact run_walk_name hpass path _ _
  | follow hentry hlink hroom htarget hrelative =>
    rw [Answers.entry_of_iff, trailPath] at hentry
    rw [Answers.target_of_iff, trailPath] at htarget
    rw [State.run, walk]
    simp only [Id.run_bind, hentry, hlink, Bool.not_true, Bool.false_eq_true, if_false,
      if_neg (not_le_of_gt hroom), htarget, hrelative]
    rfl
  | @restart trail expansions name rest entry target hentry hlink hroom htarget habsolute houtside =>
    rw [Answers.entry_of_iff, trailPath] at hentry
    rw [Answers.target_of_iff, trailPath] at htarget
    have hnone : (if entry.isDirectory then none else target.inside? root) = none := by
      rcases houtside with hdirectory | houtside
      · exact if_pos hdirectory
      · rw [houtside, ite_self]
    rw [State.run, walk]
    simp only [Id.run_bind, hentry, hlink, Bool.not_true, Bool.false_eq_true, if_false,
      if_neg (not_le_of_gt hroom), htarget, habsolute, if_true, hnone]
    rfl

/-- From a state in which it stops, a run is just that stop. -/
theorem Stop.run_eq (hstop : Stop (.of lookup) root path state events result) :
    state.run lookup root path = ⟨events, result⟩ := by
  cases hstop with
  | arrive =>
    rw [State.run, walk]
    rfl
  | refuse hentry hpresent =>
    rw [Answers.entry_of_iff, trailPath] at hentry
    rw [State.run, walk]
    simp only [Id.run_bind, hentry, hpresent, Bool.false_eq_true, if_false]
    rfl
  | giveUp hentry hlink hfull =>
    rw [Answers.entry_of_iff, trailPath] at hentry
    rw [State.run, walk]
    simp only [Id.run_bind, hentry, hlink, Bool.not_true, Bool.false_eq_true, if_false,
      if_pos hfull]
    rfl
  | unread hentry hlink hroom htarget =>
    rw [Answers.entry_of_iff, trailPath] at hentry
    rw [Answers.target_of_iff, trailPath] at htarget
    rw [State.run, walk]
    simp only [Id.run_bind, hentry, hlink, Bool.not_true, Bool.false_eq_true, if_false,
      if_neg (not_le_of_gt hroom), htarget]
    rfl
  | keep hentry hlink hroom htarget habsolute hinside hfile =>
    rw [Answers.entry_of_iff, trailPath] at hentry
    rw [Answers.target_of_iff, trailPath] at htarget
    rw [State.run, walk]
    simp only [Id.run_bind, hentry, hlink, Bool.not_true, Bool.false_eq_true, if_false,
      if_neg (not_le_of_gt hroom), htarget, habsolute, if_true, hfile, hinside]
    rfl

/-- A run that the answers of a lookup lead to is the resolution itself. -/
theorem LeadsTo.run_eq (hrun : LeadsTo (.of lookup) root path state run) :
    state.run lookup root path = run := by
  induction hrun with
  | stop hstop => exact hstop.run_eq
  | move hmove _ ih => rw [hmove.run_eq path, ih]

/-- A move does not change how a resolution ends. -/
theorem Move.outcome_eq (hmove : Move (.of lookup) root state events next) (path : Path) :
    state.outcome lookup root path = next.outcome lookup root path := by
  rw [State.outcome_eq_run, hmove.run_eq path]
  rfl

/-- A resolution ends as it stops. -/
theorem Stop.outcome_eq (hstop : Stop (.of lookup) root path state events result) :
    state.outcome lookup root path = result := by
  rw [State.outcome_eq_run, hstop.run_eq]

/-- A run from a state ends as the resolution from there does. -/
theorem LeadsTo.outcome_eq (hrun : LeadsTo (.of lookup) root path state run) :
    state.outcome lookup root path = run.outcome := by
  rw [State.outcome_eq_run, hrun.run_eq]

end TrustedRoot.Resolver
