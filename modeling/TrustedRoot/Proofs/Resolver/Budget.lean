import TrustedRoot.Proofs.Resolver.Determinacy
import TrustedRoot.Proofs.Resolver.Discipline

namespace TrustedRoot.Resolver

/-- How many targets a run asked for, the last one included if it could not be read. -/
def Run.reads (run : Run) : Nat := (calls run.events).countP Call.isTarget

/-- How a run ends if `spent` links were followed before it began. These count
too, and the first link too many makes it a loop, whatever would have come later. -/
def Run.resumed (run : Run) (root path : Path) (spent : Nat) : Except Error Resolution :=
  match run.outcome with
  | .ok r =>
    if spent + r.expansions ≤ maxExpansions then .ok { r with expansions := spent + r.expansions }
    else .error (.symlinkLoop root path maxExpansions)
  | .error (.symlinkLoop ..) => .error (.symlinkLoop root path maxExpansions)
  | .error e =>
    if spent + run.reads ≤ maxExpansions then .error e
    else .error (.symlinkLoop root path maxExpansions)

/-- The state with more links followed before it. -/
def State.later (state : State) (spent : Nat) : State :=
  { state with expansions := spent + state.expansions }

variable {answers : Answers} {root path : Path} {state next : State} {events before : List Event}
  {result : Except Error Resolution} {run : Run} {spent : Nat}

private theorem Run.reads_after (run : Run) (events : List Event) :
    (run.after events).reads = (calls events).countP Call.isTarget + run.reads := by
  rw [reads, reads, after, calls_append, List.countP_append]

/-- A success stays one while there is room for the links before it. -/
theorem Run.resumed_of_ok (root path : Path) {r : Resolution} (hr : run.outcome = .ok r)
    (hroom : spent + r.expansions ≤ maxExpansions) :
    run.resumed root path spent = .ok { r with expansions := spent + r.expansions } := by
  simp only [resumed, hr, if_pos hroom]

/-- With too many links before it, a run ends as a loop. -/
theorem Run.resumed_of_lt (path : Path) (hfull : maxExpansions < spent + run.reads)
    (hok : ∀ r, run.outcome = .ok r → r.expansions = run.reads) :
    run.resumed root path spent = .error (.symlinkLoop root path maxExpansions) := by
  unfold resumed
  split
  · rename_i r hr
    rw [hok r hr, if_neg (not_le_of_gt hfull)]
  · rfl
  · rw [if_neg (not_le_of_gt hfull)]

/-- A move takes place later as well, unless it follows a link too many. -/
theorem Move.later (hmove : Move answers root state events next)
    (hle : spent + state.expansions ≤ maxExpansions) (path : Path) :
    (spent + next.expansions ≤ maxExpansions ∧
      ∃ events', Move answers root (state.later spent) events' (next.later spent)) ∨
    (maxExpansions < spent + next.expansions ∧
      ∃ events', Stop answers root path (state.later spent) events'
        (.error (.symlinkLoop root path maxExpansions))) := by
  cases hmove with
  | stay hc => exact .inl ⟨hle, _, .stay hc⟩
  | leave => exact .inl ⟨hle, _, .leave⟩
  | clamp => exact .inl ⟨hle, _, .clamp⟩
  | enter hanswer hpass => exact .inl ⟨hle, _, .enter hanswer hpass⟩
  | @follow trail expansions name rest entry target hentry hlink _ htarget hrelative =>
    by_cases hroom : spent + expansions < maxExpansions
    · exact .inl ⟨hroom, _, .follow hentry hlink hroom htarget hrelative⟩
    · exact .inr ⟨Nat.lt_succ_of_le (not_lt.mp hroom), _, .giveUp hentry hlink (not_lt.mp hroom)⟩
  | @restart trail expansions name rest entry target hentry hlink _ htarget habsolute houtside =>
    by_cases hroom : spent + expansions < maxExpansions
    · exact .inl ⟨hroom, _, .restart hentry hlink hroom htarget habsolute houtside⟩
    · exact .inr ⟨Nat.lt_succ_of_le (not_lt.mp hroom), _, .giveUp hentry hlink (not_lt.mp hroom)⟩

/-- A stop is made later as well, and says what the run would say that ends with
it, if `before` is what happened up to there. -/
theorem Stop.later {path' : Path} (hstop : Stop answers root path' state events result)
    (hle : spent + state.expansions ≤ maxExpansions) (path : Path)
    (hbefore : (calls before).countP Call.isTarget = state.expansions) :
    ∃ events', Stop answers root path (state.later spent) events'
      (Run.resumed ⟨before ++ events, result⟩ root path spent) := by
  cases hstop with
  | @arrive trail expansions =>
    have hend : Run.resumed ⟨before ++ [], .ok ⟨root, trailPath root trail, expansions, false⟩⟩
        root path spent = .ok ⟨root, trailPath root trail, spent + expansions, false⟩ := if_pos hle
    rw [hend]
    exact ⟨_, .arrive⟩
  | @refuse trail expansions name rest e hentry hpresent =>
    have hreads : (calls (before ++
        [.inspected (trailPath root (name :: trail)) (.error e)])).countP Call.isTarget =
          expansions := by simpa [Event.call?, Call.isTarget] using hbefore
    simp only [Run.resumed, Run.reads, hreads]
    rw [if_pos hle]
    exact ⟨_, .refuse hentry hpresent⟩
  | giveUp hentry hlink hfull =>
    exact ⟨_, .giveUp hentry hlink (hfull.trans (Nat.le_add_left _ _))⟩
  | @unread trail expansions name rest entry e hentry hlink _ htarget =>
    have hreads : (calls (before ++ [.inspected (trailPath root (name :: trail)) (.ok entry),
        .targetRead (trailPath root (name :: trail)) (.error e)])).countP Call.isTarget =
          expansions + 1 := by simpa [Event.call?, Call.isTarget] using hbefore
    simp only [Run.resumed, Run.reads, hreads]
    by_cases hroom : spent + (expansions + 1) ≤ maxExpansions
    · rw [if_pos hroom]
      exact ⟨_, .unread hentry hlink hroom htarget⟩
    · rw [if_neg hroom]
      exact ⟨_, .giveUp hentry hlink (Nat.le_of_lt_succ (not_le.mp hroom))⟩
  | @keep trail expansions name rest entry target inside hentry hlink _ htarget habsolute hinside
      hfile =>
    simp only [Run.resumed]
    by_cases hroom : spent + (expansions + 1) ≤ maxExpansions
    · rw [if_pos hroom]
      exact ⟨_, .keep hentry hlink hroom htarget habsolute hinside hfile⟩
    · rw [if_neg hroom]
      exact ⟨_, .giveUp hentry hlink (Nat.le_of_lt_succ (not_le.mp hroom))⟩

/-- Whatever a run came to, it comes to the same with more links followed before
it, up to the limit. -/
theorem LeadsTo.later {path' : Path} (hrun : LeadsTo answers root path' state run)
    (hvalid : state.Valid) (hle : spent + state.expansions ≤ maxExpansions) (path : Path)
    (hbefore : (calls before).countP Call.isTarget = state.expansions) :
    ∃ later, LeadsTo answers root path (state.later spent) later ∧
      later.outcome = (run.after before).resumed root path spent := by
  -- `before` is what the run did up to the state: it carries the links counted so far.
  induction hrun generalizing before with
  | stop hstop =>
    obtain ⟨events', hlater⟩ := hstop.later hle path hbefore
    exact ⟨_, .stop hlater, rfl⟩
  | @move state events next run hmove hrest ih =>
    have hreads : (calls (before ++ events)).countP Call.isTarget = next.expansions := by
      obtain ⟨hnext, htargets⟩ := hmove.expansions_eq
      rw [calls_append, List.countP_append, hbefore, htargets, hnext]
    have hafter : (run.after events).after before = run.after (before ++ events) := by
      simp [Run.after]
    rw [hafter]
    rcases hmove.later hle path with ⟨hroom, events', hlater⟩ | ⟨hfull, events', hlater⟩
    · obtain ⟨later, hleads, hend⟩ := ih (hmove.valid hvalid) hroom hreads
      exact ⟨_, .move hlater hleads, hend⟩
    · refine ⟨_, .stop hlater, (Run.resumed_of_lt path ?_ ?_).symm⟩
      · rw [Run.reads_after, hreads]
        omega
      · intro r hr
        have hending := hrest.ending (hmove.valid hvalid)
        rw [show run.outcome = .ok r from hr] at hending
        cases hending with
        | success _ hexpansions => rw [Run.reads_after, hreads, hexpansions, Run.reads]

/-- A resolution that begins with links already followed ends as a fresh one does,
with these counted. -/
theorem State.outcome_later (lookup : Lookup Id) (root path path' : Path)
    (hspent : spent ≤ maxExpansions) :
    State.outcome lookup root path ⟨[], spent, path'.components⟩ =
      (resolve lookup root path').run.resumed root path spent := by
  have hnone : (calls []).countP Call.isTarget = (State.start path').expansions := rfl
  obtain ⟨later, hlater, hend⟩ := (resolve_leadsTo_of lookup root path').later
    (State.Valid.start path') hspent path hnone
  exact hlater.outcome_eq.trans hend

end TrustedRoot.Resolver
