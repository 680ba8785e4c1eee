import TrustedRoot.Proofs.Path.Confinement
import TrustedRoot.Proofs.Resolver.Determinacy
import TrustedRoot.Proofs.Resolver.Questions

namespace TrustedRoot

namespace Path

/-- The names and `..` of a path, without the `..` that it begins with. -/
def course (p : Path) : List Component := p.steps.dropWhile (· = .parent)

/-- A path with so many `../` in front. -/
def climbing (levels : Nat) (p : Path) : Path :=
  ⟨(List.replicate levels [dot, dot, slash]).flatten ++ p.bytes⟩

private theorem steps_climbing (levels : Nat) (p : Path) :
    (p.climbing levels).steps = List.replicate levels .parent ++ p.steps := by
  induction levels with
  | zero => rfl
  | succ levels ih =>
    have hfront : (p.climbing (levels + 1)).steps =
        steps ⟨[dot, dot]⟩ ++ (p.climbing levels).steps := by
      rw [← steps_append_slash, climbing, List.replicate_succ]
      simp [climbing]
    rw [hfront, ih, List.replicate_succ]
    rfl

/-- Climbing at the start does not change the course of a path. -/
theorem course_climbing (levels : Nat) (p : Path) : (p.climbing levels).course = p.course := by
  rw [course, steps_climbing, course, List.dropWhile_append_of_pos]
  intro c hc
  simp [List.eq_of_mem_replicate hc]

/-- Nor does a separator in front. -/
theorem course_slash_cons (p : Path) : course ⟨slash :: p.bytes⟩ = p.course := by
  have hsteps := steps_append_slash [] p.bytes
  rw [List.nil_append, steps_nil, List.nil_append] at hsteps
  rw [course, hsteps, course]

end Path

namespace Resolver

/-- Two ends that are the same but for the root and the path that they quote. -/
inductive SameButQuoted (root₁ path₁ root₂ path₂ : Path) :
    Except Error Resolution → Except Error Resolution → Prop where
  | success {found expansions shortCircuited} :
      SameButQuoted root₁ path₁ root₂ path₂ (.ok ⟨root₁, found, expansions, shortCircuited⟩)
        (.ok ⟨root₂, found, expansions, shortCircuited⟩)
  | loop :
      SameButQuoted root₁ path₁ root₂ path₂ (.error (.symlinkLoop root₁ path₁ maxExpansions))
        (.error (.symlinkLoop root₂ path₂ maxExpansions))
  | failure {q e} :
      SameButQuoted root₁ path₁ root₂ path₂ (.error (.lookup q e)) (.error (.lookup q e))

/-- Two resolutions that ask the same and end the same way. -/
structure Interchangeable (lookup : Lookup Id) (root₁ path₁ root₂ path₂ : Path) : Prop where
  asked_eq : asked lookup root₁ path₁ = asked lookup root₂ path₂
  outcome : SameButQuoted root₁ path₁ root₂ path₂ (resolve lookup root₁ path₁).run.outcome
    (resolve lookup root₂ path₂).run.outcome

variable {answers : Answers} {lookup : Lookup Id} {root path root₁ path₁ root₂ : Path}
  {state next : State} {events : List Event} {result : Except Error Resolution} {run : Run}

private theorem trailPath_respelled (hroots : root₁.normalize = root₂.normalize)
    (trail : List Name) : trailPath root₁ trail = trailPath root₂ trail :=
  Path.confine_congr hroots _

private theorem inside?_respelled (hroots : root₁.normalize = root₂.normalize) (target : Path) :
    target.inside? root₁ = target.inside? root₂ := by
  rw [Path.inside?, Path.inside?, hroots]

/-- A move goes by the normal form of the root. Only the note of a `..` that
stays at the root quotes its spelling. -/
theorem Move.respelled (hmove : Move answers root₁ state events next)
    (hroots : root₁.normalize = root₂.normalize) :
    ∃ events', Move answers root₂ state events' next ∧ calls events = calls events' := by
  cases hmove with
  | stay hc => exact ⟨_, .stay hc, rfl⟩
  | leave => exact ⟨_, .leave, rfl⟩
  | clamp => exact ⟨_, .clamp, rfl⟩
  | enter hanswer hpass =>
    rw [trailPath_respelled hroots] at hanswer ⊢
    exact ⟨_, .enter hanswer hpass, rfl⟩
  | follow hentry hlink hroom htarget hrelative =>
    rw [trailPath_respelled hroots] at hentry htarget ⊢
    exact ⟨_, .follow hentry hlink hroom htarget hrelative, rfl⟩
  | restart hentry hlink hroom htarget habsolute houtside =>
    rw [trailPath_respelled hroots] at hentry htarget ⊢
    rw [inside?_respelled hroots] at houtside
    exact ⟨_, .restart hentry hlink hroom htarget habsolute houtside, rfl⟩

/-- A stop is the same for another spelling, but for the texts that it quotes. -/
theorem Stop.respelled (hstop : Stop answers root₁ path₁ state events result)
    (hroots : root₁.normalize = root₂.normalize) (path₂ : Path) :
    ∃ events' result', Stop answers root₂ path₂ state events' result' ∧
      calls events = calls events' ∧ SameButQuoted root₁ path₁ root₂ path₂ result result' := by
  cases hstop with
  | arrive =>
    rw [trailPath_respelled hroots]
    exact ⟨_, _, .arrive, rfl, .success⟩
  | refuse hentry hpresent =>
    rw [trailPath_respelled hroots] at hentry ⊢
    exact ⟨_, _, .refuse hentry hpresent, rfl, .failure⟩
  | giveUp hentry hlink hfull =>
    rw [trailPath_respelled hroots] at hentry ⊢
    exact ⟨_, _, .giveUp hentry hlink hfull, rfl, .loop⟩
  | unread hentry hlink hroom htarget =>
    rw [trailPath_respelled hroots] at hentry htarget ⊢
    exact ⟨_, _, .unread hentry hlink hroom htarget, rfl, .failure⟩
  | keep hentry hlink hroom htarget habsolute hinside hfile =>
    rw [trailPath_respelled hroots] at hentry htarget ⊢
    rw [inside?_respelled hroots] at hinside
    exact ⟨_, _, .keep hentry hlink hroom htarget habsolute hinside hfile, rfl, .success⟩

/-- Below another spelling of the root the same components lead the same way. -/
theorem LeadsTo.respelled (hrun : LeadsTo answers root₁ path₁ state run)
    (hroots : root₁.normalize = root₂.normalize) (path₂ : Path) :
    ∃ run', LeadsTo answers root₂ path₂ state run' ∧ calls run.events = calls run'.events ∧
      SameButQuoted root₁ path₁ root₂ path₂ run.outcome run'.outcome := by
  induction hrun with
  | stop hstop =>
    obtain ⟨events', result', hstop', hcalls, hquoted⟩ := hstop.respelled hroots path₂
    exact ⟨⟨events', result'⟩, .stop hstop', hcalls, hquoted⟩
  | move hmove _ ih =>
    obtain ⟨events', hmove', hcalls⟩ := hmove.respelled hroots
    obtain ⟨run', hrun', hmore, hquoted⟩ := ih
    refine ⟨run'.after events', .move hmove' hrun', ?_, hquoted⟩
    rw [Run.after, Run.after, calls_append, calls_append, hcalls, hmore]

/-- What can be told of the resolution from a state on without its log: what is
asked, and how it ends. -/
def State.account (lookup : Lookup Id) (root path : Path) (state : State) :
    List Call × Except Error Resolution :=
  (calls (state.run lookup root path).events, (state.run lookup root path).outcome)

private theorem Move.account_eq (hmove : Move (.of lookup) root state events next)
    (hsilent : calls events = []) (path : Path) :
    state.account lookup root path = next.account lookup root path := by
  rw [State.account, hmove.run_eq path, Run.after, calls_append, hsilent, List.nil_append]
  rfl

/-- At the root, `/`, `.` and the `..` in front of a path come to nothing. -/
theorem State.account_start (lookup : Lookup Id) (root path p : Path) :
    (State.start p).account lookup root path =
      State.account lookup root path ⟨[], 0, p.course⟩ := by
  have hsteps : (State.start p).account lookup root path =
      State.account lookup root path ⟨[], 0, p.steps⟩ := by
    rw [State.start, Path.components_eq_steps]
    split_ifs
    · exact Move.account_eq (.stay (.inl rfl)) rfl path
    · exact Move.account_eq (.stay (.inr rfl)) rfl path
    · rfl
  rw [hsteps, Path.course]
  induction p.steps with
  | nil => rfl
  | cons c rest ih =>
    by_cases hc : c = .parent
    · subst hc
      rw [List.dropWhile_cons_of_pos (by simp), ← ih]
      exact Move.account_eq .clamp rfl path
    · rw [List.dropWhile_cons_of_neg (by simpa using hc)]

/-- How root and path are spelled does not matter to a resolution: it asks the
same questions and ends the same way, whatever the lookup answers, links or not.
The root counts by its normal form, the path by its names and `..` without those
in front. So `../` in front of a path, any number of times, is `/` in front of it. -/
theorem resolve_spelling (lookup : Lookup Id) (hroots : root₁.normalize = root₂.normalize) :
    (∀ path₁ path₂ : Path, path₁.course = path₂.course →
      Interchangeable lookup root₁ path₁ root₂ path₂) ∧
    ∀ (levels : Nat) (p : Path),
      Interchangeable lookup root₁ (p.climbing levels) root₂ ⟨slash :: p.bytes⟩ := by
  have hall (path₁ path₂ : Path) (hpaths : path₁.course = path₂.course) :
      Interchangeable lookup root₁ path₁ root₂ path₂ := by
    obtain ⟨run, hrun, hcalls, hquoted⟩ :=
      (resolve_leadsTo_of lookup root₁ path₁).respelled hroots path₂
    have haccount := State.account_start lookup root₂ path₂ path₁
    rw [hpaths, ← State.account_start, State.account, hrun.run_eq] at haccount
    obtain ⟨hasked, houtcome⟩ := Prod.mk.inj haccount
    constructor
    · rw [asked_eq_calls, asked_eq_calls, hcalls]
      exact hasked
    · rw [houtcome] at hquoted
      exact hquoted
  refine ⟨hall, fun levels p => hall _ _ ?_⟩
  rw [Path.course_climbing, Path.course_slash_cons]

/-- Both paths climb out of the root before they come to the link `up`, which
climbs out of it as well. -/
theorem resolve_detour_spelling :
    (Path.ofString "/jail").normalize = (Path.ofString "/srv/.././jail/").normalize ∧
      Interchangeable detour.lookup (.ofString "/jail") (.ofString "../a//up/new")
        (.ofString "/srv/.././jail/") (.ofString "/../../a/up/./new") ∧
      Interchangeable detour.lookup (.ofString "/jail") (.ofString "../../a/up/..")
        (.ofString "/srv/.././jail/") (.ofString "/a/up/..") ∧
      (resolve detour.lookup (.ofString "/jail") (.ofString "../a//up/new")).run.outcome =
        .ok ⟨.ofString "/jail", .ofString "/jail/c/new", 1, false⟩ := by
  have hroots : (Path.ofString "/jail").normalize = (Path.ofString "/srv/.././jail/").normalize := by
    cbv
  have hcourse : (Path.ofString "../a//up/new").course =
      (Path.ofString "/../../a/up/./new").course := by decide
  obtain ⟨hspelled, hclimbing⟩ := resolve_spelling detour.lookup hroots
  refine ⟨hroots, hspelled _ _ hcourse, hclimbing 2 (.ofString "a/up/.."), ?_⟩
  cbv

end Resolver
end TrustedRoot
