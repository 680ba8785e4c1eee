import TrustedRoot.Proofs.Resolver.Budget

namespace TrustedRoot

/-- The spelling of `p`, a separator, and the spelling of `q`. -/
def Path.followedBy (p q : Path) : Path := ⟨p.bytes ++ slash :: q.bytes⟩

@[simp] theorem Path.steps_followedBy (p q : Path) : (p.followedBy q).steps = p.steps ++ q.steps :=
  steps_append_slash p.bytes q.bytes

namespace Resolver

variable {lookup : Lookup Id} {answers : Answers} {root path : Path} {state last : State}
  {events : List Event} {run : Run}

/-- What moves lead to from a state. -/
def Reaches (answers : Answers) (root : Path) : State → State → Prop :=
  Relation.ReflTransGen fun state next => ∃ events, Move answers root state events next

/-- The state with more components to take afterwards. -/
def State.append (state : State) (back : List Component) : State :=
  { state with pending := state.pending ++ back }

/-- A move is made alike with more components to come. -/
theorem Move.append (hmove : Move answers root state events last) (back : List Component) :
    Move answers root (state.append back) events (last.append back) := by
  cases hmove with
  | stay hc => exact .stay hc
  | leave => exact .leave
  | clamp => exact .clamp
  | enter hanswer hpass => exact .enter hanswer hpass
  | follow hentry hlink hroom htarget hrelative =>
    simp only [State.append, List.cons_append, List.append_assoc]
    exact .follow hentry hlink hroom htarget hrelative
  | restart hentry hlink hroom htarget habsolute houtside =>
    simp only [State.append, List.cons_append, List.append_assoc]
    exact .restart hentry hlink hroom htarget habsolute houtside

/-- What comes after the pending components does not change the way through them. -/
theorem Reaches.append (hreach : Reaches answers root state last) (back : List Component) :
    Reaches answers root (state.append back) (last.append back) := by
  induction hreach with
  | refl => exact .refl
  | tail _ hmove ih =>
    obtain ⟨events, hmove⟩ := hmove
    exact ih.tail ⟨events, hmove.append back⟩

/-- Moves do not change how a resolution ends. -/
theorem Reaches.outcome_eq (hreach : Reaches (.of lookup) root state last) (path : Path) :
    state.outcome lookup root path = last.outcome lookup root path := by
  induction hreach with
  | refl => rfl
  | tail _ hmove ih =>
    obtain ⟨events, hmove⟩ := hmove
    exact ih.trans (hmove.outcome_eq path)

/-- Moves lead from valid states to valid ones. -/
theorem Reaches.valid (hreach : Reaches answers root state last) (hvalid : state.Valid) :
    last.Valid := by
  induction hreach with
  | refl => exact hvalid
  | tail _ hmove ih =>
    obtain ⟨events, hmove⟩ := hmove
    exact hmove.valid ih

/-- Moves keep the trail settled. -/
theorem Reaches.settled (hreach : Reaches (.of lookup) root state last)
    (hsettled : Settled lookup root state.trail) : Settled lookup root last.trail := by
  induction hreach with
  | refl => exact hsettled
  | tail _ hmove ih =>
    obtain ⟨events, hmove⟩ := hmove
    exact hmove.settled ih

/-- A run is a row of moves and a stop. -/
theorem LeadsTo.exists_stop (hrun : LeadsTo answers root path state run) :
    ∃ last events, Reaches answers root state last ∧
      Stop answers root path last events run.outcome := by
  induction hrun with
  | stop hstop => exact ⟨_, _, .refl, hstop⟩
  | move hmove _ ih =>
    obtain ⟨last, events, hreach, hstop⟩ := ih
    exact ⟨last, events, .head ⟨_, hmove⟩ hreach, hstop⟩

/-- A `/` or `.` in front of a path or a target moves nothing. -/
theorem State.outcome_components (lookup : Lookup Id) (root path : Path) (trail : List Name)
    (expansions : Nat) (p : Path) (rest : List Component) :
    State.outcome lookup root path ⟨trail, expansions, p.components ++ rest⟩ =
      State.outcome lookup root path ⟨trail, expansions, p.steps ++ rest⟩ := by
  rw [Path.components_eq_steps]
  split
  · exact Move.outcome_eq (.stay (.inl rfl)) path
  · split
    · exact Move.outcome_eq (.stay (.inr rfl)) path
    · rfl

/-- Only the steps of a path count for a resolution that begins with links already followed. -/
theorem State.outcome_steps (lookup : Lookup Id) (root path : Path) (spent : Nat) (p : Path) :
    State.outcome lookup root path ⟨[], spent, p.components⟩ =
      State.outcome lookup root path ⟨[], spent, p.steps⟩ := by
  simpa using State.outcome_components lookup root path [] spent p []

/-- The names of a settled trail lead from the root down to its end. -/
theorem State.outcome_trail {trail : List Name} (hsettled : Settled lookup root trail)
    (path : Path) (spent : Nat) (rest : List Component) :
    State.outcome lookup root path ⟨[], spent, trail.reverse.map .name ++ rest⟩ =
      State.outcome lookup root path ⟨trail, spent, rest⟩ := by
  have hback : Settled lookup root (trail.reverse.reverse ++ []) := by simpa using hsettled
  have hdown := outcome_walk_names_append path hback spent rest
  rwa [List.reverse_reverse, List.append_nil] at hdown

private theorem outcome_resolve_followedBy (lookup : Lookup Id) (root p q : Path) :
    (resolve lookup root (p.followedBy q)).run.outcome =
      ((State.start p).append q.steps).outcome lookup root (p.followedBy q) := by
  rw [outcome_resolve, State.start, State.outcome_steps, Path.steps_followedBy,
    ← State.outcome_components]
  rfl

/-- How the resolution of a path goes on from that of its front part `p`. -/
structure Composes (lookup : Lookup Id) (root p q : Path) : Prop where
  /-- A short cut drops the rest. -/
  shortCut : ∀ r, (resolve lookup root p).run.outcome = .ok r → r.shortCircuited = true →
    (resolve lookup root (p.followedBy q)).run.outcome = .ok r
  /-- Else the rest goes on from the result, with its links counted. -/
  whole : ∀ r, (resolve lookup root p).run.outcome = .ok r → r.shortCircuited = false →
    ∃ rel, r.relative? = some rel ∧ (resolve lookup root (p.followedBy q)).run.outcome =
      (resolve lookup root (rel.followedBy q)).run.resumed root (p.followedBy q) r.expansions
  failure : ∀ f e, (resolve lookup root p).run.outcome = .error (.lookup f e) →
    (resolve lookup root (p.followedBy q)).run.outcome = .error (.lookup f e)
  loop : ∀ root' path' limit,
    (resolve lookup root p).run.outcome = .error (.symlinkLoop root' path' limit) →
      (resolve lookup root (p.followedBy q)).run.outcome =
        .error (.symlinkLoop root (p.followedBy q) maxExpansions)

/-- Resolution composes. The lookup has to answer by the path alone; `p` and `q`
may be any bytes. -/
theorem resolve_composes (lookup : Lookup Id) {root : Path} (hroot : root.isAbsolute = true)
    (p q : Path) : Composes lookup root p q := by
  obtain ⟨last, events, hreach, hstop⟩ := (resolve_leadsTo_of lookup root p).exists_stop
  have hvalid := hreach.valid (State.Valid.start p)
  have hsettled := hreach.settled (settled_nil lookup root)
  have hlast : (resolve lookup root (p.followedBy q)).run.outcome =
      (last.append q.steps).outcome lookup root (p.followedBy q) :=
    (outcome_resolve_followedBy lookup root p q).trans ((hreach.append q.steps).outcome_eq _)
  constructor
  · intro r hr hshort
    rw [hr] at hstop
    cases hstop with
    | arrive => cases hshort
    | keep hentry hlink hroom htarget habsolute hinside hfile =>
      exact hlast.trans
        (Stop.keep hentry hlink hroom htarget habsolute hinside hfile).outcome_eq
  · intro r hr hwhole
    rw [hr] at hstop
    cases hstop with
    | keep => cases hwhole
    | @arrive trail expansions =>
      refine ⟨.ofNames trail.reverse, relative?_trailPath hroot hvalid.trail _ _, ?_⟩
      -- The names of the result lead back down its trail, with the links of `p` counted.
      rw [hlast, ← State.outcome_later lookup root _ _ hvalid.expansions_le, State.outcome_steps,
        Path.steps_followedBy, Path.steps_ofNames (properNames_reverse hvalid.trail),
        State.outcome_trail hsettled]
      rfl
  · intro f e hfailure
    rw [hfailure] at hstop
    cases hstop with
    | refuse hentry hpresent => exact hlast.trans (Stop.refuse hentry hpresent).outcome_eq
    | unread hentry hlink hroom htarget =>
      exact hlast.trans (Stop.unread hentry hlink hroom htarget).outcome_eq
  · intro root' path' limit hloop
    rw [hloop] at hstop
    cases hstop with
    | giveUp hentry hlink hfull => exact hlast.trans (Stop.giveUp hentry hlink hfull).outcome_eq

/-- Each half follows the link `up` once, from a different directory. -/
theorem resolve_detour_composes :
    ∃ r s, (resolve detour.lookup (.ofString "/jail") (.ofString "gone/../a/up")).run.outcome =
        .ok r ∧ r.shortCircuited = false ∧ r.relative? = some (.ofString "c") ∧
      (resolve detour.lookup (.ofString "/jail") (.ofString "c/../a/./up/new")).run.outcome =
        .ok s ∧
      (resolve detour.lookup (.ofString "/jail")
        (.ofString "gone/../a/up/../a/./up/new")).run.outcome =
          .ok ⟨.ofString "/jail", s.path, r.expansions + s.expansions, s.shortCircuited⟩ := by
  have hr : (resolve detour.lookup (.ofString "/jail") (.ofString "gone/../a/up")).run.outcome =
      .ok ⟨.ofString "/jail", .ofString "/jail/c", 1, false⟩ := by cbv
  have hs : (resolve detour.lookup (.ofString "/jail") (.ofString "c/../a/./up/new")).run.outcome =
      .ok ⟨.ofString "/jail", .ofString "/jail/c/new", 1, false⟩ := by cbv
  have hrel : Resolution.relative? ⟨.ofString "/jail", .ofString "/jail/c", 1, false⟩ =
      some (.ofString "c") := by cbv
  have hjail : (Path.ofString "/jail").isAbsolute = true := by decide
  have hcomposes := resolve_composes detour.lookup hjail (.ofString "gone/../a/up")
    (.ofString "../a/./up/new")
  obtain ⟨rel, hsome, hwhole⟩ := hcomposes.whole _ hr rfl
  obtain rfl : rel = .ofString "c" := Option.some.inj (hsome.symm.trans hrel)
  have hfront : (Path.ofString "gone/../a/up").followedBy (.ofString "../a/./up/new") =
      .ofString "gone/../a/up/../a/./up/new" := by decide
  have hback : (Path.ofString "c").followedBy (.ofString "../a/./up/new") =
      .ofString "c/../a/./up/new" := by decide
  rw [hfront, hback] at hwhole
  exact ⟨_, _, hr, rfl, hrel, hs, hwhole.trans (Run.resumed_of_ok _ _ hs (by decide))⟩

end Resolver
end TrustedRoot
