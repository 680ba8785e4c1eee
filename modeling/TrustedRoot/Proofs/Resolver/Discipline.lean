import TrustedRoot.Proofs.Resolver.Confinement
import TrustedRoot.Proofs.Resolver.Questions

namespace TrustedRoot.Resolver

variable {answers : Answers} {root path : Path} {state next : State} {events : List Event}
  {outcome : Except Error Resolution} {run : Run}

/-- How many components are names. -/
def nameCount (components : List Component) : Nat :=
  components.countP fun c => c.name?.isSome

@[simp] theorem nameCount_append (front back : List Component) :
    nameCount (front ++ back) = nameCount front + nameCount back :=
  List.countP_append

/-- How many targets were read. -/
def readCount (calls : List Call) : Nat := calls.countP fun call => call.read?.isSome

/-- How many names the targets have that were read. -/
def readNames (calls : List Call) : Nat :=
  ((calls.filterMap Call.read?).map fun target => nameCount target.components).sum

@[simp] theorem readCount_append (front back : List Call) :
    readCount (front ++ back) = readCount front + readCount back :=
  List.countP_append

@[simp] theorem readNames_append (front back : List Call) :
    readNames (front ++ back) = readNames front + readNames back := by
  simp [readNames]

/-- The target of a link is asked for right after the link was met. -/
def ReadsFollow (calls : List Call) : Prop :=
  ∀ before q answer after, calls = before ++ .target q answer :: after →
    ∃ entry, entry.isLink = true ∧ before.getLast? = some (.inspect q (.ok entry))

private theorem readsFollow_nil : ReadsFollow [] := by
  intro before q answer after h
  simp at h

private theorem readsFollow_inspect (q : Path) (answer : Except IoError Entry) :
    ReadsFollow [.inspect q answer] := by
  intro before q' answer' after hsplit
  rcases List.cons_eq_append_iff.mp hsplit with ⟨_, hhead⟩ | ⟨more, _, hmore⟩
  · cases hhead
  · simp at hmore

private theorem readsFollow_link (q : Path) {entry : Entry} (hlink : entry.isLink = true)
    (answer : Except IoError Path) :
    ReadsFollow [.inspect q (.ok entry), .target q answer] := by
  intro before q' answer' after hsplit
  rcases List.cons_eq_append_iff.mp hsplit with ⟨_, hhead⟩ | ⟨more, hbefore, hmore⟩
  · cases hhead
  · rcases List.cons_eq_append_iff.mp hmore with ⟨hnil, hhead⟩ | ⟨_, _, hnone⟩
    · cases hhead
      exact ⟨entry, hlink, by rw [hbefore, hnil]; rfl⟩
    · simp at hnone

/-- Questions that keep to the order may follow each other. -/
theorem ReadsFollow.append {front back : List Call} (hfront : ReadsFollow front)
    (hback : ReadsFollow back) : ReadsFollow (front ++ back) := by
  intro before q answer after hsplit
  rcases List.append_eq_append_iff.mp hsplit with ⟨between, hbefore, hrest⟩ | ⟨between, hleft, hrest⟩
  · obtain ⟨entry, hlink, hlast⟩ := hback between q answer after hrest
    exact ⟨entry, hlink, by simp [hbefore, hlast]⟩
  · cases between with
    | nil =>
      obtain ⟨entry, _, hlast⟩ := hback [] q answer after hrest.symm
      cases hlast
    | cons call more =>
      cases hrest
      exact hfront before q answer more hleft

/-- A move asks nothing, asks about a name that it passes, or asks about a link
and reads its target. The expansions count the targets that are read, and each
question about a name takes it away from those that are pending. -/
theorem Move.calls_cases (hmove : Move answers root state events next) :
    (calls events = [] ∧ next.expansions = state.expansions ∧
      nameCount next.pending = nameCount state.pending) ∨
    (∃ name answer, .name name ∈ state.pending ∧ Passable answer ∧
      calls events = [.inspect (trailPath root (name :: state.trail)) answer] ∧
      next.expansions = state.expansions ∧
      nameCount next.pending + 1 = nameCount state.pending) ∨
    ∃ name entry target, .name name ∈ state.pending ∧ entry.isLink = true ∧
      calls events = [.inspect (trailPath root (name :: state.trail)) (.ok entry),
        .target (trailPath root (name :: state.trail)) (.ok target)] ∧
      next.expansions = state.expansions + 1 ∧
      nameCount next.pending + 1 = nameCount target.components + nameCount state.pending := by
  cases hmove with
  | stay hc =>
    refine .inl ⟨rfl, rfl, ?_⟩
    rcases hc with rfl | rfl <;> rfl
  | leave | clamp => exact .inl ⟨rfl, rfl, rfl⟩
  | @enter trail expansions name rest answer _ hpass =>
    exact .inr (.inl ⟨name, answer, List.mem_cons_self, hpass, rfl, rfl,
      (List.countP_cons_of_pos rfl).symm⟩)
  | @follow trail expansions name rest entry target _ hlink
  | @restart trail expansions name rest entry target _ hlink =>
    refine .inr (.inr ⟨name, entry, target, List.mem_cons_self, hlink, rfl, rfl, ?_⟩)
    rw [nameCount_append, Nat.add_assoc]
    exact congrArg (nameCount target.components + ·) (List.countP_cons_of_pos rfl).symm

private theorem Move.path_of_mem_calls (hmove : Move answers root state events next) {call : Call}
    (hcall : call ∈ calls events) :
    ∃ name, .name name ∈ state.pending ∧ call.path = trailPath root (name :: state.trail) := by
  obtain ⟨hcalls, _⟩ | ⟨name, answer, hname, _, hcalls, _⟩ |
    ⟨name, entry, target, hname, _, hcalls, _⟩ := hmove.calls_cases
  · simp [hcalls] at hcall
  · obtain rfl : call = .inspect (trailPath root (name :: state.trail)) answer := by
      simpa [hcalls] using hcall
    exact ⟨name, hname, rfl⟩
  · have hcall : call = .inspect (trailPath root (name :: state.trail)) (.ok entry) ∨
        call = .target (trailPath root (name :: state.trail)) (.ok target) := by
      simpa [hcalls] using hcall
    refine ⟨name, hname, ?_⟩
    rcases hcall with rfl | rfl <;> rfl

private theorem Move.readsFollow (hmove : Move answers root state events next) :
    ReadsFollow (calls events) := by
  obtain ⟨hcalls, _⟩ | ⟨name, answer, _, _, hcalls, _⟩ | ⟨name, entry, target, _, hlink, hcalls, _⟩ :=
    hmove.calls_cases
  · exact hcalls ▸ readsFollow_nil
  · exact hcalls ▸ readsFollow_inspect _ answer
  · exact hcalls ▸ readsFollow_link _ hlink (.ok target)

/-- After a move every target that was asked for was read, and was counted. -/
theorem Move.expansions_eq (hmove : Move answers root state events next) :
    next.expansions = state.expansions + readCount (calls events) ∧
      (calls events).countP Call.isTarget = readCount (calls events) := by
  obtain ⟨hcalls, hnext, _⟩ | ⟨name, answer, _, _, hcalls, hnext, _⟩ |
    ⟨name, entry, target, _, _, hcalls, hnext, _⟩ := hmove.calls_cases <;>
  simp [hcalls, hnext, readCount, Call.read?, Call.isTarget]

/-- Each name that is taken is inspected, and each target that is read brings its own. -/
theorem Move.inspections_eq (hmove : Move answers root state events next) :
    (calls events).countP Call.isInspect + nameCount next.pending =
      nameCount state.pending + readNames (calls events) := by
  obtain ⟨hcalls, _, hnames⟩ | ⟨name, answer, _, _, hcalls, _, hnames⟩ |
    ⟨name, entry, target, _, _, hcalls, _, hnames⟩ := hmove.calls_cases
  · simp [hcalls, hnames, readNames]
  · simp [hcalls, ← hnames, readNames, List.filterMap_cons, Call.read?, Call.isInspect, Nat.add_comm]
  · simp [hcalls, readNames, List.filterMap_cons, Call.read?, Call.isInspect, List.countP_cons]
    omega

/-- A question after whose answer a resolution goes on. -/
def Call.Continues : Call → Prop
  | .inspect _ answer => Passable answer
  | .target _ answer => ∃ found, answer = .ok found

private theorem Move.continues (hmove : Move answers root state events next) {call : Call}
    (hlast : (calls events).getLast? = some call) : call.Continues := by
  obtain ⟨hcalls, _⟩ | ⟨name, answer, _, hpass, hcalls, _⟩ | ⟨name, entry, target, _, _, hcalls, _⟩ :=
    hmove.calls_cases
  · simp [hcalls] at hlast
  · rw [hcalls] at hlast
    cases hlast
    exact hpass
  · rw [hcalls] at hlast
    cases hlast
    exact ⟨target, rfl⟩

private theorem Stop.path_of_mem_calls (hstop : Stop answers root path state events outcome)
    {call : Call} (hcall : call ∈ calls events) :
    ∃ name, .name name ∈ state.pending ∧ call.path = trailPath root (name :: state.trail) := by
  cases hstop with
  | arrive => simp at hcall
  | @refuse trail expansions name | @giveUp trail expansions name
  | @unread trail expansions name | @keep trail expansions name =>
    refine ⟨name, List.mem_cons_self, ?_⟩
    revert call
    simp [Event.call?, Call.path]

private theorem Stop.readsFollow (hstop : Stop answers root path state events outcome) :
    ReadsFollow (calls events) := by
  cases hstop with
  | arrive => exact readsFollow_nil
  | refuse | giveUp => exact readsFollow_inspect _ _
  | unread _ hlink | keep _ hlink => exact readsFollow_link _ hlink _

private theorem Stop.reads_le (hstop : Stop answers root path state events outcome)
    (hvalid : state.Valid) :
    state.expansions + (calls events).countP Call.isTarget ≤ maxExpansions := by
  have hle := hvalid.expansions_le
  cases hstop with
  | arrive | refuse | giveUp => simpa [Event.call?, Call.isTarget] using hle
  | unread _ _ hroom | keep _ _ hroom => simpa [Event.call?, Call.isTarget] using hroom

private theorem Stop.inspections_le (hstop : Stop answers root path state events outcome) :
    (calls events).countP Call.isInspect ≤ nameCount state.pending := by
  cases hstop with
  | arrive => simp
  | refuse | giveUp | unread | keep =>
    simp [Event.call?, Call.isInspect, nameCount, List.countP_cons, Component.name?]

/-- How a resolution ends that followed `spent` links before it asked anything.
Each of the endings shows in the question that was asked last. -/
inductive Ending (root path : Path) (spent : Nat) (calls : List Call) :
    Except Error Resolution → Prop where
  | loop {before q entry} (hlink : entry.isLink = true)
      (hcalls : calls = before ++ [.inspect q (.ok entry)])
      (hspent : spent + readCount before = maxExpansions) :
      Ending root path spent calls (.error (.symlinkLoop root path maxExpansions))
  | denied {q e} (hlast : calls.getLast? = some (.inspect q (.error e)))
      (hpresent : e.meansAbsent = false) : Ending root path spent calls (.error (.lookup q e))
  | unread {q e} (hlast : calls.getLast? = some (.target q (.error e))) :
      Ending root path spent calls (.error (.lookup q e))
  | success {r} (hlast : ∀ call, calls.getLast? = some call → call.Continues)
      (hexpansions : r.expansions = spent + calls.countP Call.isTarget) :
      Ending root path spent calls (.ok r)

/-- A stop shows in its last question how the resolution ends. -/
theorem Stop.ending (hstop : Stop answers root path state events outcome) (hvalid : state.Valid) :
    Ending root path state.expansions (calls events) outcome := by
  cases hstop with
  | arrive => exact .success (by simp) rfl
  | refuse _ hpresent => exact .denied rfl hpresent
  | giveUp _ hlink hfull =>
    exact .loop hlink (List.nil_append _).symm (Nat.le_antisymm hvalid.expansions_le hfull)
  | unread => exact .unread rfl
  | @keep trail expansions name rest entry target =>
    refine .success ?_ rfl
    intro call hlast
    cases hlast
    exact ⟨target, rfl⟩

/-- An ending after a move is one from before it, with the questions of the move in front. -/
theorem Move.ending (hmove : Move answers root state events next) {more : List Call}
    (hmore : Ending root path next.expansions more outcome) :
    Ending root path state.expansions (calls events ++ more) outcome := by
  obtain ⟨hnext, htargets⟩ := hmove.expansions_eq
  cases hmore with
  | @loop before q entry hlink hcalls hspent =>
    have hsplit : calls events ++ more = (calls events ++ before) ++ [.inspect q (.ok entry)] := by
      simp [hcalls]
    refine .loop hlink hsplit ?_
    rw [readCount_append]
    omega
  | denied hlast hpresent => exact .denied (by simp [hlast]) hpresent
  | unread hlast => exact .unread (by simp [hlast])
  | success hlast hexpansions =>
    refine .success ?_ (by rw [List.countP_append]; omega)
    intro call hcall
    rw [List.getLast?_append, Option.or_eq_some_iff] at hcall
    rcases hcall with hcall | ⟨_, hcall⟩
    · exact hlast call hcall
    · exact hmove.continues hcall

/-- The endings exclude each other by the question asked last, so a loop is
reported exactly after a link too many. -/
theorem Ending.symlinkLoop_iff {spent : Nat} {calls : List Call}
    (hending : Ending root path spent calls outcome) :
    outcome = .error (.symlinkLoop root path maxExpansions) ↔
      ∃ before q entry, entry.isLink = true ∧ calls = before ++ [.inspect q (.ok entry)] ∧
        spent + readCount before = maxExpansions := by
  constructor
  · rintro rfl
    cases hending with
    | loop hlink hcalls hspent => exact ⟨_, _, _, hlink, hcalls, hspent⟩
  · rintro ⟨before, q, entry, hlink, rfl, _⟩
    cases hending with
    | loop => rfl
    | denied hlast | unread hlast => simp at hlast
    | success hlast =>
      have hplain : entry.isLink = false := hlast (.inspect q (.ok entry)) (by simp)
      simp [hlink] at hplain

/-- A resolution fails by a lookup exactly if its last question did. -/
theorem Ending.lookup_iff {spent : Nat} {calls : List Call}
    (hending : Ending root path spent calls outcome) (q : Path) (e : IoError) :
    outcome = .error (.lookup q e) ↔
      calls.getLast? = some (.inspect q (.error e)) ∧ e.meansAbsent = false ∨
        calls.getLast? = some (.target q (.error e)) := by
  constructor
  · rintro rfl
    cases hending with
    | denied hlast hpresent => exact .inl ⟨hlast, hpresent⟩
    | unread hlast => exact .inr hlast
  · intro hcall
    cases hending with
    | loop hlink hcalls => simp [hcalls] at hcall
    | denied hlast | unread hlast =>
      rw [hlast] at hcall
      rcases hcall with ⟨hcall, _⟩ | hcall
      all_goals cases hcall
      all_goals rfl
    | success hlast =>
      rcases hcall with ⟨hcall, hpresent⟩ | hcall
      · have habsent : e.meansAbsent = true := hlast _ hcall
        simp [hpresent] at habsent
      · obtain ⟨found, hfound⟩ := hlast _ hcall
        cases hfound

/-- An ending is a loop, a failed lookup, or a success that counts the targets that were read. -/
theorem Ending.otherwise {spent : Nat} {calls : List Call}
    (hending : Ending root path spent calls outcome) :
    outcome = .error (.symlinkLoop root path maxExpansions) ∨
      (∃ q e, outcome = .error (.lookup q e)) ∨
      ∃ r, outcome = .ok r ∧ r.expansions = spent + calls.countP Call.isTarget := by
  cases hending with
  | loop => exact .inl rfl
  | denied | unread => exact .inr (.inl ⟨_, _, rfl⟩)
  | success _ hexpansions => exact .inr (.inr ⟨_, rfl, hexpansions⟩)

/-- No target is asked for but right behind its link. -/
theorem LeadsTo.readsFollow (hrun : LeadsTo answers root path state run) :
    ReadsFollow (calls run.events) := by
  induction hrun with
  | stop hstop => exact hstop.readsFollow
  | move hmove _ ih =>
    rw [Run.after, calls_append]
    exact hmove.readsFollow.append ih

/-- The targets that are asked for stay within the limit. -/
theorem LeadsTo.reads_le (hrun : LeadsTo answers root path state run) (hvalid : state.Valid) :
    state.expansions + (calls run.events).countP Call.isTarget ≤ maxExpansions := by
  induction hrun with
  | stop hstop => exact hstop.reads_le hvalid
  | move hmove _ ih =>
    have hrest := ih (hmove.valid hvalid)
    obtain ⟨hnext, htargets⟩ := hmove.expansions_eq
    rw [Run.after, calls_append, List.countP_append]
    omega

/-- A run inspects each pending name, and each name of a target that it read, once at most. -/
theorem LeadsTo.inspections_le (hrun : LeadsTo answers root path state run) :
    (calls run.events).countP Call.isInspect ≤
      nameCount state.pending + readNames (calls run.events) := by
  induction hrun with
  | stop hstop => exact hstop.inspections_le.trans (Nat.le_add_right _ _)
  | move hmove _ ih =>
    have hmoved := hmove.inspections_eq
    rw [Run.after, calls_append, List.countP_append, readNames_append]
    omega

/-- The last question of a run shows how it ends. -/
theorem LeadsTo.ending (hrun : LeadsTo answers root path state run) (hvalid : state.Valid) :
    Ending root path state.expansions (calls run.events) run.outcome := by
  induction hrun with
  | stop hstop => exact hstop.ending hvalid
  | move hmove _ ih =>
    rw [Run.after, calls_append]
    exact hmove.ending (ih (hmove.valid hvalid))

/-- A place that names lead to from the root, so strictly below it. -/
def Below (root q : Path) : Prop :=
  ∃ names, names ≠ [] ∧ (∀ n ∈ names, ProperName n) ∧ q = root.normalize.join (.ofNames names) ∧
    Kinship.between q root = .descendant

private theorem below_trailPath (hroot : root.isAbsolute = true)
    {trail : List Name} (hne : trail ≠ [])
    (htrail : ∀ n ∈ trail, ProperName n) : Below root (trailPath root trail) := by
  have hbase : ∀ n ∈ root.place.names, ProperName n := fun _ => Path.properName_of_mem_place
  have hnames := properNames_reverse htrail
  have hreverse : trail.reverse ≠ [] := by simpa using hne
  refine ⟨trail.reverse, hreverse, hnames, ?_, ?_⟩
  · rw [trailPath_eq_absolute hroot htrail, Path.normalize_of_isAbsolute hroot,
      Path.join_absolute hbase hnames hreverse]
  · have hplace : (trailPath root trail).place.names = root.place.names ++ trail.reverse := by
      rw [trailPath_eq_absolute hroot htrail, Path.names_place_absolute]
      exact List.forall_mem_append.mpr ⟨hbase, hnames⟩
    have habsolute : (trailPath root trail).isAbsolute = true := by
      rw [trailPath_eq_absolute hroot htrail, Path.isAbsolute_absolute]
    refine Kinship.between_eq_descendant habsolute hroot ?_ ?_
    · simp [hplace]
    · simpa [hplace] using hne

/-- Every question is about a place strictly below the root. -/
theorem LeadsTo.asks_below (hrun : LeadsTo answers root path state run)
    (hroot : root.isAbsolute = true) (hvalid : state.Valid) :
    ∀ call ∈ calls run.events, Below root call.path := by
  have hasked {state : State} (hvalid : state.Valid) {call : Call}
      (hcall : ∃ name, .name name ∈ state.pending ∧
        call.path = trailPath root (name :: state.trail)) : Below root call.path := by
    obtain ⟨name, hname, hpath⟩ := hcall
    rw [hpath]
    exact below_trailPath hroot (List.cons_ne_nil _ _)
      (List.forall_mem_cons.mpr ⟨hvalid.pending name hname, hvalid.trail⟩)
  induction hrun with
  | stop hstop => exact fun call hcall => hasked hvalid (hstop.path_of_mem_calls hcall)
  | move hmove _ ih =>
    intro call hcall
    rw [Run.after, calls_append, List.mem_append] at hcall
    rcases hcall with hcall | hcall
    · exact hasked hvalid (hmove.path_of_mem_calls hcall)
    · exact ih (hmove.valid hvalid) call hcall

/-- What the questions of a resolution keep to, and what they say about its end. -/
structure Disciplined (root path : Path) (calls : List Call)
    (outcome : Except Error Resolution) : Prop where
  below : ∀ call ∈ calls, Below root call.path
  readsFollow : ReadsFollow calls
  reads_le : calls.countP Call.isTarget ≤ maxExpansions
  inspections_le : calls.countP Call.isInspect ≤ nameCount path.components + readNames calls
  /-- The limit is reported exactly for a link met after as many links as may be followed. -/
  symlinkLoop_iff : outcome = .error (.symlinkLoop root path maxExpansions) ↔
    ∃ before q entry, entry.isLink = true ∧ calls = before ++ [.inspect q (.ok entry)] ∧
      readCount before = maxExpansions
  /-- A failure is reported exactly as it was answered, and ends the questions. -/
  lookup_iff : ∀ q e, outcome = .error (.lookup q e) ↔
    calls.getLast? = some (.inspect q (.error e)) ∧ e.meansAbsent = false ∨
      calls.getLast? = some (.target q (.error e))
  otherwise : outcome = .error (.symlinkLoop root path maxExpansions) ∨
    (∃ q e, outcome = .error (.lookup q e)) ∨
    ∃ r, outcome = .ok r ∧ r.expansions = calls.countP Call.isTarget

private theorem LeadsTo.disciplined (hrun : LeadsTo answers root path (.start path) run)
    (hroot : root.isAbsolute = true) :
    Disciplined root path (calls run.events) run.outcome := by
  have hvalid := State.Valid.start path
  have hending : Ending root path 0 (calls run.events) run.outcome := hrun.ending hvalid
  refine ⟨hrun.asks_below hroot hvalid, hrun.readsFollow, ?_, hrun.inspections_le, ?_,
    hending.lookup_iff, ?_⟩
  · simpa [State.start] using hrun.reads_le hvalid
  · simpa using hending.symlinkLoop_iff
  · simpa using hending.otherwise

/-- Every resolution asks a disciplined sequence of questions and ends as the
last of them says. The sequence is what the lookup itself is asked, as one that
writes it down sees it; its answers may be anything. -/
theorem resolve_disciplined {σ : Type} (lookup : Lookup (StateM σ)) (s : σ) {root : Path}
    (hroot : root.isAbsolute = true) (path : Path) :
    ∃ run asked s', ((resolve (noted lookup) root path).run []).run s = ((run, asked), s') ∧
      (resolve lookup root path).run s = (run, s') ∧
      Disciplined root path asked run.outcome := by
  have hdisciplined := (resolve_leadsTo_any lookup s root path).disciplined hroot
  refine ⟨_, _, ((resolve lookup root path).run s).2, ?_, rfl, hdisciplined⟩
  rw [resolve, run_walk_noted]
  rfl

/-- A link is followed, and the directory that the name turns into is passed. -/
theorem resolve_fickle_disciplined :
    ∃ run asked s', ((resolve (noted fickle) (.ofString "/jail") (.ofString "a")).run []).run 2 =
        ((run, asked), s') ∧
      asked = [.inspect (.ofString "/jail/a") (.ok .link),
        .target (.ofString "/jail/a") (.ok (.ofString "/../up/./x")),
        .inspect (.ofString "/jail/up") (.ok .directory),
        .inspect (.ofString "/jail/up/x") (.ok .directory)] ∧
      run.outcome = .ok ⟨.ofString "/jail", .ofString "/jail/up/x", 1, false⟩ ∧
      Disciplined (.ofString "/jail") (.ofString "a") asked run.outcome := by
  have hroot : (Path.ofString "/jail").isAbsolute = true := by decide
  obtain ⟨run, asked, s', hnoted, hplain, hdisciplined⟩ :=
    resolve_disciplined fickle 2 hroot (.ofString "a")
  have hasked : asked = (((resolve (noted fickle) (.ofString "/jail") (.ofString "a")).run []).run
      2).1.2 := by rw [hnoted]
  have houtcome : run.outcome = ((resolve fickle (.ofString "/jail") (.ofString "a")).run
      2).1.outcome := by rw [hplain]
  refine ⟨run, asked, s', hnoted, hasked.trans ?_, houtcome.trans ?_, hdisciplined⟩
  · cbv
  · cbv

end TrustedRoot.Resolver
