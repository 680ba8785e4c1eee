import TrustedRoot.Catalog
import TrustedRoot.Proofs.Resolver.Confinement

namespace TrustedRoot.Resolver

/-- Every place on the way from the root to the end of the trail is no link, or there is nothing. -/
def Settled (lookup : Lookup Id) (root : Path) (trail : List Name) : Prop :=
  ∀ outer, outer <:+ trail → outer ≠ [] → Passable (lookup.inspect (trailPath root outer)).run

/-- There is nothing to settle on the way to the root. -/
theorem settled_nil (lookup : Lookup Id) (root : Path) : Settled lookup root [] := by
  intro outer houter hne
  exact absurd (List.suffix_nil.mp houter) hne

/-- What lies on a settled trail lets a resolution pass. -/
theorem Settled.passable {lookup : Lookup Id} {root : Path} {trail : List Name}
    (hsettled : Settled lookup root trail) {way : List Name} (hne : way ≠ [])
    (hway : way <+: trail.reverse) : Passable (lookup.inspect (root.confine (.ofNames way))).run := by
  have houter : way.reverse <:+ trail := by simpa using List.reverse_suffix.mpr hway
  have hpass := hsettled way.reverse houter (by simpa using hne)
  rwa [trailPath, List.reverse_reverse] at hpass

/-- Each name is inspected where it is put on the trail, and what lies above it
stays the same as long as it is there. So a trail is settled however names were
pushed, left by `..` or cleared before. -/
theorem Move.settled {lookup : Lookup Id} {root : Path} {state next : State} {events : List Event}
    (hmove : Move (.of lookup) root state events next) (hsettled : Settled lookup root state.trail) :
    Settled lookup root next.trail := by
  cases hmove with
  | stay | clamp | follow => exact hsettled
  | leave => exact fun outer houter => hsettled outer (houter.trans (List.suffix_cons _ _))
  | @enter trail expansions name rest answer hanswer hpass =>
    intro outer houter hne
    rcases List.suffix_cons_iff.mp houter with rfl | houter
    · exact hanswer ▸ hpass
    · exact hsettled outer houter hne
  | restart => exact settled_nil lookup root

/-- A result that is no short cut ends a settled trail. -/
theorem LeadsTo.settled {lookup : Lookup Id} {root path : Path} {state : State} {run : Run}
    (hrun : LeadsTo (.of lookup) root path state run) (hvalid : state.Valid)
    (hsettled : Settled lookup root state.trail) {r : Resolution} (hr : run.outcome = .ok r)
    (hwhole : r.shortCircuited = false) :
    ∃ trail, (∀ n ∈ trail, ProperName n) ∧ Settled lookup root trail ∧ r.root = root ∧
      r.path = trailPath root trail := by
  induction hrun with
  | stop hstop =>
    subst hr
    cases hstop with
    | @arrive trail => exact ⟨trail, hvalid.trail, hsettled, rfl, rfl⟩
    | keep => cases hwhole
  | move hmove _ ih => exact ih (hmove.valid hvalid) (hmove.settled hsettled) hr

/-- A success that is no short cut is a settled trail below the root. -/
theorem resolve_settled (lookup : Lookup Id) (root path : Path) {r : Resolution}
    (hr : (resolve lookup root path).run.outcome = .ok r) (hwhole : r.shortCircuited = false) :
    ∃ trail, (∀ n ∈ trail, ProperName n) ∧ Settled lookup root trail ∧ r.root = root ∧
      r.path = trailPath root trail :=
  (resolve_leadsTo_of lookup root path).settled (State.Valid.start path)
    (settled_nil lookup root) hr hwhole

/-- A name after which the walk goes on costs nothing but the question. -/
theorem run_walk_name {lookup : Lookup Id} {root : Path} {trail : List Name} {name : Name}
    (hpass : Passable (lookup.inspect (trailPath root (name :: trail))).run) (path : Path)
    (expansions : Nat) (rest : List Component) :
    (walk lookup root path trail expansions (.name name :: rest)).run =
      (walk lookup root path (name :: trail) expansions rest).run.after
        [.inspected (trailPath root (name :: trail))
          (lookup.inspect (trailPath root (name :: trail))).run] := by
  unfold trailPath at *
  rw [walk]
  simp only [Id.run_bind]
  cases hanswer : (lookup.inspect (root.confine (.ofNames (name :: trail).reverse))).run with
  | error e =>
    have habsent : e.meansAbsent = true := by simpa only [hanswer, Passable] using hpass
    simp only [habsent, if_true]
    rfl
  | ok entry =>
    have hplain : entry.isLink = false := by simpa only [hanswer, Passable] using hpass
    simp only [hplain, Bool.not_false, if_true]
    rfl

private theorem outcome_walk_name
    {lookup : Lookup Id} {root : Path} {trail : List Name} {name : Name}
    (hpass : Passable (lookup.inspect (trailPath root (name :: trail))).run) (path : Path)
    (expansions : Nat) (rest : List Component) :
    (walk lookup root path trail expansions (.name name :: rest)).run.outcome =
      (walk lookup root path (name :: trail) expansions rest).run.outcome := by
  rw [run_walk_name hpass]
  rfl

/-- Names that stand on a settled trail lead straight down, whatever comes after them. -/
theorem outcome_walk_names_append {lookup : Lookup Id} {root : Path} (path : Path)
    {names : List Name} {trail : List Name} (hsettled : Settled lookup root (names.reverse ++ trail))
    (expansions : Nat) (rest : List Component) :
    (walk lookup root path trail expansions (names.map .name ++ rest)).run.outcome =
      (walk lookup root path (names.reverse ++ trail) expansions rest).run.outcome := by
  induction names generalizing trail with
  | nil => rfl
  | cons name more ih =>
    have hmore : Settled lookup root (more.reverse ++ name :: trail) := by simpa using hsettled
    have hpass := hmore (name :: trail) (List.suffix_append _ _) (List.cons_ne_nil _ _)
    rw [List.map_cons, List.cons_append, outcome_walk_name hpass, ih hmore]
    simp

private theorem outcome_walk_names {lookup : Lookup Id} {root : Path} (path : Path)
    {names : List Name}
    {trail : List Name} (hsettled : Settled lookup root (names.reverse ++ trail))
    (expansions : Nat) :
    (walk lookup root path trail expansions (names.map .name)).run.outcome =
      .ok ⟨root, trailPath root (names.reverse ++ trail), expansions, false⟩ := by
  have hnames := outcome_walk_names_append path hsettled expansions []
  rw [List.append_nil] at hnames
  rw [hnames, walk]
  rfl

/-- A result that resolves to itself: what it is below the root, `rel`, holds no
link anywhere on the way and is resolved without following one. -/
structure Stable (lookup : Lookup Id) (root rel : Path) (r : Resolution) : Prop where
  relative_eq : r.relative? = some rel
  passable : ∀ way, way ≠ [] → way <+: rel.components →
    Passable (lookup.inspect (root.confine (.ofComponents way))).run
  again : (resolve lookup root rel).run.outcome = .ok ⟨root, r.path, 0, false⟩

/-- A result that is no short cut is stable. The lookup has to answer by the path
alone, but nothing is asked of its answers; links may lead anywhere. -/
theorem resolve_stable (lookup : Lookup Id) {root : Path} (hroot : root.isAbsolute = true)
    (path : Path) {r : Resolution} (hr : (resolve lookup root path).run.outcome = .ok r)
    (hwhole : r.shortCircuited = false) : ∃ rel, Stable lookup root rel r := by
  obtain ⟨trail, htrail, hsettled, hrroot, hpath⟩ := resolve_settled lookup root path hr hwhole
  have hnames := properNames_reverse htrail
  refine ⟨.ofNames trail.reverse, ?_, ?_, ?_⟩
  · rw [Resolution.relative?, hrroot, hpath, trailPath_eq_absolute hroot htrail,
      Path.normalize_of_isAbsolute hroot]
    exact Path.stripPrefix?_absolute (fun _ => Path.properName_of_mem_place) hnames
  · intro way hne hway
    rw [Path.components_ofNames hnames, List.prefix_map_iff] at hway
    obtain ⟨names, hprefix, rfl⟩ := hway
    have houter : names.reverse <:+ trail := by simpa using List.reverse_suffix.mpr hprefix
    have hpass := hsettled names.reverse houter (by simpa using hne)
    rwa [trailPath, List.reverse_reverse, ← Path.ofComponents_names] at hpass
  · have hback : Settled lookup root (trail.reverse.reverse ++ []) := by simpa using hsettled
    rw [resolve, Path.components_ofNames hnames, outcome_walk_names _ hback, hpath]
    simp

/-- A tree in which a link leads out of a directory and back into another one. -/
def detour : Catalog :=
  (Catalog.empty.insert (.ofString "/jail/a/up") (.link (.ofString "../b/../../c"))).insert
    (.ofString "/jail/c/file") .file

/-- A link that leads out of its directory and back gives a stable result. -/
theorem resolve_detour_stable :
    ∃ r rel, (resolve detour.lookup (.ofString "/jail") (.ofString "gone/../a/up/new")).run.outcome =
        .ok r ∧ r.shortCircuited = false ∧ Stable detour.lookup (.ofString "/jail") rel r := by
  have hr : (resolve detour.lookup (.ofString "/jail") (.ofString "gone/../a/up/new")).run.outcome =
      .ok ⟨.ofString "/jail", .ofString "/jail/c/new", 1, false⟩ := by cbv
  obtain ⟨rel, hstable⟩ := resolve_stable detour.lookup (by decide) _ hr rfl
  exact ⟨_, rel, hr, rfl, hstable⟩

end TrustedRoot.Resolver
