import TrustedRoot.Proofs.Resolver.Expansion

namespace TrustedRoot.Resolver

variable {lookup₁ lookup₂ : Lookup Id} {root₁ root₂ path : Path} {state next : State}
  {events : List Event} {result : Except Error Resolution} {run : Run}

/-- Two trees that answer alike below two roots. What they answer elsewhere, and
about the roots themselves, is left open. -/
structure AgreeBelow (lookup₁ : Lookup Id) (root₁ : Path) (lookup₂ : Lookup Id) (root₂ : Path) :
    Prop where
  inspect_eq : ∀ names, names ≠ [] → (∀ n ∈ names, ProperName n) →
    (lookup₁.inspect (root₁.confine (.ofNames names))).run =
      (lookup₂.inspect (root₂.confine (.ofNames names))).run
  target_eq : ∀ names, names ≠ [] → (∀ n ∈ names, ProperName n) →
    (lookup₁.target (root₁.confine (.ofNames names))).run =
      (lookup₂.target (root₂.confine (.ofNames names))).run

section

variable {trail : List Name} {expansions : Nat} {name : Name} {rest : List Component}

/-- Trees that agree give the same answer about the entry that comes next. -/
theorem AgreeBelow.entry (hagree : AgreeBelow lookup₁ root₁ lookup₂ root₂)
    (hvalid : State.Valid ⟨trail, expansions, .name name :: rest⟩) {answer : Except IoError Entry}
    (hanswer : (Answers.of lookup₁).entry (trailPath root₁ (name :: trail)) answer) :
    (Answers.of lookup₂).entry (trailPath root₂ (name :: trail)) answer := by
  rw [Answers.entry_of_iff] at *
  rw [← hanswer]
  exact (hagree.inspect_eq _ (by simp) (properNames_reverse hvalid.name_cons)).symm

/-- And about its target. -/
theorem AgreeBelow.target (hagree : AgreeBelow lookup₁ root₁ lookup₂ root₂)
    (hvalid : State.Valid ⟨trail, expansions, .name name :: rest⟩) {answer : Except IoError Path}
    (hanswer : (Answers.of lookup₁).target (trailPath root₁ (name :: trail)) answer) :
    (Answers.of lookup₂).target (trailPath root₂ (name :: trail)) answer := by
  rw [Answers.target_of_iff] at *
  rw [← hanswer]
  exact (hagree.target_eq _ (by simp) (properNames_reverse hvalid.name_cons)).symm

end

/-- Two ends of resolutions that went the same way below their roots. -/
inductive Alike (root₁ root₂ path : Path) :
    Except Error Resolution → Except Error Resolution → Prop where
  | arrived {trail expansions} (htrail : ∀ n ∈ trail, ProperName n) :
      Alike root₁ root₂ path (.ok ⟨root₁, trailPath root₁ trail, expansions, false⟩)
        (.ok ⟨root₂, trailPath root₂ trail, expansions, false⟩)
  | kept {inside expansions} :
      Alike root₁ root₂ path (.ok ⟨root₁, inside, expansions, true⟩)
        (.ok ⟨root₂, inside, expansions, true⟩)
  | looped :
      Alike root₁ root₂ path (.error (.symlinkLoop root₁ path maxExpansions))
        (.error (.symlinkLoop root₂ path maxExpansions))
  | failed {trail e} (hne : trail ≠ []) (htrail : ∀ n ∈ trail, ProperName n) :
      Alike root₁ root₂ path (.error (.lookup (trailPath root₁ trail) e))
        (.error (.lookup (trailPath root₂ trail) e))

/-- An end that is a short cut. -/
def ShortCut (result : Except Error Resolution) : Prop :=
  ∃ r, result = .ok r ∧ r.shortCircuited = true

/-- Some target lies in one of the two roots by its spelling, and not in the other. -/
def Divided (root₁ root₂ : Path) : Prop :=
  ∃ target : Path, target.inside? root₁ ≠ target.inside? root₂

/-- A move below one root is a move below the other, unless it starts again with
a target that is a short cut there. -/
theorem Move.relocated (hagree : AgreeBelow lookup₁ root₁ lookup₂ root₂)
    (hmove : Move (.of lookup₁) root₁ state events next) (hvalid : state.Valid) (path : Path) :
    (∃ events', Move (.of lookup₂) root₂ state events' next) ∨
      Divided root₁ root₂ ∧ ShortCut (state.outcome lookup₂ root₂ path) := by
  cases hmove with
  | stay hc => exact .inl ⟨_, .stay hc⟩
  | leave => exact .inl ⟨_, .leave⟩
  | clamp => exact .inl ⟨_, .clamp⟩
  | enter hanswer hpass =>
    exact .inl ⟨_, .enter (hagree.entry hvalid hanswer) hpass⟩
  | follow hentry hlink hroom htarget hrelative =>
    have hentry₂ := hagree.entry hvalid hentry
    have htarget₂ := hagree.target hvalid htarget
    exact .inl ⟨_, .follow hentry₂ hlink hroom htarget₂ hrelative⟩
  | @restart trail expansions name rest entry target hentry hlink hroom htarget habsolute houtside =>
    have hentry₂ := hagree.entry hvalid hentry
    have htarget₂ := hagree.target hvalid htarget
    -- The target is compared with `root₂` itself, so the two tests may differ here.
    by_cases hdirectory : entry.isDirectory = true
    · exact .inl ⟨_, .restart hentry₂ hlink hroom htarget₂ habsolute (.inl hdirectory)⟩
    · have hnone := houtside.resolve_left hdirectory
      cases hinside : target.inside? root₂ with
      | none => exact .inl ⟨_, .restart hentry₂ hlink hroom htarget₂ habsolute (.inr hinside)⟩
      | some inside =>
        have hfile : entry.isDirectory = false := by simpa using hdirectory
        refine .inr ⟨⟨target, by simp [hnone, hinside]⟩,
          ⟨root₂, inside, expansions + 1, true⟩, ?_, rfl⟩
        exact (Stop.keep hentry₂ hlink hroom htarget₂ habsolute hinside hfile).outcome_eq

/-- A stop below one root is the same below the other, unless it is a short cut
that leads nowhere there. -/
theorem Stop.relocated (hagree : AgreeBelow lookup₁ root₁ lookup₂ root₂)
    (hstop : Stop (.of lookup₁) root₁ path state events result) (hvalid : state.Valid) :
    Alike root₁ root₂ path result (state.outcome lookup₂ root₂ path) ∨
      Divided root₁ root₂ ∧ ShortCut result := by
  cases hstop with
  | arrive =>
    rw [Stop.outcome_eq .arrive]
    exact .inl (.arrived hvalid.trail)
  | refuse hentry hpresent =>
    have hentry₂ := hagree.entry hvalid hentry
    rw [(Stop.refuse hentry₂ hpresent).outcome_eq]
    exact .inl (.failed (List.cons_ne_nil _ _) hvalid.name_cons)
  | giveUp hentry hlink hfull =>
    have hentry₂ := hagree.entry hvalid hentry
    rw [(Stop.giveUp hentry₂ hlink hfull).outcome_eq]
    exact .inl .looped
  | unread hentry hlink hroom htarget =>
    have hentry₂ := hagree.entry hvalid hentry
    have htarget₂ := hagree.target hvalid htarget
    rw [(Stop.unread hentry₂ hlink hroom htarget₂).outcome_eq]
    exact .inl (.failed (List.cons_ne_nil _ _) hvalid.name_cons)
  | @keep trail expansions name rest entry target inside hentry hlink hroom htarget habsolute hinside
      hfile =>
    have hentry₂ := hagree.entry hvalid hentry
    have htarget₂ := hagree.target hvalid htarget
    by_cases hsame : target.inside? root₁ = target.inside? root₂
    · have hinside₂ := hsame.symm.trans hinside
      rw [(Stop.keep hentry₂ hlink hroom htarget₂ habsolute hinside₂ hfile).outcome_eq]
      exact .inl .kept
    · exact .inr ⟨⟨target, hsame⟩, ⟨root₁, inside, expansions + 1, true⟩, rfl, rfl⟩

/-- The runs below the two roots ask the same questions in the same places. Only
the test whether an absolute target lies in the root can tell them apart. -/
theorem LeadsTo.relocated (hagree : AgreeBelow lookup₁ root₁ lookup₂ root₂)
    (hrun : LeadsTo (.of lookup₁) root₁ path state run) (hvalid : state.Valid) :
    Alike root₁ root₂ path run.outcome (state.outcome lookup₂ root₂ path) ∨
      Divided root₁ root₂ ∧
        (ShortCut run.outcome ∨ ShortCut (state.outcome lookup₂ root₂ path)) := by
  induction hrun with
  | stop hstop =>
    rcases hstop.relocated hagree hvalid with halike | ⟨hdivided, hshort⟩
    · exact .inl halike
    · exact .inr ⟨hdivided, .inl hshort⟩
  | move hmove _ ih =>
    rcases hmove.relocated hagree hvalid path with ⟨events', hmove₂⟩ | ⟨hdivided, hshort⟩
    · rw [hmove₂.outcome_eq path]
      exact ih (hmove.valid hvalid)
    · exact .inr ⟨hdivided, .inr hshort⟩

/-- Two ends that are the same seen from the two roots. -/
inductive SameBelow (root₁ root₂ path : Path) :
    Except Error Resolution → Except Error Resolution → Prop where
  | success {r₁ r₂ rel} (h₁ : r₁.relative? = some rel) (h₂ : r₂.relative? = some rel)
      (hexpansions : r₁.expansions = r₂.expansions) :
      SameBelow root₁ root₂ path (.ok r₁) (.ok r₂)
  | loop :
      SameBelow root₁ root₂ path (.error (.symlinkLoop root₁ path maxExpansions))
        (.error (.symlinkLoop root₂ path maxExpansions))
  | failure {names e} (hne : names ≠ []) (hnames : ∀ n ∈ names, ProperName n) :
      SameBelow root₁ root₂ path (.error (.lookup (root₁.confine (.ofNames names)) e))
        (.error (.lookup (root₂.confine (.ofNames names)) e))

/-- An outcome as it reads for a caller who spells the root in another way. -/
def respelled (root : Path) : Except Error Resolution → Except Error Resolution
  | .ok r => .ok { r with root := root }
  | .error (.symlinkLoop _ path limit) => .error (.symlinkLoop root path limit)
  | .error e => .error e

/-- Ends that are no short cuts are the same seen from the roots. -/
theorem Alike.sameBelow {result₁ result₂ : Except Error Resolution}
    (halike : Alike root₁ root₂ path result₁ result₂) (hroot₁ : root₁.isAbsolute = true)
    (hroot₂ : root₂.isAbsolute = true) (hwhole : ¬ ShortCut result₁) :
    SameBelow root₁ root₂ path result₁ result₂ := by
  cases halike with
  | arrived htrail =>
    exact .success (relative?_trailPath hroot₁ htrail _ _)
      (relative?_trailPath hroot₂ htrail _ _) rfl
  | kept => exact absurd ⟨_, rfl, rfl⟩ hwhole
  | looped => exact .loop
  | failed hne htrail => exact .failure (by simpa using hne) (properNames_reverse htrail)

/-- A trail is spelled alike below two spellings of a root. -/
theorem trailPath_congr (hroot₁ : root₁.isAbsolute = true) (hroot₂ : root₂.isAbsolute = true)
    (hroots : root₁.normalize = root₂.normalize) {trail : List Name}
    (htrail : ∀ n ∈ trail, ProperName n) : trailPath root₁ trail = trailPath root₂ trail := by
  have hnames : root₁.place.names = root₂.place.names := by
    rw [Path.normalize_of_isAbsolute hroot₁, Path.normalize_of_isAbsolute hroot₂] at hroots
    have hplaces := congrArg (fun p : Path => p.place.names) hroots
    simpa only [Path.names_place_absolute fun _ => Path.properName_of_mem_place] using hplaces
  rw [trailPath_eq_absolute hroot₁ htrail, trailPath_eq_absolute hroot₂ htrail, hnames]

private theorem Alike.eq_respelled {result₁ result₂ : Except Error Resolution}
    (halike : Alike root₁ root₂ path result₁ result₂) (hroot₁ : root₁.isAbsolute = true)
    (hroot₂ : root₂.isAbsolute = true) (hroots : root₁.normalize = root₂.normalize) :
    result₂ = respelled root₂ result₁ := by
  cases halike with
  | arrived htrail =>
    rw [trailPath_congr hroot₁ hroot₂ hroots htrail]
    rfl
  | kept => rfl
  | looped => rfl
  | failed _ htrail =>
    rw [trailPath_congr hroot₁ hroot₂ hroots htrail]
    rfl

/-- How a resolution ends depends on what lies below the root, and not on where
the root is or how it is spelled. Two things look further: the test for a short
cut compares the target with the root itself, and a loop is reported with the
root as it was given. -/
theorem resolve_relocated (hroot₁ : root₁.isAbsolute = true) (hroot₂ : root₂.isAbsolute = true)
    (hagree : AgreeBelow lookup₁ root₁ lookup₂ root₂) (path : Path) :
    (¬ ShortCut (resolve lookup₁ root₁ path).run.outcome →
      ¬ ShortCut (resolve lookup₂ root₂ path).run.outcome →
        SameBelow root₁ root₂ path (resolve lookup₁ root₁ path).run.outcome
          (resolve lookup₂ root₂ path).run.outcome) ∧
    (root₁.normalize = root₂.normalize → (resolve lookup₂ root₂ path).run.outcome =
      respelled root₂ (resolve lookup₁ root₁ path).run.outcome) := by
  have hrun := (resolve_leadsTo_of lookup₁ root₁ path).relocated hagree (State.Valid.start path)
  rw [← outcome_resolve] at hrun
  constructor
  · intro hwhole₁ hwhole₂
    rcases hrun with halike | ⟨_, hshort | hshort⟩
    · exact halike.sameBelow hroot₁ hroot₂ hwhole₁
    · exact absurd hshort hwhole₁
    · exact absurd hshort hwhole₂
  · intro hroots
    rcases hrun with halike | ⟨⟨target, hdivided⟩, _⟩
    · exact halike.eq_respelled hroot₁ hroot₂ hroots
    · exact absurd (by rw [Path.inside?, Path.inside?, hroots]) hdivided

/-- A tree put under a root. Elsewhere every question is refused. -/
def mounted (lookup : Lookup Id) (root : Path) : Lookup Id where
  inspect p := match p.stripPrefix? root.normalize with
    | some rel => lookup.inspect (Path.rootDirectory.confine rel)
    | none => .error (.ofKind .permissionDenied)
  target p := match p.stripPrefix? root.normalize with
    | some rel => lookup.target (Path.rootDirectory.confine rel)
    | none => .error (.ofKind .permissionDenied)

/-- A tree agrees with itself under two roots. -/
theorem agreeBelow_mounted (lookup : Lookup Id) (hroot₁ : root₁.isAbsolute = true)
    (hroot₂ : root₂.isAbsolute = true) :
    AgreeBelow (mounted lookup root₁) root₁ (mounted lookup root₂) root₂ := by
  constructor
  · intro names _ hnames
    simp only [mounted, Path.stripPrefix?_confine hroot₁ hnames,
      Path.stripPrefix?_confine hroot₂ hnames]
  · intro names _ hnames
    simp only [mounted, Path.stripPrefix?_confine hroot₁ hnames,
      Path.stripPrefix?_confine hroot₂ hnames]

/-- One tree mounted twice; the second root climbs in its own spelling. -/
theorem resolve_mounted_relocated :
    ∃ r₁ r₂, (resolve (mounted detour.lookup (.ofString "/srv")) (.ofString "/srv")
        (.ofString "jail/a/up/new")).run.outcome = .ok r₁ ∧
      (resolve (mounted detour.lookup (.ofString "/mnt/../b/c")) (.ofString "/mnt/../b/c")
        (.ofString "jail/a/up/new")).run.outcome = .ok r₂ ∧
      r₁.path = .ofString "/srv/c/new" ∧ r₂.path = .ofString "/b/c/c/new" ∧
      SameBelow (.ofString "/srv") (.ofString "/mnt/../b/c") (.ofString "jail/a/up/new")
        (.ok r₁) (.ok r₂) := by
  have hr₁ : (resolve (mounted detour.lookup (.ofString "/srv")) (.ofString "/srv")
      (.ofString "jail/a/up/new")).run.outcome =
        .ok ⟨.ofString "/srv", .ofString "/srv/c/new", 1, false⟩ := by cbv
  have hr₂ : (resolve (mounted detour.lookup (.ofString "/mnt/../b/c")) (.ofString "/mnt/../b/c")
      (.ofString "jail/a/up/new")).run.outcome =
        .ok ⟨.ofString "/mnt/../b/c", .ofString "/b/c/c/new", 1, false⟩ := by cbv
  have hrelocated := resolve_relocated (by decide) (by decide)
    (agreeBelow_mounted detour.lookup (by decide : (Path.ofString "/srv").isAbsolute = true)
      (by decide : (Path.ofString "/mnt/../b/c").isAbsolute = true)) (.ofString "jail/a/up/new")
  have hwhole {root p : Path} {expansions : Nat} :
      ¬ ShortCut (.ok ⟨root, p, expansions, false⟩) := by
    rintro ⟨r, hr, hshort⟩
    cases hr
    cases hshort
  rw [hr₁, hr₂] at hrelocated
  exact ⟨_, _, hr₁, hr₂, rfl, rfl, hrelocated.1 hwhole hwhole⟩

/-- A tree agrees with itself below two spellings of a root. -/
theorem AgreeBelow.of_normalize_eq (lookup : Lookup Id) (hroot₁ : root₁.isAbsolute = true)
    (hroot₂ : root₂.isAbsolute = true) (hroots : root₁.normalize = root₂.normalize) :
    AgreeBelow lookup root₁ lookup root₂ := by
  have hplace {names : List Name} (hnames : ∀ n ∈ names, ProperName n) :
      root₁.confine (.ofNames names) = root₂.confine (.ofNames names) := by
    have hback := trailPath_congr hroot₁ hroot₂ hroots (properNames_reverse hnames)
    simpa only [trailPath, List.reverse_reverse] using hback
  constructor
  · intro names _ hnames
    rw [hplace hnames]
  · intro names _ hnames
    rw [hplace hnames]

/-- A tree with a link to itself. -/
def knot : Catalog := Catalog.empty.insert (.ofString "/jail/knot") (.link (.ofString "knot"))

private theorem outcome_resolve_knot {root : Path}
    (hplace : trailPath root [(Path.ofString "knot").bytes] = .ofString "/jail/knot") :
    (resolve knot.lookup root (.ofString "knot")).run.outcome =
      .error (.symlinkLoop root (.ofString "knot") maxExpansions) := by
  have hentry : (knot.lookup.inspect (.ofString "/jail/knot")).run = .ok .link := by cbv
  have htarget : (knot.lookup.target (.ofString "/jail/knot")).run = .ok (.ofString "knot") := by
    cbv
  rw [← hplace] at hentry htarget
  exact State.outcome_selfLink hentry rfl htarget (by decide) (by decide) _ (Nat.zero_le _) []

/-- Two spellings of one root do not give the same error: a loop is reported with
the root as it was spelled. -/
theorem not_forall_error_eq :
    ¬ ∀ (lookup₁ lookup₂ : Lookup Id) (root₁ root₂ path : Path) (e₁ e₂ : Error),
      root₁.isAbsolute = true → root₂.isAbsolute = true →
      AgreeBelow lookup₁ root₁ lookup₂ root₂ → root₁.normalize = root₂.normalize →
      (resolve lookup₁ root₁ path).run.outcome = .error e₁ →
      (resolve lookup₂ root₂ path).run.outcome = .error e₂ → e₁ = e₂ := by
  intro hall
  have hroots : (Path.ofString "/jail").normalize = (Path.ofString "/jail/.").normalize := by cbv
  have hagree := AgreeBelow.of_normalize_eq knot.lookup (by decide) (by decide) hroots
  have hsame := hall _ _ _ _ _ _ _ (by decide) (by decide) hagree hroots
    (outcome_resolve_knot (by cbv)) (outcome_resolve_knot (by cbv))
  have hspelled : Path.ofString "/jail" = .ofString "/jail/." := (Error.symlinkLoop.inj hsame).1
  exact absurd hspelled (by decide)

end TrustedRoot.Resolver
