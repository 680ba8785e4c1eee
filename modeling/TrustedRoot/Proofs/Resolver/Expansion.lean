import TrustedRoot.Proofs.Resolver.Composition

namespace TrustedRoot

namespace Path

private theorem steps_of_components {p : Path} {names : List Name}
    (hp : p.components = names.map .name) : p.steps = names.map .name := by
  rw [components_eq_steps] at hp
  split at hp
  · cases names <;> simp at hp
  · split at hp
    · cases names <;> simp at hp
    · exact hp

private theorem steps_name {n : Name} (hn : ProperName n) : steps ⟨n⟩ = [.name n] := by
  simpa [ofNames, spell] using steps_ofNames (List.forall_mem_singleton.mpr hn)

/-- A path that moves along names alone is confined to them, absolute or not. -/
theorem confinedNames_of_steps {p : Path} {names : List Name} (hp : p.steps = names.map .name) :
    p.confinedNames = names := by
  rw [confinedNames_eq_foldl_steps, hp, Place.foldl_step_names]
  simp [Place.names, Place.start]

private theorem confine_of_steps (root : Path) {p : Path} {names : List Name}
    (hnames : ∀ n ∈ names, ProperName n) (hp : p.steps = names.map .name) :
    root.confine p = root.confine (.ofNames names) := by
  rw [confine, confine, confinedNames_of_steps hp, confinedNames_ofNames hnames]

end Path

namespace Resolver

private theorem settled_of_passable {lookup : Lookup Id} {root : Path} {names : List Name}
    (hpass : ∀ way, way ≠ [] → way <+: names →
      Passable (lookup.inspect (root.confine (.ofNames way))).run) :
    Settled lookup root names.reverse := by
  intro outer houter hne
  have hway : outer.reverse <+: names := by simpa using List.reverse_prefix.mpr houter
  exact hpass outer.reverse (by simpa using hne) hway

private theorem confine_followedBy_name (root : Path) {c : Path} {names : List Name}
    (hc : c.components = names.map .name) {n : Name} (hn : ProperName n) :
    root.confine (c.followedBy ⟨n⟩) = trailPath root (n :: names.reverse) := by
  have hall : ∀ k ∈ names ++ [n], ProperName k := by
    refine List.forall_mem_append.mpr ⟨fun k hk => ?_, List.forall_mem_singleton.mpr hn⟩
    exact Path.properName_of_mem_components (hc ▸ List.mem_map_of_mem hk)
  have hsteps : (c.followedBy ⟨n⟩).steps = (names ++ [n]).map .name := by
    rw [Path.steps_followedBy, Path.steps_of_components hc, Path.steps_name hn, List.map_append,
      List.map_singleton]
  rw [Path.confine_of_steps root hall hsteps, trailPath, List.reverse_cons, List.reverse_reverse]

/-- A way free of links leads to its end, however many links were followed before. -/
theorem State.outcome_way {lookup : Lookup Id} {root c : Path} {names : List Name}
    (hc : c.components = names.map .name)
    (hpass : ∀ way, way ≠ [] → way <+: names →
      Passable (lookup.inspect (root.confine (.ofNames way))).run)
    (path : Path) (spent : Nat) (rest : List Component) :
    State.outcome lookup root path ⟨[], spent, c.steps ++ rest⟩ =
      State.outcome lookup root path ⟨names.reverse, spent, rest⟩ := by
  have htrail := State.outcome_trail (settled_of_passable hpass) path spent rest
  rwa [List.reverse_reverse, ← Path.steps_of_components hc] at htrail

/-- What a link `n` with the target `t`, met at the end of the way `c`, does to a
path that goes on with `q`. -/
structure Expands (lookup : Lookup Id) (root c : Path) (n : Name) (entry : Entry) (t q : Path) :
    Prop where
  /-- A relative target takes the place of the link. -/
  relative : t.isAbsolute = false →
    (resolve lookup root ((c.followedBy ⟨n⟩).followedBy q)).run.outcome =
      (resolve lookup root ((c.followedBy t).followedBy q)).run.resumed root
        ((c.followedBy ⟨n⟩).followedBy q) 1
  /-- An absolute one takes the place of the whole way, as if the root were `/`. -/
  absolute : t.isAbsolute = true → entry.isDirectory = true ∨ t.inside? root = none →
    (resolve lookup root ((c.followedBy ⟨n⟩).followedBy q)).run.outcome =
      (resolve lookup root (t.followedBy q)).run.resumed root
        ((c.followedBy ⟨n⟩).followedBy q) 1
  /-- One that leads into the root is the result itself, whatever `q` is. -/
  shortCut : ∀ inside, t.isAbsolute = true → entry.isDirectory = false →
    t.inside? root = some inside →
      (resolve lookup root ((c.followedBy ⟨n⟩).followedBy q)).run.outcome =
        .ok ⟨root, inside, 1, true⟩

/-- A link is expanded as its target says, with one link more to count. The way
to it has to be free of links. Nothing is asked of the root, of what the target
spells, or of the rest of the path. -/
theorem resolve_expands (lookup : Lookup Id) (root : Path) {c : Path} {names : List Name}
    (hc : c.components = names.map .name)
    (hpass : ∀ way, way ≠ [] → way <+: names →
      Passable (lookup.inspect (root.confine (.ofNames way))).run)
    {n : Name} (hn : ProperName n) {entry : Entry}
    (hentry : (lookup.inspect (root.confine (c.followedBy ⟨n⟩))).run = .ok entry)
    (hlink : entry.isLink = true) {t : Path}
    (htarget : (lookup.target (root.confine (c.followedBy ⟨n⟩))).run = .ok t) (q : Path) :
    Expands lookup root c n entry t q := by
  rw [confine_followedBy_name root hc hn] at hentry htarget
  have hanswer := Answers.entry_of_iff.mpr hentry
  have hread := Answers.target_of_iff.mpr htarget
  have hroom : 0 < maxExpansions := by decide
  have hhead : (resolve lookup root ((c.followedBy ⟨n⟩).followedBy q)).run.outcome =
      State.outcome lookup root ((c.followedBy ⟨n⟩).followedBy q)
        ⟨names.reverse, 0, .name n :: q.steps⟩ := by
    rw [outcome_resolve, State.start, State.outcome_steps, Path.steps_followedBy,
      Path.steps_followedBy, List.append_assoc, State.outcome_way hc hpass, Path.steps_name hn,
      List.singleton_append]
  constructor
  · intro hrelative
    -- The expanded path takes the same way again, now with one link counted.
    rw [hhead, (Move.follow hanswer hlink hroom hread hrelative).outcome_eq,
      State.outcome_components, ← State.outcome_later lookup root _ _ hroom, State.outcome_steps,
      Path.steps_followedBy, Path.steps_followedBy, List.append_assoc,
      State.outcome_way hc hpass]
  · intro habsolute houtside
    rw [hhead, (Move.restart hanswer hlink hroom hread habsolute houtside).outcome_eq,
      State.outcome_components, ← State.outcome_later lookup root _ _ hroom, State.outcome_steps,
      Path.steps_followedBy]
  · intro inside habsolute hfile hinside
    rw [hhead, (Stop.keep hanswer hlink hroom hread habsolute hinside hfile).outcome_eq]

/-- The target of the link `up` climbs to the root and goes down elsewhere. -/
theorem resolve_detour_expands :
    Expands detour.lookup (.ofString "/jail") (.ofString "a/") (Path.ofString "up").bytes .link
        (.ofString "../b/../../c") (.ofString "new") ∧
      (resolve detour.lookup (.ofString "/jail") (.ofString "a//up/new")).run.outcome =
        .ok ⟨.ofString "/jail", .ofString "/jail/c/new", 1, false⟩ := by
  have hc : (Path.ofString "a/").components = [(Path.ofString "a").bytes].map .name := by decide
  have hpass : ∀ way, way ≠ [] → way <+: [(Path.ofString "a").bytes] →
      Passable (detour.lookup.inspect ((Path.ofString "/jail").confine (.ofNames way))).run := by
    intro way hne hway
    obtain ⟨more, rfl, hmore⟩ := (List.prefix_cons_iff.mp hway).resolve_left hne
    obtain rfl := List.prefix_nil.mp hmore
    have hentry : (detour.lookup.inspect ((Path.ofString "/jail").confine
        (.ofNames [(Path.ofString "a").bytes]))).run = .ok .directory := by cbv
    rw [hentry]
    rfl
  have hn : ProperName (Path.ofString "up").bytes := by constructor <;> decide
  have hentry : (detour.lookup.inspect ((Path.ofString "/jail").confine
      ((Path.ofString "a/").followedBy ⟨(Path.ofString "up").bytes⟩))).run = .ok .link := by cbv
  have htarget : (detour.lookup.target ((Path.ofString "/jail").confine
      ((Path.ofString "a/").followedBy ⟨(Path.ofString "up").bytes⟩))).run =
        .ok (.ofString "../b/../../c") := by cbv
  have hexpands := resolve_expands detour.lookup (.ofString "/jail") hc hpass hn hentry rfl htarget
    (.ofString "new")
  have hend : (resolve detour.lookup (.ofString "/jail")
      (((Path.ofString "a/").followedBy (.ofString "../b/../../c")).followedBy
        (.ofString "new"))).run.outcome =
      .ok ⟨.ofString "/jail", .ofString "/jail/c/new", 0, false⟩ := by cbv
  exact ⟨hexpands, (hexpands.relative (by decide)).trans (Run.resumed_of_ok _ _ hend (by decide))⟩

/-- A link to itself is followed up to the limit, whatever comes after it. -/
theorem State.outcome_selfLink {lookup : Lookup Id} {root : Path} {trail : List Name} {name : Name}
    {entry : Entry} {target : Path}
    (hentry : (lookup.inspect (trailPath root (name :: trail))).run = .ok entry)
    (hlink : entry.isLink = true)
    (htarget : (lookup.target (trailPath root (name :: trail))).run = .ok target)
    (hrelative : target.isAbsolute = false) (hself : target.steps = [.name name]) (path : Path)
    {expansions : Nat} (hle : expansions ≤ maxExpansions) (rest : List Component) :
    State.outcome lookup root path ⟨trail, expansions, .name name :: rest⟩ =
      .error (.symlinkLoop root path maxExpansions) := by
  have hanswer := Answers.entry_of_iff.mpr hentry
  have hread := Answers.target_of_iff.mpr htarget
  obtain ⟨left, hleft⟩ := Nat.exists_eq_add_of_le hle
  induction left generalizing expansions with
  | zero => exact (Stop.giveUp hanswer hlink hleft.le).outcome_eq
  | succ left ih =>
    have hroom : expansions < maxExpansions := by omega
    rw [(Move.follow hanswer hlink hroom hread hrelative).outcome_eq, State.outcome_components,
      hself]
    exact ih hroom (by omega)

end Resolver
end TrustedRoot
