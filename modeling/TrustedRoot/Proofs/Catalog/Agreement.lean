import TrustedRoot.Proofs.Catalog.Building
import TrustedRoot.Proofs.Catalog.Following
import TrustedRoot.Proofs.Resolver.Composition

namespace TrustedRoot.Catalog

open Resolver (State Move Stop Settled Answers trailPath trailPath_eq_absolute)

variable {catalog : Catalog} {trail : List Name} {n : Name}

/-- Every target that the catalogue stores is relative. -/
def LinksRelative (catalog : Catalog) : Prop :=
  ∀ q target : Path, catalog.nodes[q]? = some (.link target) → target.isAbsolute = false

/-- An empty catalogue stores no target that could be absolute. -/
theorem linksRelative_empty : empty.LinksRelative := by
  intro q target hlink
  simp [empty] at hlink

/-- The directories that an insertion makes are no links, so a tree stays one of
relative targets as long as those that are put in are relative. -/
theorem LinksRelative.insert (hrelative : catalog.LinksRelative) (p : Path) {node : Node}
    (hnode : ∀ target : Path, node = .link target → target.isAbsolute = false) :
    (catalog.insert p node).LinksRelative := by
  intro q target hlink
  rw [getElem?_nodes_insert] at hlink
  split at hlink
  · exact hnode target (Option.some.inj hlink)
  · rcases Option.or_eq_some_iff.mp hlink with hheld | ⟨_, hmade⟩
    · exact hrelative q target hheld
    · simp at hmade

/-- A relative target may be stored. -/
theorem LinksRelative.insert_link (hrelative : catalog.LinksRelative) (p : Path) {target : Path}
    (htarget : target.isAbsolute = false) : (catalog.insert p (.link target)).LinksRelative := by
  refine hrelative.insert p fun stored hstored => ?_
  cases hstored
  exact htarget

/-- Every place on the way down the trail is a directory of the catalogue. -/
def Standing (catalog : Catalog) (trail : List Name) : Prop :=
  ∀ outer, outer <:+ trail → outer ≠ [] →
    catalog.nodes[Path.absolute outer.reverse]? = some .directory

/-- Above a standing trail, every place stands. -/
theorem Standing.tail (hstanding : Standing catalog (n :: trail)) : Standing catalog trail :=
  fun outer houter => hstanding outer (houter.trans (List.suffix_cons _ _))

/-- A standing trail goes on with any directory that is there. -/
theorem Standing.cons (hstanding : Standing catalog trail)
    (hnode : catalog.nodes[Path.absolute (n :: trail).reverse]? = some .directory) :
    Standing catalog (n :: trail) := by
  intro outer houter hne
  rcases List.suffix_cons_iff.mp houter with rfl | houter
  · exact hnode
  · exact hstanding outer houter hne

/-- The way down to a standing directory leads there without a link. -/
theorem Standing.descend (hstanding : Standing catalog trail) :
    catalog.descend [] 0 (trail.reverse.map .name) = .ok (trail, 0) := by
  induction trail with
  | nil =>
    rw [List.reverse_nil, List.map_nil, Catalog.descend]
  | cons n above ih =>
    have hnode := hstanding (n :: above) (List.suffix_refl _) (List.cons_ne_nil _ _)
    rw [List.reverse_cons, List.map_append, descend_append, ih hstanding.tail]
    change catalog.descend above 0 [.name n] = _
    rw [Catalog.descend, hnode]
    exact descend.eq_1 ..

/-- Below a standing trail a name is found as it is stored, with no link on the way. -/
theorem Standing.find? (hstanding : Standing catalog trail) (hfailures : catalog.failures = ∅)
    (hnames : ∀ k ∈ n :: trail, ProperName k) {node : Node}
    (hnode : catalog.nodes[Path.absolute (n :: trail).reverse]? = some node) :
    catalog.find? (trailPath .rootDirectory (n :: trail)) = .ok (some node) := by
  have hplace : trailPath .rootDirectory (n :: trail) = .absolute (trail.reverse ++ [n]) := by
    rw [trailPath_eq_absolute rfl hnames, List.reverse_cons]
    rfl
  have hreverse : ∀ k ∈ trail.reverse ++ [n], ProperName k := by
    simpa using properNames_reverse hnames
  rw [hplace, find?_absolute hfailures hreverse hstanding.descend, hnode]

/-- An inspection below a standing trail tells what is stored there. -/
theorem Standing.inspect (hstanding : Standing catalog trail) (hfailures : catalog.failures = ∅)
    (hnames : ∀ k ∈ n :: trail, ProperName k) {node : Node}
    (hnode : catalog.nodes[Path.absolute (n :: trail).reverse]? = some node) :
    (Answers.of catalog.lookup).entry (trailPath .rootDirectory (n :: trail)) (.ok node.entry) := by
  have hfind := hstanding.find? hfailures hnames hnode
  rw [Answers.entry_of_iff]
  change catalog.inspect _ = _
  rw [Catalog.inspect, hfind]
  rfl

/-- A link below a standing trail is read as it is stored. -/
theorem Standing.target (hstanding : Standing catalog trail) (hfailures : catalog.failures = ∅)
    (hnames : ∀ k ∈ n :: trail, ProperName k) {target : Path}
    (hnode : catalog.nodes[Path.absolute (n :: trail).reverse]? = some (.link target)) :
    (Answers.of catalog.lookup).target (trailPath .rootDirectory (n :: trail)) (.ok target) := by
  have hfind := hstanding.find? hfailures hnames hnode
  rw [Answers.target_of_iff]
  change catalog.target _ = _
  rw [Catalog.target, hfind]
  rfl

/-- Directories are no links, so a standing trail is settled. -/
theorem Standing.settled (hstanding : Standing catalog trail) (hfailures : catalog.failures = ∅)
    (htrail : ∀ k ∈ trail, ProperName k) : Settled catalog.lookup .rootDirectory trail := by
  intro outer houter hne
  obtain ⟨n, above, rfl⟩ := List.exists_cons_of_ne_nil hne
  have hnames : ∀ k ∈ n :: above, ProperName k := fun k hk => htrail k (houter.subset hk)
  have habove : Standing catalog above := fun more hmore =>
    hstanding more ((hmore.trans (List.suffix_cons _ _)).trans houter)
  have hentry := habove.inspect hfailures hnames (hstanding _ houter hne)
  rw [Answers.entry_of_iff] at hentry
  rw [hentry]
  rfl

/-- Reading a relative target from a standing directory, or going on with it from
there, comes to the same. -/
theorem Standing.outcome_join (hstanding : Standing catalog trail)
    (hfailures : catalog.failures = ∅) (htrail : ∀ k ∈ trail, ProperName k) {target : Path}
    (hrelative : target.isAbsolute = false) (path : Path) (expansions : Nat)
    (rest : List Component) :
    State.outcome catalog.lookup .rootDirectory path
        ⟨[], expansions, ((Path.absolute trail.reverse).join target).components ++ rest⟩ =
      State.outcome catalog.lookup .rootDirectory path
        ⟨trail, expansions, target.components ++ rest⟩ := by
  rw [State.outcome_components, State.outcome_components, Path.steps_join _ hrelative,
    Path.steps_absolute (properNames_reverse htrail), List.append_assoc,
    State.outcome_trail (hstanding.settled hfailures htrail)]

/-- If the walk through the catalogue succeeds, the resolution goes the same way,
name by name and link by link. At a link the walk starts again from the top with
the way to the link in front of the target; the resolution stays where it is. -/
theorem outcome_of_descend (hfailures : catalog.failures = ∅)
    (hrelative : catalog.LinksRelative)
    {hops : Nat} {pending : List Component} (htrail : ∀ k ∈ trail, ProperName k)
    (hpending : ∀ k, .name k ∈ pending → ProperName k) (hstanding : Standing catalog trail)
    {spot : List Name × Nat} (hspot : catalog.descend trail hops pending = .ok spot) (path : Path) :
    State.outcome catalog.lookup .rootDirectory path ⟨trail, hops, pending⟩ =
      .ok ⟨.rootDirectory, trailPath .rootDirectory spot.1, spot.2, false⟩ := by
  induction trail, hops, pending using descend.induct catalog with
  | case1 trail hops =>
    rw [Catalog.descend] at hspot
    cases hspot
    exact Stop.outcome_eq .arrive
  | case2 trail hops rest ih =>
    rw [Catalog.descend] at hspot
    rw [Move.outcome_eq (.stay (.inl rfl))]
    exact ih htrail (Path.properName_of_mem_rest hpending) hstanding hspot
  | case3 trail hops rest ih =>
    rw [Catalog.descend] at hspot
    rw [Move.outcome_eq (.stay (.inr rfl))]
    exact ih htrail (Path.properName_of_mem_rest hpending) hstanding hspot
  | case4 trail hops rest ih =>
    rw [Catalog.descend] at hspot
    have hrest := Path.properName_of_mem_rest hpending
    cases trail with
    | nil =>
      rw [Move.outcome_eq .clamp]
      exact ih htrail hrest hstanding hspot
    | cons n above =>
      rw [Move.outcome_eq .leave]
      exact ih (List.forall_mem_cons.mp htrail).2 hrest hstanding.tail hspot
  | case5 trail hops name rest hnode | case6 trail hops name rest hnode =>
    rw [Catalog.descend, hnode] at hspot
    cases hspot
  | case7 trail hops name rest hnode ih =>
    rw [Catalog.descend, hnode] at hspot
    have hnames := List.forall_mem_cons.mpr ⟨hpending name List.mem_cons_self, htrail⟩
    have hentry := hstanding.inspect hfailures hnames hnode
    rw [Move.outcome_eq (.enter hentry rfl)]
    exact ih hnames (Path.properName_of_mem_rest hpending) (hstanding.cons hnode) hspot
  | case8 trail hops name rest target hnode hfull =>
    rw [Catalog.descend, hnode] at hspot
    simp only [if_pos hfull] at hspot
    cases hspot
  | case9 trail hops name rest target hnode hroom joined ih =>
    rw [Catalog.descend, hnode] at hspot
    simp only [if_neg hroom] at hspot
    have hnames := List.forall_mem_cons.mpr ⟨hpending name List.mem_cons_self, htrail⟩
    have hentry := hstanding.inspect hfailures hnames hnode
    have htarget := hstanding.target hfailures hnames hnode
    have hlimit : hops < Resolver.maxExpansions := (not_le.mp hroom).trans (by decide)
    -- From here the resolution and the walk hold the target behind different trails.
    rw [Move.outcome_eq (.follow hentry rfl hlimit htarget (hrelative _ _ hnode)),
      ← hstanding.outcome_join hfailures htrail (hrelative _ _ hnode)]
    have hjoined : joined = (Path.absolute trail.reverse).join target := by simp [joined]
    rw [← hjoined] at hspot ⊢
    refine ih (by simp) ?_ (by simp [Standing]) hspot
    exact Path.properName_of_mem_components_append (Path.properName_of_mem_rest hpending)

/-- Where every stored target is relative, resolution below `/` follows the links
that the walk through the catalogue follows, and ends in the same directory. -/
theorem resolve_of_directory (hfailures : catalog.failures = ∅)
    (hrelative : catalog.LinksRelative)
    {p d : Path} {hops : Nat} (hd : catalog.directory p = .ok (d, hops)) :
    (Resolver.resolve catalog.lookup .rootDirectory p).run.outcome =
      .ok ⟨.rootDirectory, d, hops, false⟩ := by
  have hpending : ∀ k, .name k ∈ p.components → ProperName k := fun _ =>
    Path.properName_of_mem_components
  obtain ⟨trail, htrail, hproper, rfl⟩ := exists_descend_of_directory hd
  have hend := outcome_of_descend hfailures hrelative (by simp) hpending (by simp [Standing])
    htrail p
  rw [Resolver.outcome_resolve, State.start, hend, trailPath_eq_absolute rfl hproper]
  rfl

/-- A tree of links that climb, that are empty, and that lead to other links. -/
def stairwell : Catalog :=
  ((((Catalog.empty.insert (.ofString "/a/b/up") (.link (.ofString "../../c//next"))).insert
    (.ofString "/c/next") (.link (.ofString ""))).insert (.ofString "/c/deep")
      (.link (.ofString "../d/down"))).insert (.ofString "/d/down") (.link (.ofString "./x"))).insert
        (.ofString "/d/x/y") .directory

/-- Four links lead both to the same place, from an empty target up to one that climbs. -/
theorem resolve_stairwell :
    stairwell.directory (.ofString "a/b/up/deep/./y") = .ok (.ofString "/d/x/y", 4) ∧
      (Resolver.resolve stairwell.lookup .rootDirectory (.ofString "a/b/up/deep/./y")).run.outcome =
        .ok ⟨.rootDirectory, .ofString "/d/x/y", 4, false⟩ := by
  have hrelative : stairwell.LinksRelative := by
    have hclimb : (Path.ofString "../../c//next").isAbsolute = false := by decide
    have hempty : (Path.ofString "").isAbsolute = false := by decide
    have hacross : (Path.ofString "../d/down").isAbsolute = false := by decide
    have hbelow : (Path.ofString "./x").isAbsolute = false := by decide
    exact ((((linksRelative_empty.insert_link _ hclimb).insert_link _ hempty).insert_link _
      hacross).insert_link _ hbelow).insert _ (by simp)
  have hd : stairwell.directory (.ofString "a/b/up/deep/./y") = .ok (.ofString "/d/x/y", 4) := by
    cbv
  exact ⟨hd, resolve_of_directory rfl hrelative hd⟩

end TrustedRoot.Catalog
