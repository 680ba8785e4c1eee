import TrustedRoot.Proofs.Path.NormalForm
import TrustedRoot.Proofs.Resolver.Runs

namespace TrustedRoot.Resolver

/-- What holds of every state of a resolution: the names on the trail and the
names still to be taken are proper, and no more links were followed than may be. -/
structure State.Valid (state : State) : Prop where
  trail : ∀ n ∈ state.trail, ProperName n
  pending : ∀ n, .name n ∈ state.pending → ProperName n
  expansions_le : state.expansions ≤ maxExpansions

/-- A resolution begins in a valid state. -/
theorem State.Valid.start (path : Path) : (State.start path).Valid where
  trail := by simp [State.start]
  pending _ hn := Path.properName_of_mem_components hn
  expansions_le := Nat.zero_le _

/-- The trail of a valid state is proper with the next name on it too. -/
theorem State.Valid.name_cons {trail : List Name} {expansions : Nat} {name : Name}
    {rest : List Component} (hvalid : State.Valid ⟨trail, expansions, .name name :: rest⟩) :
    ∀ n ∈ name :: trail, ProperName n :=
  List.forall_mem_cons.mpr ⟨hvalid.pending name List.mem_cons_self, hvalid.trail⟩

/-- A move keeps a state valid. The names of a target that is put in front are
proper because they come out of a spelling. -/
theorem Move.valid {answers : Answers} {root : Path} {state next : State} {events : List Event}
    (hmove : Move answers root state events next) (hvalid : state.Valid) : next.Valid := by
  obtain ⟨htrail, hpending, hle⟩ := hvalid
  cases hmove with
  | stay | clamp => exact ⟨htrail, Path.properName_of_mem_rest hpending, hle⟩
  | leave =>
    exact ⟨(List.forall_mem_cons.mp htrail).2, Path.properName_of_mem_rest hpending, hle⟩
  | @enter trail expansions name rest =>
    have hname := hpending name List.mem_cons_self
    exact ⟨List.forall_mem_cons.mpr ⟨hname, htrail⟩, Path.properName_of_mem_rest hpending, hle⟩
  | follow _ _ hroom =>
    have hrest := Path.properName_of_mem_rest hpending
    exact ⟨htrail, Path.properName_of_mem_components_append hrest, hroom⟩
  | restart _ _ hroom =>
    have hrest := Path.properName_of_mem_rest hpending
    exact ⟨by simp, Path.properName_of_mem_components_append hrest, hroom⟩

/-- Below an absolute root a trail is spelled behind the names of the root. -/
theorem trailPath_eq_absolute {root : Path} (hroot : root.isAbsolute = true) {trail : List Name}
    (htrail : ∀ n ∈ trail, ProperName n) :
    trailPath root trail = .absolute (root.place.names ++ trail.reverse) :=
  Path.confine_ofNames hroot (properNames_reverse htrail)

/-- What a trail is below the root is its names. -/
theorem relative?_trailPath {root : Path} (hroot : root.isAbsolute = true) {trail : List Name}
    (htrail : ∀ n ∈ trail, ProperName n) (expansions : Nat) (shortCircuited : Bool) :
    Resolution.relative? ⟨root, trailPath root trail, expansions, shortCircuited⟩ =
      some (.ofNames trail.reverse) :=
  Path.stripPrefix?_confine hroot (properNames_reverse htrail)

/-- A result that is confined to its root, by every measure at hand. -/
structure Confined (root : Path) (r : Resolution) : Prop where
  root_eq : r.root = root
  normalize_path : r.path.normalize = r.path
  startsWith_root : r.path.startsWith root.normalize = true
  isWithin_root : Kinship.isWithin r.path root = true
  /-- The rest below the root is made of names only and leads back to the path. -/
  relative : ∃ names, r.relative? = some (.ofNames names) ∧
    (Path.ofNames names).components = names.map .name ∧ root.confine (.ofNames names) = r.path
  expansions_le : r.expansions ≤ maxExpansions
  expanded : r.shortCircuited = true → 1 ≤ r.expansions

/-- Confinement comes down to the names of the path: those of the root come
first, and the others are proper. -/
theorem confined_of_path {root : Path} (hroot : root.isAbsolute = true) {r : Resolution}
    {names : List Name} (hnames : ∀ n ∈ names, ProperName n) (hr : r.root = root)
    (hpath : r.path = .absolute (root.place.names ++ names))
    (hle : r.expansions ≤ maxExpansions) (hexpanded : r.shortCircuited = true → 1 ≤ r.expansions) :
    Confined root r := by
  have hbase : ∀ n ∈ root.place.names, ProperName n := fun _ => Path.properName_of_mem_place
  have hboth := List.forall_mem_append.mpr ⟨hbase, hnames⟩
  have hprefix := List.prefix_append root.place.names names
  refine ⟨hr, ?_, ?_, ?_, ⟨names, ?_, Path.components_ofNames hnames, ?_⟩, hle, hexpanded⟩
  · rw [hpath, Path.normalize_absolute hboth]
  · rw [hpath, Path.normalize_of_isAbsolute hroot, Path.startsWith_absolute hboth hbase]
    exact hprefix
  · rw [Kinship.isWithin_iff_prefix (by rw [hpath]; rfl) hroot, hpath,
      Path.names_place_absolute hboth]
    exact hprefix
  · rw [Resolution.relative?, hr, hpath, Path.normalize_of_isAbsolute hroot,
      Path.stripPrefix?_absolute hbase hnames]
  · rw [Path.confine_ofNames hroot hnames, hpath]

/-- Both ways to succeed, at the end of the path and at a target that is taken
as it stands, give a confined result. -/
theorem Stop.confined {answers : Answers} {root path : Path} {state : State} {events : List Event}
    {r : Resolution} (hstop : Stop answers root path state events (.ok r))
    (hroot : root.isAbsolute = true) (hvalid : state.Valid) : Confined root r := by
  obtain ⟨htrail, _, hle⟩ := hvalid
  cases hstop with
  | @arrive trail expansions =>
    exact confined_of_path hroot (properNames_reverse htrail) rfl
      (trailPath_eq_absolute hroot htrail) hle (by simp)
  | keep _ _ hroom _ habsolute hinside =>
    obtain ⟨names, hnames, hpath⟩ := Path.inside?_eq_some hroot habsolute hinside
    exact confined_of_path hroot hnames rfl hpath hroom fun _ => Nat.le_add_left 1 _

/-- Every success of a run from a valid state is confined. -/
theorem LeadsTo.confined {answers : Answers} {root path : Path} {state : State} {run : Run}
    (hrun : LeadsTo answers root path state run) (hroot : root.isAbsolute = true)
    (hvalid : state.Valid) {r : Resolution} (hr : run.outcome = .ok r) : Confined root r := by
  induction hrun with
  | stop hstop =>
    subst hr
    exact hstop.confined hroot hvalid
  | move hmove _ ih => exact ih (hmove.valid hvalid) hr

/-- A resolution that succeeds is confined, whatever the lookup answers: it may
answer wrongly, and the same question differently each time. Only the root has
to be absolute; nothing is asked of the untrusted path. -/
theorem resolve_confined {σ : Type} (lookup : Lookup (StateM σ)) (s : σ) {root : Path}
    (hroot : root.isAbsolute = true) (path : Path) {r : Resolution}
    (hr : ((resolve lookup root path).run s).1.outcome = .ok r) : Confined root r :=
  (resolve_leadsTo_any lookup s root path).confined hroot (State.Valid.start path) hr

/-- A lookup that changes its mind. It takes everything for a link until it was
asked three times, and for a directory from then on. -/
def fickle : Lookup (StateM Nat) where
  inspect _ := fun asked => (.ok (if asked < 3 then .link else .directory), asked + 1)
  target _ := fun asked => (.ok (.ofString "/../up/./x"), asked + 1)

/-- The entry `up` is a link when it is met first and a directory the next time. -/
theorem resolve_fickle_confined :
    ∃ r, ((resolve fickle (.ofString "/srv/../jail") (.ofString "../a")).run 0).1.outcome = .ok r ∧
      Confined (.ofString "/srv/../jail") r := by
  have hr : ((resolve fickle (.ofString "/srv/../jail") (.ofString "../a")).run 0).1.outcome =
      .ok ⟨.ofString "/srv/../jail", .ofString "/jail/up/x/x", 2, false⟩ := by cbv
  exact ⟨_, hr, resolve_confined fickle 0 (by decide) _ hr⟩

end TrustedRoot.Resolver
