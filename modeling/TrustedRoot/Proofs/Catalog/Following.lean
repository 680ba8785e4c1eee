import TrustedRoot.Catalog
import TrustedRoot.Proofs.Resolver.Stability

namespace TrustedRoot.Catalog

/-- A walk along two lists of components is a walk along the first and then,
from where that ends, along the second. Targets of links that are put in front
stay in front of both. -/
theorem descend_append (catalog : Catalog) (trail : List Name) (hops : Nat)
    (front back : List Component) :
    catalog.descend trail hops (front ++ back) =
      (catalog.descend trail hops front).bind fun spot => catalog.descend spot.1 spot.2 back := by
  induction trail, hops, front using descend.induct catalog with
  | case1 trail hops =>
    rw [List.nil_append, descend]
    rfl
  | case2 trail hops rest ih | case3 trail hops rest ih =>
    rw [List.cons_append, descend, descend, ih]
  | case4 trail hops rest ih =>
    rw [List.cons_append, descend, descend]
    simpa using ih
  | case5 trail hops name rest hnode | case6 trail hops name rest hnode =>
    rw [List.cons_append, descend, descend, hnode]
    rfl
  | case7 trail hops name rest hnode ih =>
    rw [List.cons_append, descend, descend, hnode]
    exact ih
  | case8 trail hops name rest target hnode hfull =>
    rw [List.cons_append, descend, descend, hnode]
    simp only [if_pos hfull]
    rfl
  | case9 trail hops name rest target hnode hroom joined ih =>
    rw [List.cons_append, descend, descend, hnode]
    simp only [if_neg hroom]
    simpa [joined] using ih

/-- The directory that a walk ends in is named by proper names, whether they
come from the path or from the target of a link. -/
theorem properName_of_descend (catalog : Catalog) {trail : List Name} {hops : Nat}
    {pending : List Component} (htrail : ∀ n ∈ trail, ProperName n)
    (hpending : ∀ n, .name n ∈ pending → ProperName n) {spot : List Name × Nat}
    (hspot : catalog.descend trail hops pending = .ok spot) : ∀ n ∈ spot.1, ProperName n := by
  induction trail, hops, pending using descend.induct catalog with
  | case1 trail hops =>
    rw [descend] at hspot
    cases hspot
    exact htrail
  | case2 trail hops rest ih | case3 trail hops rest ih =>
    rw [descend] at hspot
    exact ih htrail (Path.properName_of_mem_rest hpending) hspot
  | case4 trail hops rest ih =>
    rw [descend] at hspot
    refine ih ?_ (Path.properName_of_mem_rest hpending) (by simpa using hspot)
    exact fun n hn => htrail n (List.mem_of_mem_tail (by simpa using hn))
  | case5 trail hops name rest hnode | case6 trail hops name rest hnode =>
    rw [descend, hnode] at hspot
    cases hspot
  | case7 trail hops name rest hnode ih =>
    rw [descend, hnode] at hspot
    have hname := hpending name List.mem_cons_self
    exact ih (List.forall_mem_cons.mpr ⟨hname, htrail⟩) (Path.properName_of_mem_rest hpending) hspot
  | case8 trail hops name rest target hnode hfull =>
    rw [descend, hnode] at hspot
    simp only [if_pos hfull] at hspot
    cases hspot
  | case9 trail hops name rest target hnode hroom joined ih =>
    rw [descend, hnode] at hspot
    simp only [if_neg hroom] at hspot
    refine ih (by simp) ?_ (by simpa [joined] using hspot)
    exact Path.properName_of_mem_components_append (Path.properName_of_mem_rest hpending)

/-- The directory that names lead to is where the walk along them ends. -/
theorem directory_absolute (catalog : Catalog) {names : List Name}
    (hnames : ∀ n ∈ names, ProperName n) :
    catalog.directory (.absolute names) =
      (catalog.descend [] 0 (names.map .name)).map fun (trail, hops) =>
        (.absolute trail.reverse, hops) := by
  rw [directory, Path.components_absolute hnames, descend]

/-- A directory is spelled by the names that the walk to it came down. -/
theorem exists_descend_of_directory {catalog : Catalog} {p d : Path} {hops : Nat}
    (hd : catalog.directory p = .ok (d, hops)) :
    ∃ trail, catalog.descend [] 0 p.components = .ok (trail, hops) ∧
      (∀ n ∈ trail, ProperName n) ∧ d = .absolute trail.reverse := by
  have hpending : ∀ n, .name n ∈ p.components → ProperName n := fun _ =>
    Path.properName_of_mem_components
  cases hspot : catalog.descend [] 0 p.components with
  | error e =>
    rw [directory, hspot] at hd
    cases hd
  | ok spot =>
    rw [directory, hspot] at hd
    cases hd
    exact ⟨spot.1, rfl, catalog.properName_of_descend (by simp) hpending hspot, rfl⟩

/-- A directory that names lead to is spelled by the proper names that the walk ends with. -/
theorem exists_trail_of_directory {catalog : Catalog} {names : List Name}
    (hnames : ∀ n ∈ names, ProperName n) {d : Path} {hops : Nat}
    (hd : catalog.directory (.absolute names) = .ok (d, hops)) :
    ∃ trail, catalog.descend [] 0 (names.map .name) = .ok (trail, hops) ∧
      (∀ n ∈ trail, ProperName n) ∧ d = .absolute trail.reverse := by
  obtain ⟨trail, htrail, hproper, rfl⟩ := exists_descend_of_directory hd
  rw [Path.components_absolute hnames, descend] at htrail
  exact ⟨trail, htrail, hproper, rfl⟩

/-- Without failures set up, what a path names is what the catalogue holds where
the walk to its directory ends, and the walk fails as the question does. -/
theorem find?_absolute_eq_bind {catalog : Catalog} (hfailures : catalog.failures = ∅)
    {names : List Name} {n : Name} (hnames : ∀ k ∈ names ++ [n], ProperName k) :
    catalog.find? (.absolute (names ++ [n])) =
      (catalog.descend [] 0 (names.map .name)).bind fun spot =>
        match catalog.nodes[Path.absolute (n :: spot.1).reverse]? with
        | none => .error (.ofKind .notFound)
        | some node => .ok (some node) := by
  have hfront : ∀ k ∈ names, ProperName k := fun k hk => hnames k (List.mem_append_left _ hk)
  have hlast : ∀ k ∈ [n], ProperName k := fun k hk => hnames k (List.mem_append_right _ hk)
  rw [find?, hfailures, Path.normalize_absolute hnames]
  simp only [Std.ExtTreeMap.getElem?_empty]
  rw [node?, Path.fileName?_absolute hnames, Path.parent?_absolute hnames]
  simp only [Option.getD_some, directory_absolute catalog hfront]
  cases htop : catalog.descend [] 0 (names.map .name) with
  | error e => rfl
  | ok spot =>
    have hproper := properNames_reverse
      (catalog.properName_of_descend (by simp) (by simpa using hfront) htop)
    have hkey : (Path.absolute spot.1.reverse).join ⟨n⟩ = .absolute (n :: spot.1).reverse := by
      rw [List.reverse_cons]
      exact Path.join_absolute hproper hlast (List.cons_ne_nil n [])
    exact congrArg (fun key => match catalog.nodes[key]? with
      | none => Except.error (IoError.ofKind .notFound)
      | some node => .ok (some node)) hkey

/-- What names lead to is the node of the last one, below the directory of the others. -/
theorem find?_absolute {catalog : Catalog} (hfailures : catalog.failures = ∅)
    {names top : List Name} {n : Name} {hops : Nat} (hnames : ∀ k ∈ names ++ [n], ProperName k)
    (htop : catalog.descend [] 0 (names.map .name) = .ok (top, hops)) :
    catalog.find? (.absolute (names ++ [n])) =
      match catalog.nodes[Path.absolute (n :: top).reverse]? with
      | none => .error (.ofKind .notFound)
      | some node => .ok (some node) := by
  rw [find?_absolute_eq_bind hfailures hnames, htop]
  rfl

/-- An inspection tells the node below the directory to which the walk along the names
in front leads. -/
theorem inspect_absolute {catalog : Catalog} (hfailures : catalog.failures = ∅)
    {names top : List Name} {n : Name} {hops : Nat} (hnames : ∀ k ∈ names ++ [n], ProperName k)
    (htop : catalog.descend [] 0 (names.map .name) = .ok (top, hops)) :
    catalog.inspect (.absolute (names ++ [n])) =
      match catalog.nodes[Path.absolute (n :: top).reverse]? with
      | none => .error (.ofKind .notFound)
      | some node => .ok node.entry := by
  rw [inspect, find?_absolute hfailures hnames htop]
  cases catalog.nodes[Path.absolute (n :: top).reverse]? <;> rfl

/-- Below a directory that a walk reached, names that are no links lead straight
down, or to where there is nothing. -/
theorem descend_passable {catalog : Catalog} (hfailures : catalog.failures = ∅)
    {base names top : List Name} {hops : Nat} (hnames : ∀ n ∈ base ++ names, ProperName n)
    (htop : catalog.descend [] 0 (base.map .name) = .ok (top, hops))
    (hpass : ∀ way, way ≠ [] → way <+: names →
      Resolver.Passable (catalog.inspect (.absolute (base ++ way)))) :
    catalog.descend top hops (names.map .name) = .ok (names.reverse ++ top, hops) ∨
      ∃ e, catalog.descend top hops (names.map .name) = .error e ∧ e.meansAbsent = true := by
  induction names generalizing base top with
  | nil =>
    rw [List.map_nil, descend]
    exact .inl rfl
  | cons n more ih =>
    have hall : ∀ k ∈ (base ++ [n]) ++ more, ProperName k := by simpa using hnames
    have hfront : ∀ k ∈ base ++ [n], ProperName k := fun k hk =>
      hall k (List.mem_append_left more hk)
    have hn := hpass [n] (List.cons_ne_nil _ _) (by simp)
    rw [inspect_absolute hfailures hfront htop] at hn
    rw [List.map_cons, descend]
    cases hnode : catalog.nodes[Path.absolute (n :: top).reverse]? with
    | none => exact .inr ⟨_, rfl, rfl⟩
    | some node =>
      rw [hnode] at hn
      cases node with
      | file => exact .inr ⟨_, rfl, rfl⟩
      | link target => cases hn
      | directory =>
        have hstep : catalog.descend [] 0 ((base ++ [n]).map .name) = .ok (n :: top, hops) := by
          rw [List.map_append, descend_append, htop]
          change catalog.descend top hops [.name n] = .ok (n :: top, hops)
          rw [descend, hnode]
          exact descend.eq_1 ..
        have hrest : ∀ way, way ≠ [] → way <+: more →
            Resolver.Passable (catalog.inspect (.absolute ((base ++ [n]) ++ way))) := by
          intro way _ hway
          have hlonger := hpass (n :: way) (List.cons_ne_nil _ _) (by simpa using hway)
          simpa using hlonger
        simpa using ih hall hstep hrest

/-- Following a path below an absolute root stays inside the directory that the
root leads to if no place on the way from the root is a link. -/
theorem directory_isWithin_of_passable {catalog : Catalog} (hfailures : catalog.failures = ∅)
    {root top p d : Path} {hops links : Nat} (hroot : root.isAbsolute = true)
    (htop : catalog.directory root.normalize = .ok (top, hops)) {names : List Name}
    (hnames : ∀ n ∈ names, ProperName n) (hp : p = .absolute (root.place.names ++ names))
    (hpass : ∀ way, way ≠ [] → way <+: names →
      Resolver.Passable (catalog.inspect (root.confine (.ofNames way))))
    (hd : catalog.directory p = .ok (d, links)) : Kinship.isWithin d top = true := by
  have hbase : ∀ n ∈ root.place.names, ProperName n := fun _ => Path.properName_of_mem_place
  have hall := List.forall_mem_append.mpr ⟨hbase, hnames⟩
  rw [Path.normalize_of_isAbsolute hroot] at htop
  obtain ⟨outer, houter, houterProper, rfl⟩ := exists_trail_of_directory hbase htop
  obtain ⟨trail, htrail, htrailProper, rfl⟩ := exists_trail_of_directory hall (hp ▸ hd)
  have hway : ∀ way, way ≠ [] → way <+: names →
      Resolver.Passable (catalog.inspect (.absolute (root.place.names ++ way))) := by
    intro way hne hway
    have hway' : ∀ n ∈ way, ProperName n := fun n hn => hnames n (hway.subset hn)
    rw [← Path.confine_ofNames hroot hway']
    exact hpass way hne hway
  rw [List.map_append, descend_append, houter] at htrail
  change catalog.descend outer hops (names.map .name) = .ok (trail, links) at htrail
  rcases descend_passable hfailures hall houter hway with hdown | ⟨e, hfail, _⟩
  · obtain ⟨rfl, rfl⟩ := Prod.mk.inj (Except.ok.inj (htrail.symm.trans hdown))
    rw [Kinship.isWithin_iff_prefix rfl rfl,
      Path.names_place_absolute (properNames_reverse houterProper),
      Path.names_place_absolute (properNames_reverse htrailProper)]
    simp
  · rw [hfail] at htrail
    cases htrail

/-- Following a resolved path through the whole tree, links and all, ends inside
the directory that the root leads to. A short cut has to be free of links itself:
its target was compared with the root by spelling alone. -/
theorem directory_resolve_isWithin {catalog : Catalog} (hfailures : catalog.failures = ∅)
    {root top : Path} {hops : Nat} (hroot : root.isAbsolute = true)
    (htop : catalog.directory root.normalize = .ok (top, hops)) (path : Path) {r : Resolution}
    (hr : (Resolver.resolve catalog.lookup root path).run.outcome = .ok r)
    (hplain : r.shortCircuited = false ∨ ∀ rel way, r.relative? = some rel → way ≠ [] →
      way <+: rel.components → Resolver.Passable (catalog.inspect (root.confine (.ofComponents way))))
    {d : Path} {links : Nat} (hd : catalog.directory r.path = .ok (d, links)) :
    Kinship.isWithin d top = true := by
  rcases hplain with hwhole | hpass
  · obtain ⟨trail, htrail, hsettled, _, hpath⟩ :=
      Resolver.resolve_settled catalog.lookup root path hr hwhole
    refine directory_isWithin_of_passable hfailures hroot htop
      (properNames_reverse htrail)
      (hpath.trans (Resolver.trailPath_eq_absolute hroot htrail)) ?_ hd
    intro way hne hway
    have houter : way.reverse <:+ trail := by simpa using List.reverse_suffix.mpr hway
    have hpass := hsettled way.reverse houter (by simpa using hne)
    rwa [Resolver.trailPath, List.reverse_reverse] at hpass
  · have hconfined :=
      (Resolver.resolve_leadsTo_of catalog.lookup root path).confined hroot (.start path) hr
    obtain ⟨names, hrel, hcomponents, hpath⟩ := hconfined.relative
    have hnames : ∀ n ∈ names, ProperName n := fun n hn =>
      Path.properName_of_mem_components (hcomponents ▸ List.mem_map_of_mem hn)
    refine directory_isWithin_of_passable hfailures hroot htop hnames
      (hpath.symm.trans (Path.confine_ofNames hroot hnames)) ?_ hd
    intro way hne hway
    rw [← Path.ofComponents_names]
    exact hpass _ _ hrel (by simpa using hne) (hcomponents ▸ hway.map Component.name)

/-- A tree whose root directory is itself reached through a link. -/
def annex : Catalog :=
  ((Catalog.empty.insert (.ofString "/jail") (.link (.ofString "srv/./jail"))).insert
    (.ofString "/srv/jail/up") (.link (.ofString "../../etc"))).insert
      (.ofString "/srv/jail/a/b") .directory

/-- The result is followed into the directory behind the link that the root is. -/
theorem directory_resolve_annex_isWithin :
    ∃ r, (Resolver.resolve annex.lookup (.ofString "/jail") (.ofString "up/../a/b")).run.outcome =
        .ok r ∧ r.shortCircuited = false ∧
      annex.directory r.path = .ok (.ofString "/srv/jail/a/b", 1) ∧
      Kinship.isWithin (.ofString "/srv/jail/a/b") (.ofString "/srv/jail") = true := by
  have hr : (Resolver.resolve annex.lookup (.ofString "/jail") (.ofString "up/../a/b")).run.outcome =
      .ok ⟨.ofString "/jail", .ofString "/jail/a/b", 1, false⟩ := by cbv
  have htop : annex.directory (Path.ofString "/jail").normalize = .ok (.ofString "/srv/jail", 1) := by
    cbv
  have hd : annex.directory (.ofString "/jail/a/b") = .ok (.ofString "/srv/jail/a/b", 1) := by cbv
  exact ⟨_, hr, rfl, hd, directory_resolve_isWithin rfl (by decide) htop _ hr (.inl rfl) hd⟩

/-- A tree with a link out of the root, and a link whose target spells the first
one as a path below the root. -/
def trapdoor : Catalog :=
  ((Catalog.empty.insert (.ofString "/outside") .directory).insert (.ofString "/jail/door")
    (.link (.ofString "/outside"))).insert (.ofString "/jail/way") (.link (.ofString "/jail/door"))

/-- Without the condition on short cuts a resolved path can lead out of the root:
the target `/jail/door` is taken as it stands, and it is a link. -/
theorem not_forall_directory_resolve_isWithin :
    ¬ ∀ (catalog : Catalog) (root path top d : Path) (hops links : Nat) (r : Resolution),
      catalog.failures = ∅ → root.isAbsolute = true →
      catalog.directory root.normalize = .ok (top, hops) →
      (Resolver.resolve catalog.lookup root path).run.outcome = .ok r →
      catalog.directory r.path = .ok (d, links) → Kinship.isWithin d top = true := by
  intro hall
  have htop : trapdoor.directory (Path.ofString "/jail").normalize = .ok (.ofString "/jail", 0) := by
    cbv
  have hr : (Resolver.resolve trapdoor.lookup (.ofString "/jail") (.ofString "way")).run.outcome =
      .ok ⟨.ofString "/jail", .ofString "/jail/door", 1, true⟩ := by cbv
  have hd : trapdoor.directory (.ofString "/jail/door") = .ok (.ofString "/outside", 1) := by cbv
  have hout : Kinship.isWithin (.ofString "/outside") (.ofString "/jail") = false := by cbv
  have hin := hall trapdoor _ _ _ _ _ _ _ rfl (by decide) htop hr hd
  exact absurd (hout.symm.trans hin) Bool.false_ne_true

end TrustedRoot.Catalog
