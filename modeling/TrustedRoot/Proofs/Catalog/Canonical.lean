import TrustedRoot.Proofs.Catalog.Agreement

namespace TrustedRoot.Catalog

variable {catalog : Catalog}

/-- Going from one directory along components leads to another, with the paths of the
links that are followed on the way, in order. The target of a link is walked to its
end, from `/`, before the components behind the link are; nothing is counted. -/
inductive Walked (catalog : Catalog) :
    List Name → List Component → List Path → List Name → Prop
  | arrive {trail : List Name} : Walked catalog trail [] [] trail
  | stay {c : Component} {trail top : List Name} {rest : List Component} {links : List Path}
      (hstill : c = .root ∨ c = .here) (hrest : Walked catalog trail rest links top) :
      Walked catalog trail (c :: rest) links top
  | leave {trail top : List Name} {rest : List Component} {links : List Path}
      (hrest : Walked catalog trail.tail rest links top) :
      Walked catalog trail (.parent :: rest) links top
  | enter {n : Name} {trail top : List Name} {rest : List Component} {links : List Path}
      (hnode : catalog.nodes[Path.absolute (n :: trail).reverse]? = some .directory)
      (hrest : Walked catalog (n :: trail) rest links top) :
      Walked catalog trail (.name n :: rest) links top
  | follow {n : Name} {target : Path} {trail middle top : List Name} {rest : List Component}
      {links more : List Path}
      (hnode : catalog.nodes[Path.absolute (n :: trail).reverse]? = some (.link target))
      (htarget : Walked catalog [] ((Path.absolute trail.reverse).join target).components links
        middle)
      (hrest : Walked catalog middle rest more top) :
      Walked catalog trail (.name n :: rest)
        (Path.absolute (n :: trail).reverse :: (links ++ more)) top

namespace Walked

variable {trail top : List Name} {pending front back : List Component} {links : List Path}

/-- A walk along two lists of components stops in between. -/
theorem split (hwalked : Walked catalog trail (front ++ back) links top) :
    ∃ middle first second, Walked catalog trail front first middle ∧
      Walked catalog middle back second top ∧ links = first ++ second := by
  induction front generalizing trail links with
  | nil => exact ⟨trail, [], links, .arrive, hwalked, rfl⟩
  | cons c front ih =>
    cases hwalked with
    | stay hstill hrest =>
      obtain ⟨middle, first, second, hfirst, hsecond, rfl⟩ := ih hrest
      exact ⟨middle, first, second, .stay hstill hfirst, hsecond, rfl⟩
    | leave hrest =>
      obtain ⟨middle, first, second, hfirst, hsecond, rfl⟩ := ih hrest
      exact ⟨middle, first, second, .leave hfirst, hsecond, rfl⟩
    | enter hnode hrest =>
      obtain ⟨middle, first, second, hfirst, hsecond, rfl⟩ := ih hrest
      exact ⟨middle, first, second, .enter hnode hfirst, hsecond, rfl⟩
    | follow hnode htarget hrest =>
      obtain ⟨middle, first, second, hfirst, hsecond, rfl⟩ := ih hrest
      exact ⟨middle, _, second, .follow hnode htarget hfirst, hsecond, by simp⟩

/-- Every directory on the way down to where a walk arrives is held as one, links and
`..` notwithstanding: a link leads to where its target was walked, and `..` only
shortens the way. -/
theorem standing (hwalked : Walked catalog trail pending links top)
    (hstanding : Standing catalog trail) : Standing catalog top := by
  induction hwalked with
  | arrive => exact hstanding
  | stay _ _ ih => exact ih hstanding
  | @leave trail _ _ _ _ ih =>
    cases trail with
    | nil => exact ih hstanding
    | cons n above => exact ih hstanding.tail
  | enter hnode _ ih => exact ih (hstanding.cons hnode)
  | follow _ _ _ ihtarget ihrest => exact ihrest (ihtarget (by simp [Standing]))

/-- A walk is found if it takes no more links than are left. -/
theorem descend (hwalked : Walked catalog trail pending links top) {hops : Nat}
    (hhops : hops + links.length ≤ maxHops) :
    catalog.descend trail hops pending = .ok (top, hops + links.length) := by
  induction hwalked generalizing hops with
  | arrive => exact Catalog.descend.eq_1 ..
  | stay hstill _ ih =>
    rcases hstill with rfl | rfl <;> rw [Catalog.descend, ih hhops]
  | leave _ ih => rw [Catalog.descend, ih hhops]
  | enter hnode _ ih =>
    rw [Catalog.descend, hnode]
    exact ih hhops
  | follow hnode _ _ ihtarget ihrest =>
    simp only [List.length_cons, List.length_append] at hhops ⊢
    rw [Catalog.descend, hnode]
    simp only [if_neg (show ¬ maxHops ≤ hops by omega)]
    rw [descend_append, ihtarget (by omega), Except.bind, ihrest (by omega)]
    exact congrArg (fun links => Except.ok (_, links)) (by omega)

end Walked

/-- Every success of the walk through the catalogue is a walk with as many links as
were counted, and the count kept to its limit. -/
theorem exists_walked_of_descend {trail : List Name} {hops : Nat} {pending : List Component}
    {spot : List Name × Nat} (hspot : catalog.descend trail hops pending = .ok spot)
    (hhops : hops ≤ maxHops) :
    ∃ links, Walked catalog trail pending links spot.1 ∧ spot.2 = hops + links.length ∧
      spot.2 ≤ maxHops := by
  induction trail, hops, pending using descend.induct catalog with
  | case1 trail hops =>
    rw [descend] at hspot
    cases hspot
    exact ⟨[], .arrive, rfl, hhops⟩
  | case2 trail hops rest ih | case3 trail hops rest ih =>
    rw [descend] at hspot
    obtain ⟨links, hwalked, hcount⟩ := ih hspot hhops
    exact ⟨links, .stay (by simp) hwalked, hcount⟩
  | case4 trail hops rest ih =>
    rw [descend] at hspot
    obtain ⟨links, hwalked, hcount⟩ := ih hspot hhops
    exact ⟨links, .leave hwalked, hcount⟩
  | case5 trail hops name rest hnode | case6 trail hops name rest hnode =>
    rw [descend, hnode] at hspot
    cases hspot
  | case7 trail hops name rest hnode ih =>
    rw [descend, hnode] at hspot
    obtain ⟨links, hwalked, hcount⟩ := ih hspot hhops
    exact ⟨links, .enter hnode hwalked, hcount⟩
  | case8 trail hops name rest target hnode hfull =>
    rw [descend, hnode] at hspot
    simp only [if_pos hfull] at hspot
    cases hspot
  | case9 trail hops name rest target hnode hroom joined ih =>
    rw [descend, hnode] at hspot
    simp only [if_neg hroom] at hspot
    -- The target and what stands behind the link were walked as one list.
    obtain ⟨links, hwalked, hcount, hlimit⟩ := ih (by simpa [joined] using hspot) (by omega)
    obtain ⟨middle, first, second, htarget, hrest, rfl⟩ := hwalked.split
    have hjoined : joined = (Path.absolute trail.reverse).join target := by simp [joined]
    rw [hjoined] at htarget
    exact ⟨_, .follow hnode htarget hrest, by simp only [List.length_cons]; omega, hlimit⟩

/-- What is found from `/` is where a walk arrives that takes few enough links. -/
theorem descend_eq_ok_iff {pending : List Component} {top : List Name} {hops : Nat} :
    catalog.descend [] 0 pending = .ok (top, hops) ↔
      ∃ links, Walked catalog [] pending links top ∧ links.length = hops ∧ hops ≤ maxHops := by
  constructor
  · intro hspot
    obtain ⟨links, hwalked, hcount, hlimit⟩ := exists_walked_of_descend hspot (Nat.zero_le _)
    exact ⟨links, hwalked, by omega, hlimit⟩
  · rintro ⟨links, hwalked, rfl, hlimit⟩
    have hspot := hwalked.descend (Nat.zero_add links.length ▸ hlimit)
    rwa [Nat.zero_add] at hspot

/-- A walk from the top arrives where every place on the way is a directory. -/
theorem standing_of_descend {trail : List Name} {hops : Nat} {pending : List Component}
    (hspot : catalog.descend [] 0 pending = .ok (trail, hops)) : Standing catalog trail := by
  obtain ⟨links, hwalked, _⟩ := descend_eq_ok_iff.mp hspot
  exact hwalked.standing (by simp [Standing])

/-- A directory by the one path that leads there without a link. -/
structure Canonical (catalog : Catalog) (d : Path) : Prop where
  spelling : d = .absolute d.place.names
  held : ∀ way, way ≠ [] → way <+: d.place.names →
    catalog.nodes[Path.absolute way]? = some .directory
  directory : catalog.directory d = .ok (d, 0)
  inspect : catalog.inspect d = .ok .directory

private theorem Standing.canonical {trail : List Name} (hstanding : Standing catalog trail)
    (hfailures : catalog.failures = ∅) (htrail : ∀ n ∈ trail, ProperName n) :
    Canonical catalog (.absolute trail.reverse) := by
  have hnames := properNames_reverse htrail
  have hplace := Path.names_place_absolute hnames
  refine ⟨by rw [hplace], fun way hne hway => ?_, ?_, ?_⟩
  · rw [hplace] at hway
    have houter : way.reverse <:+ trail := by simpa using List.reverse_suffix.mpr hway
    simpa using hstanding way.reverse houter (by simpa using hne)
  · rw [directory_absolute catalog hnames, hstanding.descend]
    rfl
  · cases trail with
    | nil =>
      -- `/` has no name, and nothing is looked up for it.
      rw [Catalog.inspect, Catalog.find?, hfailures]
      rfl
    | cons n above =>
      have hall : ∀ k ∈ above.reverse ++ [n], ProperName k := by simpa using hnames
      have hnode := hstanding (n :: above) (List.suffix_refl _) (List.cons_ne_nil _ _)
      rw [List.reverse_cons, inspect_absolute hfailures hall hstanding.tail.descend, hnode]
      rfl

/-- A name is looked up alike below a clean path and below the directory to which that
path leads. -/
theorem find?_join_directory (hfailures : catalog.failures = ∅) {p d : Path} {hops : Nat}
    (hd : catalog.directory p = .ok (d, hops)) (hp : p.isAbsolute = true)
    (hclean : p.normalize = p) {n : Name} (hn : ProperName n) :
    catalog.find? (p.join ⟨n⟩) = catalog.find? (d.join ⟨n⟩) := by
  have hway : ∀ k ∈ p.place.names, ProperName k := fun _ => Path.properName_of_mem_place
  have hone : ∀ k ∈ [n], ProperName k := by simpa using hn
  have hspelled : p = .absolute p.place.names := by
    rw [← Path.normalize_of_isAbsolute hp, hclean]
  obtain ⟨trail, hspot, htrail, rfl⟩ := exists_trail_of_directory hway (hspelled ▸ hd)
  have hnames := properNames_reverse htrail
  have hbelow : p.join ⟨n⟩ = .absolute (p.place.names ++ [n]) := by
    rw [← Path.join_absolute hway hone (List.cons_ne_nil _ _), ← hspelled]
    rfl
  have hdirect : (Path.absolute trail.reverse).join ⟨n⟩ = .absolute (trail.reverse ++ [n]) :=
    Path.join_absolute hnames hone (List.cons_ne_nil _ _)
  rw [hbelow, hdirect, find?_absolute hfailures (List.forall_mem_append.mpr ⟨hway, hone⟩) hspot,
    find?_absolute hfailures (List.forall_mem_append.mpr ⟨hnames, hone⟩)
      (standing_of_descend hspot).descend]

/-- What the walk to a directory finds is canonical: however many links and `..` lie on
the way, at most `maxHops` links are followed, in all the targets together, and no link
is left in what comes out. A clean absolute path and the directory it leads to have the
same entries. -/
theorem directory_canonical (hfailures : catalog.failures = ∅) {p d : Path} {hops : Nat}
    (hd : catalog.directory p = .ok (d, hops)) :
    (∃ links, Walked catalog [] p.components links d.place.names.reverse ∧
      links.length = hops ∧ hops ≤ maxHops) ∧
    Canonical catalog d ∧
    (p.isAbsolute = true → p.normalize = p → ∀ n, ProperName n →
      catalog.inspect (p.join ⟨n⟩) = catalog.inspect (d.join ⟨n⟩) ∧
      catalog.target (p.join ⟨n⟩) = catalog.target (d.join ⟨n⟩)) := by
  refine ⟨?_, ?_, fun hp hclean n hn => ?_⟩
  · obtain ⟨trail, hspot, htrail, rfl⟩ := exists_descend_of_directory hd
    rw [Path.names_place_absolute (properNames_reverse htrail), List.reverse_reverse]
    exact descend_eq_ok_iff.mp hspot
  · obtain ⟨trail, hspot, htrail, rfl⟩ := exists_descend_of_directory hd
    exact (standing_of_descend hspot).canonical hfailures htrail
  · have hfind := find?_join_directory hfailures hd hp hclean hn
    rw [inspect, inspect, target, target, hfind]
    exact ⟨rfl, rfl⟩

/-- Two links lead to a canonical directory, and both ways to the link below it read the
same target. -/
theorem directory_stairwell_canonical :
    stairwell.directory (.ofString "/a/b/up") = .ok (.ofString "/c", 2) ∧
      Canonical stairwell (.ofString "/c") ∧
      (∃ links, Walked stairwell [] (Path.ofString "/a/b/up").components links
        (Path.ofString "/c").place.names.reverse ∧ links.length = 2) ∧
      stairwell.target ((Path.ofString "/a/b/up").join (.ofString "deep")) =
        stairwell.target ((Path.ofString "/c").join (.ofString "deep")) := by
  have hd : stairwell.directory (.ofString "/a/b/up") = .ok (.ofString "/c", 2) := by cbv
  have hclean : (Path.ofString "/a/b/up").normalize = .ofString "/a/b/up" := by cbv
  have hdeep : ProperName (Path.ofString "deep").bytes :=
    ⟨by decide, by decide, by decide, by decide⟩
  obtain ⟨⟨links, hwalked, hcount, _⟩, hcanonical, hbelow⟩ := directory_canonical rfl hd
  exact ⟨hd, hcanonical, ⟨links, hwalked, hcount⟩, (hbelow (by decide) hclean _ hdeep).2⟩

end TrustedRoot.Catalog
