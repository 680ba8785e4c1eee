import TrustedRoot.Proofs.Path.Places

namespace TrustedRoot.Path

variable {root p q : Path}

/-- A confinement is known by the place of its root and the confined names. -/
theorem confine_eq_confine_iff {root₁ root₂ : Path} (hroots : root₁.place = root₂.place) :
    root₁.confine p = root₂.confine q ↔ p.confinedNames = q.confinedNames := by
  rw [← normalize_confine root₁, ← normalize_confine root₂, normalize_eq_iff, place_confine,
    place_confine, hroots]
  constructor
  · intro hplaces
    have htrails := congrArg Place.trail hplaces
    exact List.reverse_injective (List.append_cancel_right htrails)
  · intro hnames
    rw [hnames]

/-- How a root is spelled does not matter to what is confined to it. -/
theorem confine_congr {root₁ root₂ : Path} (hroots : root₁.normalize = root₂.normalize) (p : Path) :
    root₁.confine p = root₂.confine p :=
  (confine_eq_confine_iff (normalize_eq_iff.mp hroots)).mpr rfl

/-- Cleaned below `/`, a path comes to the names that confinement leaves of it. -/
theorem normalize_join_rootDirectory (p : Path) :
    (rootDirectory.join p).normalize = absolute p.confinedNames :=
  normalize_of_isAbsolute (isAbsolute_join isAbsolute_rootDirectory p)

private theorem confinedNames_eq_iff : p.confinedNames = q.confinedNames ↔
    (rootDirectory.join p).normalize = (rootDirectory.join q).normalize := by
  constructor
  · intro hnames
    rw [normalize_join_rootDirectory, normalize_join_rootDirectory, hnames]
  · intro hsame
    exact congrArg Place.names (normalize_eq_iff.mp hsame)

private theorem confinedNames_absolute {names : List Name} (hnames : ∀ n ∈ names, ProperName n) :
    (absolute names).confinedNames = names := by
  rw [confinedNames, join, if_pos (isAbsolute_absolute names), names_place_absolute hnames]

private theorem confinedNames_normalize_join (p : Path) :
    (rootDirectory.join p).normalize.confinedNames = p.confinedNames := by
  rw [normalize_join_rootDirectory, confinedNames_absolute fun _ => properName_of_mem_confinedNames]

private theorem confine_ofNames_confinedNames (root p : Path) :
    root.confine (ofNames p.confinedNames) = root.confine p :=
  (confine_eq_confine_iff rfl).mpr (confinedNames_ofNames fun _ => properName_of_mem_confinedNames)

/-- A relative path goes on from what it is joined to. -/
theorem components_join {p q : Path} (hp : p.isAbsolute = true) (hq : q.isAbsolute = false) :
    (p.join q).components = p.components ++ q.steps := by
  rw [components_of_isAbsolute (isAbsolute_join hp q), components_of_isAbsolute hp, steps_join p hq,
    List.cons_append]

/-- What is left of a confinement below its root: the names that the path leads
to from the top, which lead back to the confinement. -/
theorem exists_rest_of_confine (hroot : root.isAbsolute = true) (p : Path) :
    ∃ rest, (root.confine p).stripPrefix? root.normalize = some rest ∧
      .root :: rest.components = (rootDirectory.join p).normalize.components ∧
      root.confine rest = root.confine p ∧
      (root.normalize.join rest).components = (root.confine p).components := by
  have hnames : ∀ n ∈ p.confinedNames, ProperName n := fun _ => properName_of_mem_confinedNames
  have hback := confine_ofNames_confinedNames root p
  refine ⟨ofNames p.confinedNames, ?_, ?_, hback, ?_⟩
  · rw [← hback]
    exact stripPrefix?_confine hroot hnames
  · rw [normalize_join_rootDirectory, components_ofNames hnames, components_absolute hnames]
  · have hbase : ∀ n ∈ root.place.names, ProperName n := fun _ => properName_of_mem_place
    have hboth := List.forall_mem_append.mpr ⟨hbase, hnames⟩
    rw [normalize_of_isAbsolute hroot, components_join rfl (isAbsolute_ofNames hnames),
      steps_ofNames hnames, confine_of_isAbsolute hroot, components_absolute hbase,
      components_absolute hboth, List.map_append, List.cons_append]

/-- Confining a path to a root is a join that neither leaves the root nor loses
anything but spelling. It is in normal form, it takes root and path by their
normal forms, and two paths are told apart below every root exactly if they are
told apart below `/`. Below an absolute root, the names that the path leads to
can be read off again. -/
theorem confine_faithful (root p q : Path) :
    (root.confine p).normalize = root.confine p ∧
      root.confine p = root.normalize.confine (rootDirectory.join p).normalize ∧
      (root.confine p = root.confine q ↔
        (rootDirectory.join p).normalize = (rootDirectory.join q).normalize) ∧
      (root.isAbsolute = true → ∃ rest,
        (root.confine p).stripPrefix? root.normalize = some rest ∧
          .root :: rest.components = (rootDirectory.join p).normalize.components ∧
          root.confine rest = root.confine p ∧
          (root.normalize.join rest).components = (root.confine p).components) := by
  refine ⟨normalize_confine root p, ?_, ?_, fun hroot => exists_rest_of_confine hroot p⟩
  · rw [confine_eq_confine_iff (place_normalize root).symm, confinedNames_normalize_join]
  · rw [confine_eq_confine_iff rfl, confinedNames_eq_iff]

/-- The `..` in front cannot leave the root, which is itself not in normal form. -/
theorem confine_faithful_jail :
    (ofString "/srv/../jail/").isAbsolute = true ∧
      (ofString "/srv/../jail/").confine (ofString "../a//b/../c") = ofString "/jail/a/c" ∧
      ∃ rest, (ofString "/jail/a/c").stripPrefix? (ofString "/jail") = some rest ∧
        (ofString "/srv/../jail/").confine rest = ofString "/jail/a/c" := by
  have hroot : (ofString "/srv/../jail/").isAbsolute = true := by decide
  have hnormal : (ofString "/srv/../jail/").normalize = ofString "/jail" := by cbv
  have hvalue : (ofString "/srv/../jail/").confine (ofString "../a//b/../c") =
      ofString "/jail/a/c" := by cbv
  obtain ⟨_, _, _, hrest⟩ := confine_faithful (ofString "/srv/../jail/")
    (ofString "../a//b/../c") (ofString "a/c")
  obtain ⟨rest, hstrip, _, hback, _⟩ := hrest hroot
  rw [hvalue, hnormal] at hstrip
  rw [hvalue] at hback
  exact ⟨hroot, hvalue, rest, hstrip, hback⟩

end TrustedRoot.Path
