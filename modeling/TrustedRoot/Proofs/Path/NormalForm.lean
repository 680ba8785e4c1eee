import TrustedRoot.Path.Kinship
import TrustedRoot.Proofs.Path.Spelling

namespace TrustedRoot

namespace Place

@[simp] theorem step_absolute (place : Place) (c : Component) :
    (place.step c).absolute = place.absolute := by
  cases c with
  | root | here | name n => rfl
  | parent =>
    obtain ⟨absolute, ups, trail⟩ := place
    cases trail with
    | nil => cases absolute <;> rfl
    | cons n outer => rfl

@[simp] theorem foldl_step_absolute (place : Place) (steps : List Component) :
    (steps.foldl step place).absolute = place.absolute := by
  induction steps generalizing place with
  | nil => rfl
  | cons c rest ih => rw [List.foldl_cons, ih, step_absolute]

/-- A walk keeps to the names that it met: each was on the trail before or is one of the steps. -/
theorem properName_of_mem_trail {place : Place} {steps : List Component}
    (hplace : ∀ n ∈ place.trail, ProperName n) (hsteps : ∀ n, .name n ∈ steps → ProperName n) :
    ∀ n ∈ (steps.foldl step place).trail, ProperName n := by
  induction steps generalizing place with
  | nil => exact hplace
  | cons c rest ih =>
    rw [List.foldl_cons]
    refine ih ?_ fun n hn => hsteps n (List.mem_cons_of_mem _ hn)
    cases c with
    | root | here => exact hplace
    | name n =>
      intro k hk
      rcases List.mem_cons.mp hk with rfl | hk
      · exact hsteps k List.mem_cons_self
      · exact hplace k hk
    | parent =>
      obtain ⟨absolute, ups, trail⟩ := place
      cases trail with
      | nil => cases absolute <;> simp [step]
      | cons n outer => exact fun k hk => hplace k (List.mem_cons_of_mem _ hk)

/-- Names lead straight down. -/
theorem foldl_step_names (place : Place) (names : List Name) :
    (names.map Component.name).foldl step place =
      { place with trail := names.reverse ++ place.trail } := by
  induction names generalizing place with
  | nil => rfl
  | cons n more ih => simp [ih, step]

end Place

namespace Path

/-- A place is reached by the steps of a path alone. -/
theorem place_eq_foldl_steps (p : Path) :
    p.place = p.steps.foldl Place.step (Place.start p.isAbsolute) := by
  rw [place, components_eq_steps, List.foldl_append]
  split
  · rfl
  · split <;> rfl

@[simp] theorem place_absolute_eq (p : Path) : p.place.absolute = p.isAbsolute := by
  simp [place_eq_foldl_steps, Place.start]

/-- Every name of a place is proper. -/
theorem properName_of_mem_place {p : Path} {n : Name} (hn : n ∈ p.place.names) :
    ProperName n := by
  rw [place_eq_foldl_steps, Place.names, List.mem_reverse] at hn
  exact Place.properName_of_mem_trail (by simp [Place.start])
    (fun _ => properName_of_mem_steps) n hn

/-- An absolute path is cleaned into the names of its place. -/
theorem normalize_of_isAbsolute {p : Path} (hp : p.isAbsolute = true) :
    p.normalize = absolute p.place.names := by
  simp [normalize, Place.path, hp]

/-- Proper names are the names of the place that they spell. -/
theorem names_place_absolute {names : List Name} (hnames : ∀ n ∈ names, ProperName n) :
    (absolute names).place.names = names := by
  simp [place_eq_foldl_steps, steps_absolute hnames, Place.foldl_step_names, Place.start,
    Place.names]

/-- A path through proper names from the top is its own normal form. -/
theorem normalize_absolute {names : List Name} (hnames : ∀ n ∈ names, ProperName n) :
    (absolute names).normalize = absolute names := by
  rw [normalize_of_isAbsolute (isAbsolute_absolute names), names_place_absolute hnames]

private theorem names_place_join {p : Path} (hp : p.isAbsolute = true) {names : List Name}
    (hnames : ∀ n ∈ names, ProperName n) :
    (p.join (ofNames names)).place.names = p.place.names ++ names := by
  rw [place_eq_foldl_steps, steps_join p (isAbsolute_ofNames hnames), isAbsolute_join hp,
    steps_ofNames hnames, List.foldl_append, Place.foldl_step_names, place_eq_foldl_steps p, hp]
  simp [Place.names]

@[simp] theorem isAbsolute_rootDirectory : rootDirectory.isAbsolute = true := rfl

/-- A path is confined to the names that its steps lead to from the top, whether
or not it is absolute itself. -/
theorem confinedNames_eq_foldl_steps (p : Path) :
    p.confinedNames = (p.steps.foldl Place.step (Place.start true)).names := by
  have hsteps : (rootDirectory.join p).steps = p.steps := by
    by_cases hp : p.isAbsolute = true
    · rw [join, if_pos hp]
    · rw [steps_join _ (by simpa using hp)]
      rfl
  rw [confinedNames, place_eq_foldl_steps, hsteps, isAbsolute_join isAbsolute_rootDirectory]

/-- Confinement keeps proper names as they are. -/
theorem confinedNames_ofNames {names : List Name} (hnames : ∀ n ∈ names, ProperName n) :
    (ofNames names).confinedNames = names := by
  rw [confinedNames, names_place_join isAbsolute_rootDirectory hnames]
  rfl

/-- Confinement leaves proper names only. -/
theorem properName_of_mem_confinedNames {p : Path} {n : Name} (hn : n ∈ p.confinedNames) :
    ProperName n :=
  properName_of_mem_place hn

/-- What a path is confined to lies below an absolute root by its very spelling: the names of the
root come first, then names that no `..` of the path can shorten. -/
theorem confine_of_isAbsolute {root : Path} (hroot : root.isAbsolute = true) (p : Path) :
    root.confine p = absolute (root.place.names ++ p.confinedNames) := by
  have hp : ∀ n ∈ p.confinedNames, ProperName n := fun _ => properName_of_mem_confinedNames
  rw [confine, normalize_of_isAbsolute (isAbsolute_join hroot _), names_place_join hroot hp]

/-- Names confined to an absolute root stand behind those of the root. -/
theorem confine_ofNames {root : Path} (hroot : root.isAbsolute = true) {names : List Name}
    (hnames : ∀ n ∈ names, ProperName n) :
    root.confine (ofNames names) = absolute (root.place.names ++ names) := by
  rw [confine_of_isAbsolute hroot, confinedNames_ofNames hnames]

/-- Paths of proper names begin with each other as their names do. -/
theorem startsWith_absolute {names base : List Name} (hnames : ∀ n ∈ names, ProperName n)
    (hbase : ∀ n ∈ base, ProperName n) :
    (absolute names).startsWith (absolute base) = true ↔ base <+: names := by
  have hinj : Function.Injective Component.name := fun _ _ h => Component.name.inj h
  rw [startsWith, components_absolute hnames, components_absolute hbase,
    List.isPrefixOf_iff_prefix, List.cons_prefix_cons, List.prefix_map_iff_of_injective hinj]
  simp

theorem ofComponents_names (names : List Name) :
    ofComponents (names.map .name) = ofNames names := by
  have hsegment : Component.segment ∘ Component.name = id := rfl
  rw [ofComponents, List.map_map, hsegment, List.map_id, ofNames]

/-- Without the names that a path begins with, the others are left. -/
theorem stripPrefix?_absolute {base names : List Name} (hbase : ∀ n ∈ base, ProperName n)
    (hnames : ∀ n ∈ names, ProperName n) :
    (absolute (base ++ names)).stripPrefix? (absolute base) = some (ofNames names) := by
  have hboth := List.forall_mem_append.mpr ⟨hbase, hnames⟩
  rw [stripPrefix?, if_pos ((startsWith_absolute hboth hbase).mpr (List.prefix_append base names)),
    components_absolute hboth, components_absolute hbase]
  simp [ofComponents_names]

/-- What is below the root is got back from a confined path. -/
theorem stripPrefix?_confine {root : Path} (hroot : root.isAbsolute = true) {names : List Name}
    (hnames : ∀ n ∈ names, ProperName n) :
    (root.confine (ofNames names)).stripPrefix? root.normalize = some (ofNames names) := by
  rw [confine_ofNames hroot hnames, normalize_of_isAbsolute hroot]
  exact stripPrefix?_absolute (fun _ => properName_of_mem_place) hnames

/-- An absolute target that is taken as it stands leads into the root by names alone. -/
theorem inside?_eq_some {root target inside : Path} (hroot : root.isAbsolute = true)
    (htarget : target.isAbsolute = true) (hinside : target.inside? root = some inside) :
    ∃ names, (∀ n ∈ names, ProperName n) ∧ inside = absolute (root.place.names ++ names) := by
  rw [inside?, normalize_of_isAbsolute htarget, normalize_of_isAbsolute hroot] at hinside
  split at hinside
  · rename_i hstarts
    rw [startsWith_absolute (fun _ => properName_of_mem_place)
      fun _ => properName_of_mem_place] at hstarts
    obtain ⟨names, hnames⟩ := hstarts
    refine ⟨names, fun n hn => properName_of_mem_place (p := target) ?_, ?_⟩
    · rw [← hnames]
      exact List.mem_append_right _ hn
    · simpa [hnames] using hinside.symm
  · cases hinside

private theorem startsWith_normalize {p base : Path} (hp : p.isAbsolute = true)
    (hbase : base.isAbsolute = true) :
    p.normalize.startsWith base.normalize = true ↔ base.place.names <+: p.place.names := by
  rw [normalize_of_isAbsolute hp, normalize_of_isAbsolute hbase]
  exact startsWith_absolute (fun _ => properName_of_mem_place) fun _ => properName_of_mem_place

end Path

namespace Kinship

/-- Between absolute paths, lying strictly below another is a matter of the names alone. -/
theorem between_eq_descendant {p directory : Path} (hp : p.isAbsolute = true)
    (hdirectory : directory.isAbsolute = true) (hbelow : directory.place.names <+: p.place.names)
    (hne : directory.place.names ≠ p.place.names) : between p directory = .descendant := by
  have hstarts := (Path.startsWith_normalize hp hdirectory).mpr hbelow
  have habove : ¬ directory.normalize.startsWith p.normalize = true := by
    intro habove
    have hback := (Path.startsWith_normalize hdirectory hp).mp habove
    exact hne (hbelow.eq_of_length_le hback.length_le)
  have hsame : p.normalize ≠ directory.normalize := by
    intro hsame
    rw [hsame] at habove hstarts
    exact habove hstarts
  simp only [between, if_neg hsame, if_neg habove, if_pos hstarts]

/-- Between absolute paths, lying inside another is a matter of the names alone. -/
theorem isWithin_iff_prefix {p directory : Path} (hp : p.isAbsolute = true)
    (hdirectory : directory.isAbsolute = true) :
    isWithin p directory = true ↔ directory.place.names <+: p.place.names := by
  by_cases hnames : directory.place.names = p.place.names
  · have hsame : p.normalize = directory.normalize := by
      rw [Path.normalize_of_isAbsolute hp, Path.normalize_of_isAbsolute hdirectory, hnames]
    simp [isWithin, between, hsame, hnames]
  · by_cases hbelow : directory.place.names <+: p.place.names
    · simp [isWithin, between_eq_descendant hp hdirectory hbelow hnames, hbelow]
    · have hstarts := (Path.startsWith_normalize hp hdirectory).not.mpr hbelow
      have hsame : p.normalize ≠ directory.normalize := by
        intro hsame
        have hself := (Path.startsWith_normalize hp hp).mpr (List.prefix_refl _)
        rw [hsame] at hstarts hself
        exact hstarts hself
      unfold isWithin between
      simp only [if_neg hsame, if_neg hstarts, hbelow, iff_false]
      split_ifs <;> simp

end Kinship
end TrustedRoot
