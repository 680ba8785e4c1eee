import TrustedRoot.Proofs.Path.NormalForm

namespace TrustedRoot

namespace Place

/-- A place as a path can name it: its names are proper, and nothing lies above `/`. -/
structure Proper (place : Place) : Prop where
  names : ∀ n ∈ place.trail, ProperName n
  ups : place.absolute = true → place.ups = 0

/-- The place that `.` names. -/
abbrev here : Place := start false

/-- The components that lead to a place. -/
def moves (place : Place) : List Component :=
  (if place.absolute then [.root] else List.replicate place.ups .parent) ++ place.names.map .name

/-- The segments that a place is spelled with. -/
def pieces (place : Place) : List Bytes :=
  if place.absolute then place.names
  else List.replicate place.ups [dot, dot] ++ place.names

/-- A proper place is spelled with segments that count. -/
theorem Proper.pieces {place : Place} (hplace : place.Proper) :
    ∀ s ∈ place.pieces, Meaningful s := by
  have hnames : ∀ s ∈ place.names, Meaningful s := fun s hs =>
    (hplace.names s (List.mem_reverse.mp hs)).meaningful
  intro s hs
  unfold Place.pieces at hs
  split at hs
  · exact hnames s hs
  · rcases List.mem_append.mp hs with hs | hs
    · rw [List.eq_of_mem_replicate hs]
      exact meaningful_dots
    · exact hnames s hs

/-- Only `.` is not spelled by its segments alone: it has none. -/
theorem path_eq_spelled {place : Place} (hne : place ≠ .here) :
    place.path = Path.spelled place.absolute place.pieces := by
  obtain ⟨absolute, ups, trail⟩ := place
  cases absolute with
  | true => rfl
  | false =>
    have hfull : List.replicate ups [dot, dot] ++ trail.reverse ≠ [] := by
      intro hnil
      simp only [List.append_eq_nil_iff, List.replicate_eq_nil_iff, List.reverse_eq_nil_iff] at hnil
      exact hne (by rw [hnil.1, hnil.2]; rfl)
    obtain ⟨s, more, hbody⟩ := List.exists_cons_of_ne_nil hfull
    simp [path, pieces, names, Path.spelled, hbody]

private theorem step_ups_of_absolute {place : Place} (habsolute : place.absolute = true)
    (c : Component) : (place.step c).ups = place.ups := by
  cases c with
  | root | here | name n => rfl
  | parent =>
    obtain ⟨absolute, ups, trail⟩ := place
    cases trail with
    | nil => simp_all [step]
    | cons n outer => rfl

private theorem foldl_step_ups_of_absolute {place : Place} (habsolute : place.absolute = true)
    (steps : List Component) : (steps.foldl step place).ups = place.ups := by
  induction steps generalizing place with
  | nil => rfl
  | cons c rest ih =>
    rw [List.foldl_cons, ih (by rw [step_absolute, habsolute]), step_ups_of_absolute habsolute]

/-- From the working directory, each `..` in front leads one level up. -/
theorem foldl_step_parents (ups k : Nat) :
    (List.replicate k Component.parent).foldl step ⟨false, ups, []⟩ = ⟨false, ups + k, []⟩ := by
  induction k generalizing ups with
  | zero => rfl
  | succ k ih =>
    rw [List.replicate_succ, List.foldl_cons]
    change (List.replicate k Component.parent).foldl step ⟨false, ups + 1, []⟩ = _
    rw [ih, Nat.add_right_comm, Nat.add_assoc]

end Place

namespace Path

/-- Every path leads to a proper place. -/
theorem proper_place (p : Path) : p.place.Proper where
  names n hn := properName_of_mem_place (p := p) (by simpa [Place.names] using hn)
  ups habsolute := by
    rw [place_absolute_eq] at habsolute
    rw [place_eq_foldl_steps, Place.foldl_step_ups_of_absolute habsolute]
    rfl

private theorem components_relative {place : Place} (hplace : place.Proper)
    (hrelative : place.absolute = false) (hne : place ≠ .here) :
    place.path.isAbsolute = false ∧ place.path.components = place.moves := by
  have hmeaningful := hplace.pieces
  have hnames : ∀ n ∈ place.names, ProperName n := properNames_reverse hplace.names
  have hfull : place.pieces ≠ [] := by
    obtain ⟨absolute, ups, trail⟩ := place
    obtain rfl : absolute = false := hrelative
    intro hnil
    simp only [Place.pieces, Place.names, Bool.false_eq_true, if_false, List.append_eq_nil_iff,
      List.replicate_eq_nil_iff, List.reverse_eq_nil_iff] at hnil
    exact hne (by rw [hnil.1, hnil.2]; rfl)
  rw [Place.path_eq_spelled hne, hrelative]
  have habsolute := isAbsolute_spelled false hmeaningful
  have hhere := startsHere_spelled hmeaningful
  have hsteps : (spelled false place.pieces).steps = place.moves := by
    have hparents : Component.ofSegment? [dot, dot] = some .parent := rfl
    have hcut : segments (spelled false place.pieces).bytes = place.pieces :=
      segments_spell_of_no_slash hfull fun s hs => (hmeaningful s hs).no_slash
    rw [steps, hcut, Place.pieces, Place.moves, hrelative, if_neg Bool.false_ne_true,
      if_neg Bool.false_ne_true, List.filterMap_append, List.filterMap_replicate_of_some hparents,
      List.filterMap_congr (g := some ∘ Component.name)
        fun n hn => Component.ofSegment?_properName (hnames n hn), List.filterMap_eq_map]
  exact ⟨habsolute, by simp [components_eq_steps, habsolute, hhere, hsteps]⟩

private theorem path_absolute {place : Place} (habsolute : place.absolute = true) :
    place.path = absolute place.names := by
  rw [Place.path, if_pos habsolute]

/-- The components of the spelling of a place are those that lead to it; only
`.` cannot be spelled without a component of its own. -/
theorem components_path {place : Place} (hplace : place.Proper) :
    place.path.components = if place = .here then [.here] else place.moves := by
  split
  · subst place
    rfl
  · rename_i hne
    cases habsolute : place.absolute with
    | false => exact (components_relative hplace habsolute hne).2
    | true =>
      have hnames : ∀ n ∈ place.names, ProperName n := properNames_reverse hplace.names
      rw [path_absolute habsolute, components_absolute hnames, Place.moves, if_pos habsolute]
      rfl

private theorem isAbsolute_path {place : Place} (hplace : place.Proper) :
    place.path.isAbsolute = place.absolute := by
  cases habsolute : place.absolute with
  | true => rw [path_absolute habsolute, isAbsolute_absolute]
  | false =>
    by_cases hhere : place = .here
    · subst place
      rfl
    · exact (components_relative hplace habsolute hhere).1

/-- The spelling of a place names that place. -/
theorem place_path {place : Place} (hplace : place.Proper) : place.path.place = place := by
  by_cases hhere : place = .here
  · subst place
    rfl
  · rw [Path.place, components_path hplace, if_neg hhere, isAbsolute_path hplace, Place.moves,
      List.foldl_append, Place.foldl_step_names]
    obtain ⟨absolute, ups, trail⟩ := place
    cases absolute with
    | true =>
      obtain rfl : ups = 0 := hplace.ups rfl
      simp [Place.start, Place.step, Place.names]
    | false => simp [Place.start, Place.foldl_step_parents, Place.names]

/-- Cleaning a path does not move it. -/
theorem place_normalize (p : Path) : p.normalize.place = p.place := place_path (proper_place p)

/-- Cleaning a second time changes nothing. -/
@[simp] theorem normalize_normalize (p : Path) : p.normalize.normalize = p.normalize :=
  congrArg Place.path (place_normalize p)

/-- A normal form is `.`, or spelled with segments that all count. -/
theorem normalize_eq_spelled (p : Path) :
    p.normalize = ⟨[dot]⟩ ∨
      ∃ pieces, (∀ s ∈ pieces, Meaningful s) ∧ p.normalize = spelled p.isAbsolute pieces := by
  by_cases hhere : p.place = .here
  · exact .inl (by rw [normalize, hhere]; rfl)
  · refine .inr ⟨p.place.pieces, (proper_place p).pieces, ?_⟩
    rw [normalize, Place.path_eq_spelled hhere, place_absolute_eq]

/-- Two paths have one normal form if they have one place. -/
theorem normalize_eq_iff {p q : Path} : p.normalize = q.normalize ↔ p.place = q.place := by
  constructor
  · intro h
    rw [← place_normalize p, h, place_normalize q]
  · exact congrArg Place.path

/-- A clean path has the components that lead to its place, and `.` if there are none. -/
theorem components_normalize (p : Path) :
    p.normalize.components = if p.place = .here then [.here] else p.place.moves :=
  components_path (proper_place p)

/-- Whether a path is absolute shows in its components, so these say where it leads. -/
theorem isAbsolute_iff_head? (p : Path) :
    p.isAbsolute = true ↔ p.components.head? = some .root := by
  rw [components_eq_steps]
  by_cases habsolute : p.isAbsolute = true
  · simp [habsolute]
  · have hsteps : p.steps.head? ≠ some .root := by
      intro hhead
      obtain ⟨s, _, hs⟩ := List.mem_filterMap.mp (List.mem_of_head? hhead)
      unfold Component.ofSegment? at hs
      split_ifs at hs <;> cases hs
    by_cases hhere : p.startsHere = true
    · simp [habsolute, hhere]
    · simpa [habsolute, hhere] using hsteps

private theorem place_eq_of_components_eq {p q : Path} (h : p.components = q.components) :
    p.place = q.place := by
  have habsolute : p.isAbsolute = q.isAbsolute := by
    rw [Bool.eq_iff_iff, isAbsolute_iff_head?, isAbsolute_iff_head?, h]
  rw [place, place, h, habsolute]

private theorem isAbsolute_join_of_relative (p : Path) {q : Path} (hq : q.isAbsolute = false) :
    (p.join q).isAbsolute = p.isAbsolute := by
  by_cases hp : p.isAbsolute = true
  · rw [isAbsolute_join hp, hp]
  · obtain ⟨bytes⟩ := p
    cases bytes with
    | nil =>
      simp only [join, hq, Bool.false_eq_true, if_false, true_or, if_true, List.nil_append]
      rfl
    | cons b more =>
      unfold join
      rw [if_neg (by simp [hq])]
      split <;> simp [isAbsolute]

/-- Names that are joined to a path lead down from its place. -/
theorem place_join_ofNames (p : Path) {names : List Name} (hnames : ∀ n ∈ names, ProperName n) :
    (p.join (ofNames names)).place = { p.place with trail := names.reverse ++ p.place.trail } := by
  have hrelative := isAbsolute_ofNames hnames
  rw [place_eq_foldl_steps, steps_join p hrelative, isAbsolute_join_of_relative p hrelative,
    steps_ofNames hnames, List.foldl_append, Place.foldl_step_names, ← place_eq_foldl_steps]

/-- What a path is confined to below a root, absolute or not, is the place of the
root with the confined names behind it. -/
theorem place_confine (root p : Path) :
    (root.confine p).place =
      { root.place with trail := p.confinedNames.reverse ++ root.place.trail } := by
  rw [confine, place_normalize, place_join_ofNames root fun _ => properName_of_mem_confinedNames]

private theorem place_confine_ofNames (root : Path) {names : List Name}
    (hnames : ∀ n ∈ names, ProperName n) :
    (root.confine (ofNames names)).place =
      { root.place with trail := names.reverse ++ root.place.trail } := by
  rw [place_confine, confinedNames_ofNames hnames]

/-- A confined path is clean. -/
@[simp] theorem normalize_confine (root p : Path) :
    (root.confine p).normalize = root.confine p :=
  normalize_normalize _

/-- A target is inside a root if it begins with it once both are cleaned. -/
theorem inside?_eq_some_iff {target root inside : Path} :
    target.inside? root = some inside ↔
      target.normalize.startsWith root.normalize = true ∧ target.normalize = inside := by
  rw [inside?, Option.ite_none_right_eq_some, Option.some_inj]

end Path

namespace Kinship

/-- Lying inside is decided by the components of the normal forms alone: a path
cannot be an ancestor of one that it starts with. -/
theorem isWithin_iff_startsWith (p directory : Path) :
    isWithin p directory = true ↔ p.normalize.startsWith directory.normalize = true := by
  by_cases hsame : p.normalize = directory.normalize
  · simp [isWithin, between, hsame, Path.startsWith]
  · by_cases habove : directory.normalize.startsWith p.normalize = true
    · have hnot : ¬ p.normalize.startsWith directory.normalize = true := by
        intro hbelow
        rw [Path.startsWith, List.isPrefixOf_iff_prefix] at habove hbelow
        have hcomponents := habove.eq_of_length_le hbelow.length_le
        have hplace := Path.place_eq_of_components_eq hcomponents
        rw [Path.place_normalize, Path.place_normalize] at hplace
        exact hsame (Path.normalize_eq_iff.mpr hplace)
      simp only [isWithin, between, if_neg hsame, if_pos habove, hnot, Bool.false_eq_true]
    · simp only [isWithin, between, if_neg hsame, if_neg habove]
      by_cases hbelow : p.normalize.startsWith directory.normalize = true
      · simp [hbelow]
      · simp [hbelow]

/-- Nothing but `.` itself lies inside `.`: its one component is in no other normal form. -/
theorem isWithin_here_iff {p root : Path} (hroot : root.place = .here) :
    isWithin p root = true ↔ p.place = .here := by
  rw [isWithin_iff_startsWith, Path.startsWith, List.isPrefixOf_iff_prefix,
    Path.components_normalize, Path.components_normalize, if_pos hroot]
  constructor
  · intro hbelow
    by_contra hne
    rw [if_neg hne] at hbelow
    have hhere := hbelow.subset List.mem_cons_self
    rw [Place.moves] at hhere
    split at hhere
    · simp at hhere
    · simp at hhere
  · intro hp
    rw [if_pos hp]

/-- Every other root, absolute or not, holds what names lead to below it. -/
theorem isWithin_confine_ofNames {root : Path} (hroot : root.place ≠ .here) {names : List Name}
    (hnames : ∀ n ∈ names, ProperName n) :
    isWithin (root.confine (.ofNames names)) root = true := by
  have hplace := Path.place_confine_ofNames root hnames
  have hne : (root.confine (.ofNames names)).place ≠ .here := by
    rw [hplace]
    generalize root.place = place at hroot
    obtain ⟨absolute, ups, trail⟩ := place
    rintro hhere
    simp only [Place.start, Place.mk.injEq, List.append_eq_nil_iff] at hhere
    obtain ⟨rfl, rfl, -, rfl⟩ := hhere
    exact hroot rfl
  rw [isWithin_iff_startsWith, Path.startsWith, List.isPrefixOf_iff_prefix,
    Path.components_normalize, Path.components_normalize, if_neg hroot, if_neg hne, hplace]
  simp [Place.moves, Place.names]

end Kinship
end TrustedRoot
