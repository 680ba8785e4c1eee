import TrustedRoot.Proofs.Path.Location

namespace TrustedRoot

namespace Place

variable {a b : Place}

private theorem moves_of_relative (ha : a.absolute = false) :
    a.moves = List.replicate a.ups .parent ++ a.names.map .name := by
  rw [moves, if_neg (by simp [ha])]

private theorem here_not_mem_moves (place : Place) : Component.here ∉ place.moves := by
  intro hhere
  rw [moves, List.mem_append] at hhere
  rcases hhere with hhere | hhere
  · split at hhere
    · simp at hhere
    · simp [List.mem_replicate] at hhere
  · simp at hhere

private theorem moves_ne_nil (hne : a ≠ .here) : a.moves ≠ [] := by
  intro hnil
  rw [moves, List.append_eq_nil_iff, List.map_eq_nil_iff] at hnil
  obtain ⟨hfront, hnames⟩ := hnil
  cases habsolute : a.absolute with
  | true => simp [habsolute] at hfront
  | false =>
    simp only [habsolute, Bool.false_eq_true, if_false, List.replicate_eq_nil_iff] at hfront
    exact hne (eq_of_names_eq habsolute hfront hnames)

/-- The components of a relative place begin with those of another one also if
it climbs higher than that and the other names nothing. -/
theorem moves_prefix_iff (ha : a.absolute = false) (hb : b.absolute = false) :
    b.moves <+: a.moves ↔
      (a.ups = b.ups ∧ b.names <+: a.names) ∨ (b.ups ≤ a.ups ∧ b.names = []) := by
  have hinj : Function.Injective Component.name := fun _ _ h => Component.name.inj h
  rw [moves_of_relative ha, moves_of_relative hb]
  rcases Nat.lt_trichotomy a.ups b.ups with hlt | heq | hgt
  · obtain ⟨more, hmore⟩ : ∃ more, b.ups = a.ups + (more + 1) := ⟨b.ups - a.ups - 1, by omega⟩
    have hnot : ¬ (Component.parent :: (List.replicate more .parent ++ b.names.map .name)) <+:
        a.names.map .name := by
      intro hfront
      have hparent := hfront.subset List.mem_cons_self
      simp at hparent
    rw [hmore, List.replicate_add, List.replicate_succ, List.append_assoc, List.cons_append,
      List.prefix_append_right_inj]
    constructor
    · intro hfront
      exact absurd hfront hnot
    · rintro (⟨hups, _⟩ | ⟨hups, _⟩) <;> omega
  · rw [heq, List.prefix_append_right_inj, List.prefix_map_iff_of_injective hinj]
    constructor
    · intro hfront
      exact .inl ⟨rfl, hfront⟩
    · rintro (⟨_, hfront⟩ | ⟨_, hnil⟩)
      · exact hfront
      · simp [hnil]
  · obtain ⟨more, hmore⟩ : ∃ more, a.ups = b.ups + (more + 1) := ⟨a.ups - b.ups - 1, by omega⟩
    rw [hmore, List.replicate_add, List.replicate_succ, List.append_assoc, List.cons_append,
      List.prefix_append_right_inj]
    constructor
    · intro hfront
      refine .inr ⟨by omega, ?_⟩
      cases hnames : b.names with
      | nil => rfl
      | cons n rest => simp [hnames, List.cons_prefix_cons] at hfront
    · rintro (⟨hups, _⟩ | ⟨_, hnil⟩)
      · omega
      · simp [hnil]

end Place

/-- Where the path leads is the directory or lies beneath it, wherever both are read from. -/
def Path.LiesWithin (p directory : Path) : Prop :=
  ∀ start, directory.location start <+: p.location start

/-- Lying within is told by the places of the two paths. -/
theorem Path.liesWithin_iff_locate {p directory : Path} :
    p.LiesWithin directory ↔ ∀ start, directory.place.locate start <+: p.place.locate start := by
  simp only [LiesWithin, location_eq_locate]

private theorem Path.place_relative {p : Path} (hp : p.isAbsolute = false) :
    p.place.absolute = false := by
  rw [place_absolute_eq, hp]

namespace Kinship

private theorem contains_iff_startsWith (p other : Path) :
    contains p other = true ↔ other.normalize.startsWith p.normalize = true := by
  by_cases hsame : p.normalize = other.normalize
  · simp [contains, between, hsame, Path.startsWith]
  · by_cases habove : other.normalize.startsWith p.normalize = true
    · simp [contains, between, hsame, habove]
    · simp only [contains, between, if_neg hsame, if_neg habove]
      split_ifs <;> simp [habove]

/-- Containing is lying within, the other way round. -/
theorem contains_eq_isWithin (p other : Path) : contains p other = isWithin other p := by
  rw [Bool.eq_iff_iff, contains_iff_startsWith, isWithin_iff_startsWith]

/-- Two paths are related as the same if their normal forms are. -/
theorem between_eq_same_iff (p q : Path) : between p q = .same ↔ p.normalize = q.normalize := by
  simp only [between]
  split_ifs with hsame <;> simp [hsame]

/-- A descendant lies within and is another path. -/
theorem between_eq_descendant_iff (p q : Path) :
    between p q = .descendant ↔ isWithin p q = true ∧ p.normalize ≠ q.normalize := by
  rw [Ne, ← between_eq_same_iff, isWithin]
  cases between p q <;> simp

/-- Two paths are unrelated if neither lies within the other. -/
theorem between_eq_unrelated_iff (p q : Path) :
    between p q = .unrelated ↔ isWithin p q = false ∧ contains p q = false := by
  rw [isWithin, contains]
  cases between p q <;> simp

variable {p q : Path}

/-- But for `.`, lying inside is a matter of the components that lead to the two places. -/
theorem isWithin_iff_moves (hq : q.place ≠ .here) :
    isWithin p q = true ↔ q.place.moves <+: p.place.moves := by
  rw [isWithin_iff_startsWith, Path.startsWith, List.isPrefixOf_iff_prefix,
    Path.components_normalize, Path.components_normalize, if_neg hq]
  by_cases hp : p.place = .here
  · have hnil : p.place.moves = [] := by rw [hp]; rfl
    rw [if_pos hp, hnil, List.prefix_nil]
    constructor
    · intro hfront
      rcases List.prefix_cons_iff.mp hfront with hmoves | ⟨rest, hmoves, _⟩
      · exact hmoves
      · have hhere := q.place.here_not_mem_moves
        rw [hmoves] at hhere
        exact absurd List.mem_cons_self hhere
    · intro hmoves
      exact absurd hmoves (Place.moves_ne_nil hq)
  · rw [if_neg hp]

private theorem liesWithin_iff_of_isAbsolute (hp : p.isAbsolute = true) (hq : q.isAbsolute = true) :
    p.LiesWithin q ↔ q.place.names <+: p.place.names := by
  simp only [Path.liesWithin_iff_locate,
    Place.locate_of_absolute ((Path.place_absolute_eq p).trans hp),
    Place.locate_of_absolute ((Path.place_absolute_eq q).trans hq), forall_const]

/-- A relative path lies within the directory that is so many levels up if it
climbs no higher itself; it is taken to lie within if it climbs at least as
high, and within `.` only if it is `.` itself. -/
theorem isWithin_levels (hp : p.isAbsolute = false) {levels : Nat}
    (hq : q.place = ⟨false, levels, []⟩) :
    (p.LiesWithin q ↔ p.place.ups ≤ levels) ∧
      (isWithin p q = true ↔
        if levels = 0 then p.place = .here else levels ≤ p.place.ups) := by
  have hrelative := Path.place_relative hp
  have hq' : q.place.absolute = false := by rw [hq]
  have hups : q.place.ups = levels := by rw [hq]
  have hnames : q.place.names = [] := by rw [hq]; rfl
  constructor
  · rw [Path.liesWithin_iff_locate, Place.forall_locate_prefix_iff hrelative hq', hups, hnames]
    simp only [List.nil_prefix, and_true]
    omega
  · by_cases hlevels : levels = 0
    · rw [if_pos hlevels]
      refine isWithin_here_iff ?_
      rw [hq, hlevels]
      rfl
    · have hne : q.place ≠ .here := by
        intro hhere
        exact hlevels (hups.symm.trans (congrArg Place.ups hhere))
      rw [if_neg hlevels, isWithin_iff_moves hne, Place.moves_prefix_iff hrelative hq', hups, hnames]
      simp only [List.nil_prefix, and_true]
      omega

/-- Within a directory whose own spelling ends in a name, or an absolute one,
paths of its kind lie exactly where they are taken to lie. -/
theorem isWithin_iff_liesWithin (hsame : p.isAbsolute = q.isAbsolute)
    (hq : ∀ levels, q.place ≠ ⟨false, levels, []⟩) : isWithin p q = true ↔ p.LiesWithin q := by
  cases habsolute : q.isAbsolute with
  | true =>
    have hp := hsame.trans habsolute
    have hnames := isWithin_iff_prefix hp habsolute
    rw [hnames, liesWithin_iff_of_isAbsolute hp habsolute]
  | false =>
    have hp := Path.place_relative (hsame.trans habsolute)
    have hq' := Path.place_relative habsolute
    have hnames : q.place.names ≠ [] := by
      intro hnil
      exact hq q.place.ups (Place.eq_of_names_eq hq' rfl hnil)
    rw [isWithin_iff_moves (hq 0), Path.liesWithin_iff_locate, Place.moves_prefix_iff hp hq',
      Place.forall_locate_prefix_iff hp hq']
    simp [hnames]

/-- A name behind a path makes a descendant of it, save behind a path to `.`. -/
theorem between_join_name (p : Path) {n : Name} (hn : ProperName n) :
    between (p.join ⟨n⟩) p = if p.place = .here then .unrelated else .descendant := by
  have hchild : (p.join ⟨n⟩).place = { p.place with trail := n :: p.place.trail } :=
    Path.place_join_ofNames p (List.forall_mem_singleton.mpr hn)
  have hlonger : (p.join ⟨n⟩).place.moves = p.place.moves ++ [.name n] := by
    simp [hchild, Place.moves, Place.names]
  have hne : (p.join ⟨n⟩).place ≠ p.place := by
    intro hsame
    have hmoves := congrArg Place.moves hsame
    simp [hlonger] at hmoves
  have hchildNe : (p.join ⟨n⟩).place ≠ .here := by
    intro hhere
    rw [hhere] at hlonger
    simp [Place.moves, Place.start, Place.names] at hlonger
  split_ifs with hhere
  · rw [between_eq_unrelated_iff, contains_eq_isWithin, ← Bool.not_eq_true, ← Bool.not_eq_true,
      isWithin_here_iff hhere, isWithin_iff_moves hchildNe, hlonger, hhere]
    exact ⟨hchildNe, fun hfront => by simp [Place.moves, Place.start, Place.names] at hfront⟩
  · rw [between_eq_descendant_iff, isWithin_iff_moves hhere, hlonger, Ne, Path.normalize_eq_iff]
    exact ⟨List.prefix_append _ _, hne⟩

/-- What lying within comes to for two paths of one kind. It means that the one
leads to or beneath the other from every working directory, unless that other
one is relative and comes down to `.` or to a row of `..`. Those count as
components of their own, so that nothing lies within `.` but itself, and `..`
takes paths for its own that climb higher. -/
theorem isWithin_meaning (p q : Path) (hsame : p.isAbsolute = q.isAbsolute) :
    contains q p = isWithin p q ∧
      ((∀ levels, q.place ≠ ⟨false, levels, []⟩) → (isWithin p q = true ↔ p.LiesWithin q)) ∧
      (∀ levels, q.place = ⟨false, levels, []⟩ →
        (p.LiesWithin q ↔ p.place.ups ≤ levels) ∧
          (isWithin p q = true ↔
            if levels = 0 then p.place = .here else levels ≤ p.place.ups)) ∧
      ∀ n, ProperName n →
        between (p.join ⟨n⟩) p = if p.place = .here then .unrelated else .descendant := by
  refine ⟨contains_eq_isWithin q p, isWithin_iff_liesWithin hsame, ?_, fun n => between_join_name p⟩
  intro levels hq
  have hrelative : q.isAbsolute = false := by rw [← Path.place_absolute_eq, hq]
  exact isWithin_levels (hsame.trans hrelative) hq

/-- The file `x` lies in the working directory, but is not taken to. -/
theorem isWithin_meaning_here :
    (Path.ofString "x").isAbsolute = (Path.ofString ".").isAbsolute ∧
      isWithin (.ofString "x") (.ofString ".") = false ∧
      (Path.ofString "x").LiesWithin (.ofString ".") := by
  have hsame : (Path.ofString "x").isAbsolute = (Path.ofString ".").isAbsolute := by decide
  obtain ⟨_, _, hlevels, _⟩ := isWithin_meaning (.ofString "x") (.ofString ".") hsame
  obtain ⟨hlies, hwithin⟩ := hlevels 0 (by decide)
  refine ⟨hsame, ?_, hlies.mpr (by decide)⟩
  rw [← Bool.not_eq_true, hwithin]
  decide

/-- Lying within does not mean what it says of all relative paths. -/
theorem not_forall_isWithin_iff :
    ¬ ∀ p q : Path, p.isAbsolute = q.isAbsolute → (isWithin p q = true ↔ p.LiesWithin q) := by
  intro hall
  have hx : (Path.ofString "x").isAbsolute = false := by decide
  have hhere : (Path.ofString ".").place = ⟨false, 0, []⟩ := by decide
  have hlies : (Path.ofString "x").LiesWithin (.ofString ".") :=
    (isWithin_levels hx hhere).1.mpr (by decide)
  have hwithin := (hall _ _ (by decide)).mpr hlies
  revert hwithin
  decide

end Kinship
end TrustedRoot
