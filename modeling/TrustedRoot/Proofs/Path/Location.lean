import TrustedRoot.Proofs.Path.Places

namespace TrustedRoot

/-- Where one component leads from a directory in a tree without links. Above
the top there is nothing to leave. -/
def Component.lead (directory : List Name) : Component → List Name
  | .root | .here => directory
  | .parent => directory.dropLast
  | .name n => directory ++ [n]

/-- The names of the place that a path leads to from a directory in a tree without links. -/
def Path.location (p : Path) (directory : List Name) : List Name :=
  p.components.foldl Component.lead (if p.isAbsolute then [] else directory)

namespace Place

variable {a b : Place} {directory : List Name}

/-- The names of a place, seen from a directory. -/
def locate (place : Place) (directory : List Name) : List Name :=
  (if place.absolute then [] else directory.take (directory.length - place.ups)) ++ place.names

/-- An absolute place is where it is, whatever it is read from. -/
theorem locate_of_absolute (ha : a.absolute = true) : a.locate directory = a.names := by
  rw [locate, if_pos ha, List.nil_append]

/-- A relative place climbs from the directory and then goes down. -/
theorem locate_of_relative (ha : a.absolute = false) :
    a.locate directory = directory.take (directory.length - a.ups) ++ a.names := by
  rw [locate, if_neg (by simp [ha])]

/-- From a directory that is deep enough, all levels up are made. -/
theorem locate_replicate (ha : a.absolute = false) (depth : Nat) (n : Name) :
    a.locate (List.replicate depth n) = List.replicate (depth - a.ups) n ++ a.names := by
  rw [locate_of_relative ha, List.length_replicate, List.take_replicate,
    Nat.min_eq_left (Nat.sub_le _ _)]

private theorem locate_step (place : Place) (c : Component) (directory : List Name) :
    (place.step c).locate directory = c.lead (place.locate directory) := by
  obtain ⟨absolute, ups, trail⟩ := place
  cases c with
  | root | here => rfl
  | name n => cases absolute <;> simp [step, locate, names, Component.lead]
  | parent =>
    cases trail with
    | cons n outer => cases absolute <;> simp [step, locate, names, Component.lead]
    | nil =>
      cases absolute with
      | true => rfl
      | false =>
        have hshorter : (directory.length - ups) - 1 = directory.length - (ups + 1) := by omega
        have hle : directory.length - (ups + 1) ≤ directory.length - ups := by omega
        simp [step, locate, names, Component.lead, List.dropLast_eq_take, List.take_take,
          hshorter, Nat.min_eq_left hle]

private theorem foldl_lead_locate (place : Place) (steps : List Component) (directory : List Name) :
    steps.foldl Component.lead (place.locate directory) = (steps.foldl step place).locate directory := by
  induction steps generalizing place with
  | nil => rfl
  | cons c rest ih => rw [List.foldl_cons, List.foldl_cons, ← locate_step, ih]

end Place

namespace Path

/-- Where a path leads is its place, seen from the directory. -/
theorem location_eq_locate (p : Path) (directory : List Name) :
    p.location directory = p.place.locate directory := by
  have hstart : (if p.isAbsolute then [] else directory) =
      (Place.start p.isAbsolute).locate directory := by
    cases p.isAbsolute <;> simp [Place.start, Place.locate, Place.names]
  rw [location, hstart, Place.foldl_lead_locate, place]

/-- The normal form leads wherever the path leads. -/
theorem location_normalize (p : Path) (directory : List Name) :
    p.normalize.location directory = p.location directory := by
  rw [location_eq_locate, location_eq_locate, place_normalize]

end Path

namespace Place

variable {a b : Place}

/-- Names that follow the same levels whatever these are called do not depend on any level. -/
theorem eq_nil_of_prefix_replicate (front back : List Name) {levels : Nat} (hlevels : 0 < levels)
    (hfront : ∀ n, front <+: List.replicate levels n ++ back) : front = [] := by
  obtain ⟨more, rfl⟩ : ∃ more, levels = more + 1 := ⟨levels - 1, by omega⟩
  cases front with
  | nil => rfl
  | cons k rest =>
    have hhead (n : Name) : k = n := by
      have hn := hfront n
      rw [List.replicate_succ, List.cons_append, List.cons_prefix_cons] at hn
      exact hn.1
    have hsame := (hhead [dot]).symm.trans (hhead [slash])
    cases hsame

private theorem not_forall_replicate_append (front back : List Name)
    {levels : Nat} (hlevels : 0 < levels) :
    ¬ ∀ n, List.replicate levels n ++ front <+: back := by
  intro hfront
  obtain ⟨more, rfl⟩ : ∃ more, levels = more + 1 := ⟨levels - 1, by omega⟩
  have hhead (n : Name) : back.head? = some n := by
    have hn := hfront n
    rw [List.replicate_succ, List.cons_append] at hn
    obtain ⟨rest, rfl⟩ := hn
    rfl
  have hsame := (hhead [dot]).symm.trans (hhead [slash])
  cases hsame

/-- From every directory a relative place leads into another one exactly if both
climb alike and the names go on from there, or if the other climbs higher and
names nothing. -/
theorem forall_locate_prefix_iff (ha : a.absolute = false) (hb : b.absolute = false) :
    (∀ directory, b.locate directory <+: a.locate directory) ↔
      (a.ups = b.ups ∧ b.names <+: a.names) ∨ (a.ups < b.ups ∧ b.names = []) := by
  constructor
  · intro hall
    -- directories deeper than either of the two climbs, all of whose names are one
    have hprobe (n : Name) := hall (List.replicate (a.ups + b.ups + 1) n)
    simp only [locate_replicate ha, locate_replicate hb] at hprobe
    rcases Nat.lt_trichotomy a.ups b.ups with hlt | heq | hgt
    · refine .inr ⟨hlt, ?_⟩
      have hlevels : 0 < b.ups - a.ups := by omega
      refine eq_nil_of_prefix_replicate b.names a.names hlevels fun n => ?_
      have hsplit : a.ups + b.ups + 1 - a.ups =
          (a.ups + b.ups + 1 - b.ups) + (b.ups - a.ups) := by omega
      have hn := hprobe n
      rwa [hsplit, List.replicate_add, List.append_assoc, List.prefix_append_right_inj] at hn
    · refine .inl ⟨heq, ?_⟩
      have hn := hprobe []
      rwa [heq, List.prefix_append_right_inj] at hn
    · have hlevels : 0 < a.ups - b.ups := by omega
      refine absurd (fun n => ?_) (not_forall_replicate_append b.names a.names hlevels)
      have hsplit : a.ups + b.ups + 1 - b.ups =
          (a.ups + b.ups + 1 - a.ups) + (a.ups - b.ups) := by omega
      have hn := hprobe n
      rwa [hsplit, List.replicate_add, List.append_assoc, List.prefix_append_right_inj] at hn
  · rintro (⟨hups, hnames⟩ | ⟨hups, hnames⟩) directory
    · rw [locate_of_relative ha, locate_of_relative hb, hups, List.prefix_append_right_inj]
      exact hnames
    · rw [locate_of_relative ha, locate_of_relative hb, hnames, List.append_nil]
      have hle : directory.length - b.ups ≤ directory.length - a.ups := by omega
      exact (List.take_prefix_take_left hle).trans (List.prefix_append _ _)

theorem eq_of_names_eq (habsolute : a.absolute = b.absolute) (hups : a.ups = b.ups)
    (hnames : a.names = b.names) : a = b := by
  obtain ⟨absolute, ups, trail⟩ := a
  obtain ⟨_, _, trail'⟩ := b
  obtain rfl : trail = trail' := List.reverse_injective hnames
  obtain rfl : absolute = _ := habsolute
  obtain rfl : ups = _ := hups
  rfl

/-- An absolute place stays where it is when the directory grows, a relative one goes along. -/
theorem exists_locate_ne (ha : a.absolute = true) (hb : b.absolute = false) :
    ∃ directory, a.locate directory ≠ b.locate directory := by
  refine ⟨List.replicate (b.ups + a.names.length + 1) [], fun hsame => ?_⟩
  have hlength := congrArg List.length hsame
  rw [locate_of_absolute ha, locate_replicate hb, List.length_append, List.length_replicate]
    at hlength
  omega

/-- A place is known by where it lies from every directory. -/
theorem eq_of_locate_eq (ha : a.Proper) (hb : b.Proper)
    (hall : ∀ directory, a.locate directory = b.locate directory) : a = b := by
  cases habsolute : a.absolute with
  | true =>
    cases hbsolute : b.absolute with
    | true =>
      have hnames := hall []
      rw [locate_of_absolute habsolute, locate_of_absolute hbsolute] at hnames
      exact eq_of_names_eq (habsolute.trans hbsolute.symm)
        ((ha.ups habsolute).trans (hb.ups hbsolute).symm) hnames
    | false =>
      obtain ⟨directory, hne⟩ := exists_locate_ne habsolute hbsolute
      exact absurd (hall directory) hne
  | false =>
    cases hbsolute : b.absolute with
    | true =>
      obtain ⟨directory, hne⟩ := exists_locate_ne hbsolute habsolute
      exact absurd (hall directory).symm hne
    | false =>
      have hleft := (forall_locate_prefix_iff habsolute hbsolute).mp fun directory => by
        rw [hall directory]
      have hright := (forall_locate_prefix_iff hbsolute habsolute).mp fun directory => by
        rw [hall directory]
      obtain ⟨hups, hbelow, habove⟩ : a.ups = b.ups ∧ b.names <+: a.names ∧ a.names <+: b.names := by
        rcases hleft with ⟨hups, hbelow⟩ | ⟨hlt, _⟩
        · rcases hright with ⟨_, habove⟩ | ⟨hgt, _⟩
          · exact ⟨hups, hbelow, habove⟩
          · omega
        · rcases hright with ⟨hups, _⟩ | ⟨hgt, _⟩
          · omega
          · omega
      refine eq_of_names_eq (habsolute.trans hbsolute.symm) hups ?_
      exact habove.eq_of_length_le hbelow.length_le

end Place

namespace Path

/-- The normal form is sound and complete: it leads wherever the path leads, it
is its own normal form, and paths that lead to the same place from every
directory have one spelling in common. -/
theorem normalize_canonical (p q : Path) :
    (∀ directory, p.normalize.location directory = p.location directory) ∧
      p.normalize.normalize = p.normalize ∧
      (p.normalize = q.normalize ↔ ∀ directory, p.location directory = q.location directory) := by
  refine ⟨location_normalize p, normalize_normalize p, ?_⟩
  constructor
  · intro hsame directory
    rw [← location_normalize p, hsame, location_normalize q]
  · intro hall
    refine normalize_eq_iff.mpr (Place.eq_of_locate_eq (proper_place p) (proper_place q) ?_)
    intro directory
    rw [← location_eq_locate, ← location_eq_locate, hall directory]

end Path
end TrustedRoot
