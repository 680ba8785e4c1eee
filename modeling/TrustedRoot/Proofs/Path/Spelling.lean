import TrustedRoot.Path.Place
import TrustedRoot.Proofs.Text.Cutting

namespace TrustedRoot

/-- A name that a directory entry can have: it is not empty, means no step of its own and holds no
separator. Every name that comes out of a spelling is one. -/
structure ProperName (n : Name) : Prop where
  ne_nil : n ≠ []
  ne_dot : n ≠ [dot]
  ne_dots : n ≠ [dot, dot]
  no_slash : slash ∉ n

/-- A segment that stands for a step wherever it stands: a name or `..`. Normal forms
are spelled with these alone. -/
structure Meaningful (s : Bytes) : Prop where
  ne_nil : s ≠ []
  ne_dot : s ≠ [dot]
  no_slash : slash ∉ s

/-- A proper name stands for a step. -/
theorem ProperName.meaningful {n : Name} (hn : ProperName n) : Meaningful n :=
  ⟨hn.ne_nil, hn.ne_dot, hn.no_slash⟩

/-- So does `..`. -/
theorem meaningful_dots : Meaningful [dot, dot] :=
  ⟨by decide, by decide, by decide⟩

theorem properNames_reverse {names : List Name} (hnames : ∀ n ∈ names, ProperName n) :
    ∀ n ∈ names.reverse, ProperName n := by
  simpa only [List.mem_reverse] using hnames

theorem spell_eq_intercalate (pieces : List Bytes) : spell pieces = [slash].intercalate pieces := by
  induction pieces with
  | nil => rfl
  | cons s more ih =>
    cases more with
    | nil => simp [spell]
    | cons next rest => simp [spell, ih, List.intercalate_cons_cons]

/-- Spelling segments without separators and cutting the spelling gives the segments back. -/
theorem segments_spell_of_no_slash {pieces : List Bytes} (hne : pieces ≠ [])
    (hpieces : ∀ s ∈ pieces, slash ∉ s) : segments (spell pieces) = pieces := by
  rw [segments, spell_eq_intercalate, Split.splitOn_intercalate hne hpieces]

/-- Segments that stand for steps make a text that is not empty. -/
theorem spell_ne_nil {pieces : List Bytes} (hne : pieces ≠ [])
    (hpieces : ∀ s ∈ pieces, Meaningful s) : spell pieces ≠ [] := by
  obtain ⟨s, more, rfl⟩ := List.exists_cons_of_ne_nil hne
  have hs := (hpieces s List.mem_cons_self).ne_nil
  cases more <;> simp [spell, hs]

private theorem segments_spell {names : List Name} (hne : names ≠ [])
    (hnames : ∀ n ∈ names, ProperName n) : segments (spell names) = names :=
  segments_spell_of_no_slash hne fun n hn => (hnames n hn).no_slash

/-- Two lists of segments are spelled with a separator between them. -/
theorem spell_append {front back : List Name} (hfront : front ≠ []) (hback : back ≠ []) :
    spell (front ++ back) = spell front ++ slash :: spell back := by
  induction front with
  | nil => exact absurd rfl hfront
  | cons n more ih =>
    cases more with
    | nil =>
      obtain ⟨k, rest, rfl⟩ := List.exists_cons_of_ne_nil hback
      rfl
    | cons next rest =>
      have hmore := ih (List.cons_ne_nil _ _)
      rw [List.cons_append] at hmore
      simp [spell, hmore]

/-- Spelled names never end in a separator. -/
theorem getLast?_spell_ne_slash {names : List Name} (hnames : ∀ n ∈ names, ProperName n) :
    (spell names).getLast? ≠ some slash := by
  rcases List.eq_nil_or_concat names with rfl | ⟨front, n, rfl⟩
  · simp [spell]
  · have hn := hnames n (by simp)
    have hlast : n.getLast? ≠ some slash := fun h => hn.no_slash (List.mem_of_getLast? h)
    by_cases hfront : front = []
    · subst hfront
      exact hlast
    · rw [List.concat_eq_append, spell_append hfront (List.cons_ne_nil _ _), List.append_cons,
        List.getLast?_append_of_ne_nil _ (by simpa [spell] using hn.ne_nil)]
      exact hlast

/-- A proper name is a component by that name. -/
theorem Component.ofSegment?_properName {n : Name} (hn : ProperName n) :
    Component.ofSegment? n = some (.name n) := by
  simp [Component.ofSegment?, hn.ne_nil, hn.ne_dot, hn.ne_dots]

/-- A segment that is a name is a proper one. -/
theorem Component.ofSegment?_eq_name {s : Bytes} {n : Name} (hs : slash ∉ s)
    (hn : Component.ofSegment? s = some (.name n)) : ProperName n := by
  unfold Component.ofSegment? at hn
  split at hn
  · cases hn
  · split at hn
    · cases hn
    · obtain rfl : s = n := by simpa using hn
      simp only [not_or] at *
      exact ⟨by tauto, by tauto, by tauto, hs⟩

namespace Path

/-- The components of a path that move: all but the `/` or `.` in front. -/
def steps (p : Path) : List Component := (segments p.bytes).filterMap Component.ofSegment?

/-- What moves in a path stands behind its `/` or its `.`. -/
theorem components_eq_steps (p : Path) :
    p.components = (if p.isAbsolute then [.root] else if p.startsHere then [.here] else []) ++
      p.steps := by
  unfold components steps
  split
  · rfl
  · split <;> rfl

theorem components_of_isAbsolute {p : Path} (hp : p.isAbsolute = true) :
    p.components = .root :: p.steps := by
  simp [components_eq_steps, hp]

/-- Every name among the steps of a path is proper. -/
theorem properName_of_mem_steps {p : Path} {n : Name} (hn : .name n ∈ p.steps) :
    ProperName n := by
  obtain ⟨s, hs, hsn⟩ := List.mem_filterMap.mp hn
  exact Component.ofSegment?_eq_name (Split.not_mem_of_mem_splitOn hs) hsn

/-- Whatever bytes a path has, the names among its components are proper. -/
theorem properName_of_mem_components {p : Path} {n : Name} (hn : .name n ∈ p.components) :
    ProperName n := by
  apply properName_of_mem_steps (p := p)
  rw [components_eq_steps] at hn
  split at hn
  · simpa using hn
  · split at hn <;> simpa using hn

theorem properName_of_mem_rest {c : Component} {rest : List Component}
    (hpending : ∀ n, .name n ∈ c :: rest → ProperName n) : ∀ n, .name n ∈ rest → ProperName n :=
  fun n hn => hpending n (List.mem_cons_of_mem c hn)

/-- The names are still proper when a path is put in front of components that wait. -/
theorem properName_of_mem_components_append {p : Path} {rest : List Component}
    (hrest : ∀ n, .name n ∈ rest → ProperName n) :
    ∀ n, .name n ∈ p.components ++ rest → ProperName n := by
  intro n hn
  rcases List.mem_append.mp hn with hn | hn
  · exact properName_of_mem_components hn
  · exact hrest n hn

/-- A separator cuts a path in two without a step lost. -/
theorem steps_append_slash (front back : Bytes) :
    steps ⟨front ++ slash :: back⟩ = steps ⟨front⟩ ++ steps ⟨back⟩ := by
  simp [steps, segments, Split.splitOn_append]

@[simp] theorem steps_nil : steps ⟨[]⟩ = [] := rfl

/-- Proper names that are spelled are read back as steps. -/
theorem steps_ofNames {names : List Name} (hnames : ∀ n ∈ names, ProperName n) :
    (ofNames names).steps = names.map .name := by
  by_cases hne : names = []
  · subst hne
    rfl
  · rw [steps, ofNames, segments_spell hne hnames,
      List.filterMap_congr (g := some ∘ Component.name)
        fun n hn => Component.ofSegment?_properName (hnames n hn),
      List.filterMap_eq_map]

/-- Those of an absolute path too. -/
theorem steps_absolute {names : List Name} (hnames : ∀ n ∈ names, ProperName n) :
    (absolute names).steps = names.map .name := by
  have h := steps_append_slash [] (spell names)
  simpa [absolute, ofNames, ← steps_ofNames hnames] using h

@[simp] theorem isAbsolute_absolute (names : List Name) : (absolute names).isAbsolute = true := rfl

/-- An absolute path of names is `/` and these names. -/
theorem components_absolute {names : List Name} (hnames : ∀ n ∈ names, ProperName n) :
    (absolute names).components = .root :: names.map .name := by
  rw [components_of_isAbsolute (isAbsolute_absolute names), steps_absolute hnames]

/-- The path with the given segments, from the top or relative. -/
def spelled (absolute : Bool) (pieces : List Bytes) : Path :=
  if absolute then ⟨slash :: spell pieces⟩ else ⟨spell pieces⟩

/-- A path of segments that count is absolute if it was spelled so. -/
theorem isAbsolute_spelled (absolute : Bool) {pieces : List Bytes}
    (hpieces : ∀ s ∈ pieces, Meaningful s) : (spelled absolute pieces).isAbsolute = absolute := by
  cases absolute with
  | true => rfl
  | false =>
    cases pieces with
    | nil => rfl
    | cons s more =>
      have hs := hpieces s List.mem_cons_self
      obtain ⟨b, tail, rfl⟩ := List.exists_cons_of_ne_nil hs.ne_nil
      have hb : b ≠ slash := fun h => hs.no_slash (h ▸ List.mem_cons_self)
      cases more <;> simpa [spelled, spell, isAbsolute] using hb

theorem startsHere_spelled {pieces : List Bytes} (hpieces : ∀ s ∈ pieces, Meaningful s) :
    (spelled false pieces).startsHere = false := by
  cases pieces with
  | nil => rfl
  | cons s more =>
    have hcut := segments_spell_of_no_slash (List.cons_ne_nil s more) fun k hk =>
      (hpieces k hk).no_slash
    simpa [startsHere, spelled, hcut] using (hpieces s List.mem_cons_self).ne_dot

/-- Names alone are a relative path. -/
theorem isAbsolute_ofNames {names : List Name} (hnames : ∀ n ∈ names, ProperName n) :
    (ofNames names).isAbsolute = false :=
  isAbsolute_spelled false fun n hn => (hnames n hn).meaningful

/-- Names are the components of the path that they spell. -/
theorem components_ofNames {names : List Name} (hnames : ∀ n ∈ names, ProperName n) :
    (ofNames names).components = names.map .name := by
  have hhere : (ofNames names).startsHere = false :=
    startsHere_spelled fun n hn => (hnames n hn).meaningful
  simp [components_eq_steps, isAbsolute_ofNames hnames, hhere, steps_ofNames hnames]

/-- What is joined to an absolute path stays absolute. -/
theorem isAbsolute_join {p : Path} (hp : p.isAbsolute = true) (q : Path) :
    (p.join q).isAbsolute = true := by
  unfold join
  split
  · assumption
  · obtain ⟨bytes⟩ := p
    cases bytes with
    | nil => cases hp
    | cons b more => split <;> simpa [isAbsolute] using hp

/-- A relative path behind another one adds its steps, however the two are spelled. -/
theorem steps_join (p : Path) {q : Path} (hq : q.isAbsolute = false) :
    (p.join q).steps = p.steps ++ q.steps := by
  obtain ⟨front⟩ := p
  unfold join
  rw [if_neg (by simp [hq])]
  split
  · rename_i hend
    rcases hend with rfl | hend
    · rfl
    · obtain ⟨body, rfl⟩ := List.getLast?_eq_some_iff.mp hend
      have hback := steps_append_slash body q.bytes
      have hfront := steps_append_slash body []
      simp_all
  · exact steps_append_slash front q.bytes

/-- Names are joined by writing them behind the others. -/
theorem join_absolute {base names : List Name} (hbase : ∀ n ∈ base, ProperName n)
    (hnames : ∀ n ∈ names, ProperName n) (hne : names ≠ []) :
    (absolute base).join (ofNames names) = absolute (base ++ names) := by
  unfold join
  rw [if_neg (by simp [isAbsolute_ofNames hnames])]
  by_cases htop : base = []
  · subst htop
    rfl
  · have hend : (absolute base).bytes.getLast? ≠ some slash := by
      have hspelled : spell base ≠ [] := spell_ne_nil htop fun n hn => (hbase n hn).meaningful
      rw [absolute, List.getLast?_cons_of_ne_nil hspelled]
      exact getLast?_spell_ne_slash hbase
    have hfull : (absolute base).bytes ≠ [] := List.cons_ne_nil _ _
    rw [if_neg (not_or.mpr ⟨hfull, hend⟩), absolute, absolute, ofNames, spell_append htop hne]
    rfl

/-- The last name of a path is its file name. -/
theorem fileName?_absolute {names : List Name} {n : Name}
    (hnames : ∀ k ∈ names ++ [n], ProperName k) :
    (absolute (names ++ [n])).fileName? = some n := by
  rw [fileName?, components_absolute hnames, List.map_append, ← List.cons_append, List.map_singleton,
    List.getLast?_concat]
  rfl

private theorem dropMeaningless_of_meaningful
    {pieces : List Bytes} (hpieces : ∀ s ∈ pieces, Meaningful s) :
    dropMeaningless false pieces = pieces := by
  cases pieces with
  | nil => rfl
  | cons s more =>
    have hs := hpieces s List.mem_cons_self
    have hmeans : (Component.ofSegment? s).isNone = false := by
      rw [Component.ofSegment?, if_neg (not_or.mpr ⟨hs.ne_nil, hs.ne_dot⟩)]
      split <;> rfl
    simp [dropMeaningless, hmeans]

/-- Where every segment counts, the parent is spelled with all of them but the last. -/
theorem parent?_spelled (absolute : Bool) {pieces : List Bytes} {s : Bytes}
    (hpieces : ∀ k ∈ pieces ++ [s], Meaningful k) :
    (spelled absolute (pieces ++ [s])).parent? = some (spelled absolute pieces) := by
  have hcut : segments (spell (pieces ++ [s])) = pieces ++ [s] :=
    segments_spell_of_no_slash (by simp) fun k hk => (hpieces k hk).no_slash
  have hall : dropMeaningless false (pieces ++ [s]).reverse = (pieces ++ [s]).reverse :=
    dropMeaningless_of_meaningful fun k hk => hpieces k (List.mem_reverse.mp hk)
  have habove : dropMeaningless false pieces.reverse = pieces.reverse :=
    dropMeaningless_of_meaningful fun k hk =>
      hpieces k (List.mem_append_left _ (List.mem_reverse.mp hk))
  have habsolute := isAbsolute_spelled absolute hpieces
  cases absolute with
  | true =>
    have hsegments : segments (spelled true (pieces ++ [s])).bytes = [] :: (pieces ++ [s]) := by
      simp only [spelled, if_true]
      rw [segments, ← List.nil_append (slash :: _), Split.splitOn_append]
      exact congrArg ([[]] ++ ·) hcut
    simp only [parent?, habsolute, if_true, hsegments, List.tail_cons, Bool.not_true,
      Bool.false_and, hall]
    simp [habove, spelled]
  | false =>
    have hsegments : segments (spelled false (pieces ++ [s])).bytes = pieces ++ [s] := hcut
    simp only [parent?, habsolute, startsHere_spelled hpieces, Bool.false_eq_true, if_false,
      hsegments, Bool.and_false, hall]
    simp [habove, spelled]

/-- The directory above is spelled without the last name. -/
theorem parent?_absolute {names : List Name} {n : Name}
    (hnames : ∀ k ∈ names ++ [n], ProperName k) :
    (absolute (names ++ [n])).parent? = some (absolute names) :=
  parent?_spelled true fun k hk => (hnames k hk).meaningful

end Path
end TrustedRoot
