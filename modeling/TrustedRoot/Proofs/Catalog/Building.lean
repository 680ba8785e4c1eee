import TrustedRoot.Catalog
import TrustedRoot.Proofs.Path.Ancestry
import TrustedRoot.Proofs.Path.Places

namespace TrustedRoot

namespace Path

/-- On the way up from a normal form, only `/` and the empty path have nothing above them. -/
theorem isSome_parent?_of_mem_ancestors {p q : Path} (hq : q ∈ p.normalize.ancestors) :
    q.parent?.isSome = true ↔ q ≠ rootDirectory ∧ q ≠ ⟨[]⟩ := by
  rcases normalize_eq_spelled p with hhere | ⟨pieces, hpieces, hspelled⟩
  · have hup : ancestors ⟨[dot]⟩ = [⟨[dot]⟩, ⟨[]⟩] := by decide
    rw [hhere, hup, List.mem_pair] at hq
    rcases hq with rfl | rfl <;> decide
  · rw [hspelled] at hq
    obtain ⟨front, hfront, rfl⟩ := (mem_ancestors_spelled hpieces).mp hq
    have hmeaningful : ∀ s ∈ front, Meaningful s := fun s hs => hpieces s (hfront.subset hs)
    rw [isSome_parent?_spelled hmeaningful, ← not_or, spelled_eq_top_iff hmeaningful]

end Path

namespace Catalog

variable {catalog : Catalog} {p q : Path} {node : Node}

/-- What has to be a directory for a path to be there: all above its normal form but the top. -/
theorem mem_parentsOf_normalize :
    q ∈ parentsOf p.normalize ↔
      q ∈ p.normalize.ancestors.tail ∧ q ≠ .rootDirectory ∧ q ≠ ⟨[]⟩ := by
  rw [parentsOf, List.mem_filter]
  refine and_congr_right fun hq => ?_
  exact Path.isSome_parent?_of_mem_ancestors (List.mem_of_mem_tail hq)

section Nodes

/-- Making directories where there is nothing leaves all else as it stands. -/
theorem getElem?_foldl_insertIfNew (above : List Path) (nodes : Std.ExtTreeMap Path Node)
    (q : Path) :
    (above.foldl (fun nodes q => nodes.insertIfNew q .directory) nodes)[q]? =
      (nodes[q]?).or (if q ∈ above then some Node.directory else none) := by
  induction above generalizing nodes with
  | nil => simp
  | cons first rest ih =>
    rw [List.foldl_cons, ih, Std.ExtTreeMap.getElem?_insertIfNew]
    by_cases hfirst : first = q
    · subst hfirst
      cases hnode : nodes[first]? with
      | none => simp [Std.ExtTreeMap.mem_iff_isSome_getElem?, hnode]
      | some node => simp [Std.ExtTreeMap.mem_iff_isSome_getElem?, hnode]
    · simp [hfirst, Ne.symm hfirst]

/-- What putting a node under a path does to the nodes: it stands there whatever did
before, and a directory stands above it where nothing did. -/
theorem getElem?_nodes_insert (catalog : Catalog) (p : Path) (node : Node) (q : Path) :
    (catalog.insert p node).nodes[q]? =
      if p.normalize = q then some node
      else (catalog.nodes[q]?).or (if q ∈ parentsOf p.normalize then some Node.directory else none) := by
  rw [insert]
  simp only [Std.ExtTreeMap.getElem?_insert, getElem?_foldl_insertIfNew,
    Std.LawfulEqCmp.compare_eq_iff_eq]

end Nodes

/-- A step in building a catalogue. -/
inductive Edit
  | put (p : Path) (node : Node)
  | fail (p : Path) (kind : IoKind)

namespace Edit

/-- The catalogue after a step. -/
def apply (catalog : Catalog) : Edit → Catalog
  | put p node => catalog.insert p node
  | fail p kind => catalog.fail p kind

/-- The node that a step puts, with the normal form of its path. -/
def entry? : Edit → Option (Path × Node)
  | put p node => some (p.normalize, node)
  | fail .. => none

end Edit

/-- The catalogue that steps build from the empty one. -/
def build (edits : List Edit) : Catalog := edits.foldl Edit.apply empty

/-- The nodes that steps put, each with the normal form of its path. -/
def entries (edits : List Edit) : List (Path × Node) := edits.filterMap Edit.entry?

/-- The node that a list of entries has last under a path. -/
def lastEntry (entries : List (Path × Node)) (q : Path) : Option Node :=
  (entries.reverse.find? (·.1 = q)).map (·.2)

private theorem lastEntry_concat (entries : List (Path × Node)) (p : Path) (node : Node)
    (q : Path) :
    lastEntry (entries ++ [(p, node)]) q = if p = q then some node else lastEntry entries q := by
  by_cases hp : p = q <;> simp [lastEntry, hp]

/-- Whatever the order of the steps, what stands under a path is the node that was
put there last, else a directory if something was put below it. Failures have no part
in it. -/
theorem getElem?_nodes_build (edits : List Edit) (q : Path) :
    (build edits).nodes[q]? =
      (lastEntry (entries edits) q).or
        (if ∃ entry ∈ entries edits, q ∈ parentsOf entry.1 then some Node.directory else none) := by
  induction edits using List.reverseRecOn with
  | nil => simp [build, empty, entries, lastEntry]
  | append_singleton edits edit ih =>
    have hbuild : build (edits ++ [edit]) = edit.apply (build edits) := by simp [build]
    cases edit with
    | fail p kind =>
      have hentries : entries (edits ++ [.fail p kind]) = entries edits := by
        simp [entries, Edit.entry?]
      rw [hbuild, hentries]
      exact ih
    | put p node =>
      have hentries : entries (edits ++ [.put p node]) = entries edits ++ [(p.normalize, node)] := by
        simp [entries, Edit.entry?]
      rw [hbuild, hentries, lastEntry_concat, Edit.apply, getElem?_nodes_insert, ih]
      by_cases hp : p.normalize = q
      · simp [hp]
      · simp only [hp, if_false, Option.or_assoc]
        congr 1
        by_cases hbelow : ∃ entry ∈ entries edits, q ∈ parentsOf entry.1
        · simp [hbelow, or_and_right, exists_or]
        · simp [hbelow, or_and_right, exists_or]

/-- What a catalogue holds that was built from the given entries: each of them, and a
directory wherever there is no entry on the way down to one. `/` and the empty path
are on every way and not held. -/
inductive Holds (entries : List (Path × Node)) : Path → Node → Prop
  | entry {p : Path} {node : Node} (hentry : (p, node) ∈ entries) : Holds entries p node
  | above {p q : Path} {node : Node} (hentry : (p, node) ∈ entries)
      (habove : q ∈ p.ancestors.tail) (htop : q ≠ .rootDirectory) (hempty : q ≠ ⟨[]⟩)
      (hfree : ∀ node, (q, node) ∉ entries) : Holds entries q .directory

private theorem lastEntry_eq_none_iff {entries : List (Path × Node)} {q : Path} :
    lastEntry entries q = none ↔ ∀ node, (q, node) ∉ entries := by
  simp only [lastEntry, Option.map_eq_none_iff, List.find?_eq_none, List.mem_reverse,
    decide_eq_true_eq]
  exact ⟨fun h node hentry => h _ hentry rfl, fun h entry hentry hq => h entry.2 (hq ▸ hentry)⟩

/-- Where no path has two entries, none can be the last for being later. -/
theorem lastEntry_eq_some_iff {entries : List (Path × Node)}
    (hdistinct : (entries.map Prod.fst).Nodup) {q : Path} {node : Node} :
    lastEntry entries q = some node ↔ (q, node) ∈ entries := by
  have hfound (node : Node) (hlast : lastEntry entries q = some node) : (q, node) ∈ entries := by
    obtain ⟨⟨p, found⟩, hfind, rfl⟩ := Option.map_eq_some_iff.mp hlast
    obtain rfl : p = q := by simpa using List.find?_some hfind
    simpa using List.mem_of_find?_eq_some hfind
  refine ⟨hfound node, fun hentry => ?_⟩
  cases hlast : lastEntry entries q with
  | none => exact absurd hentry (lastEntry_eq_none_iff.mp hlast node)
  | some found =>
    have hsame := List.inj_on_of_nodup_map hdistinct (hfound found hlast) hentry rfl
    exact congrArg some (Prod.mk.inj hsame).2

private theorem Holds.of_perm {entries entries' : List (Path × Node)}
    (hperm : entries.Perm entries') (hholds : Holds entries q node) : Holds entries' q node := by
  cases hholds with
  | entry hentry => exact .entry (hperm.mem_iff.mp hentry)
  | above hentry habove htop hempty hfree =>
    exact .above (hperm.mem_iff.mp hentry) habove htop hempty fun node hnode =>
      hfree node (hperm.mem_iff.mpr hnode)

private theorem normalize_of_mem_entries {edits : List Edit} (hentry : (p, node) ∈ entries edits) :
    ∃ spelled : Path, p = spelled.normalize := by
  obtain ⟨edit, _, hput⟩ := List.mem_filterMap.mp hentry
  cases edit with
  | put spelled node =>
    obtain ⟨rfl, _⟩ := Prod.mk.inj (Option.some.inj hput)
    exact ⟨spelled, rfl⟩
  | fail => cases hput

/-- Where no path has two entries, the nodes of a built catalogue are told without an
order: an entry, or a directory above one. -/
theorem nodes_build_eq_some_iff {edits : List Edit}
    (hdistinct : ((entries edits).map Prod.fst).Nodup) :
    (build edits).nodes[q]? = some node ↔ Holds (entries edits) q node := by
  rw [getElem?_nodes_build, Option.or_eq_some_iff, lastEntry_eq_some_iff hdistinct,
    lastEntry_eq_none_iff]
  constructor
  · rintro (hentry | ⟨hfree, hbelow⟩)
    · exact .entry hentry
    · obtain ⟨⟨⟨p, found⟩, hentry, hparent⟩, rfl⟩ : (∃ entry ∈ entries edits,
          q ∈ parentsOf entry.1) ∧ Node.directory = node := by
        simpa using hbelow
      obtain ⟨spelled, rfl⟩ := normalize_of_mem_entries hentry
      obtain ⟨habove, htop, hempty⟩ := mem_parentsOf_normalize.mp hparent
      exact .above hentry habove htop hempty hfree
  · rintro (hentry | @⟨p, _, found, hentry, habove, htop, hempty, hfree⟩)
    · exact .inl hentry
    · obtain ⟨spelled, rfl⟩ := normalize_of_mem_entries hentry
      have hparent := mem_parentsOf_normalize.mpr ⟨habove, htop, hempty⟩
      exact .inr ⟨hfree, if_pos ⟨_, hentry, hparent⟩⟩

/-- A catalogue does not depend on the order in which it was built. If no two nodes
are put under one path, it holds those nodes and the directories that the ways down to
them need, a node that is put going before a directory that is needed; so all orders
of the same nodes build the same, with failures set up between them or not. -/
theorem build_order_independent (edits : List Edit)
    (hdistinct : ((entries edits).map Prod.fst).Nodup) :
    (∀ q node, (build edits).nodes[q]? = some node ↔ Holds (entries edits) q node) ∧
    ∀ edits' : List Edit, (entries edits').Perm (entries edits) →
      (build edits').nodes = (build edits).nodes := by
  refine ⟨fun q node => nodes_build_eq_some_iff hdistinct, fun edits' hperm => ?_⟩
  have hdistinct' : ((entries edits').map Prod.fst).Nodup :=
    (hperm.map Prod.fst).nodup_iff.mpr hdistinct
  refine Std.ExtTreeMap.ext_getElem? fun q => Option.ext fun node => ?_
  rw [nodes_build_eq_some_iff hdistinct, nodes_build_eq_some_iff hdistinct']
  exact ⟨.of_perm hperm, .of_perm hperm.symm⟩

/-- Steps that put nodes below a link and below a file, one of them relative. -/
def crossed : List Edit :=
  [.put (.ofString "/srv/link/deep/note") .file, .fail (.ofString "/srv") .permissionDenied,
    .put (.ofString "/srv/./link/") (.link (.ofString "/etc")), .put (.ofString "/srv/link/deep") .file,
    .put (.ofString "x/../y/z") .directory]

/-- The reversed steps make the same catalogue, with a link that has entries below it. -/
theorem build_crossed_order_independent :
    (build crossed.reverse).nodes = (build crossed).nodes ∧
      (build crossed).nodes[Path.ofString "/srv/link"]? = some (.link (.ofString "/etc")) ∧
      (build crossed).nodes[Path.ofString "/srv"]? = some .directory := by
  have hentries : entries crossed =
      [(.ofString "/srv/link/deep/note", .file), (.ofString "/srv/link", .link (.ofString "/etc")),
        (.ofString "/srv/link/deep", .file), (.ofString "y/z", .directory)] := by cbv
  have hdistinct : ((entries crossed).map Prod.fst).Nodup := by
    rw [hentries]
    decide
  obtain ⟨hnodes, horder⟩ := build_order_independent crossed hdistinct
  refine ⟨horder _ ?_, ?_, ?_⟩
  · exact (List.reverse_perm crossed).filterMap Edit.entry?
  · rw [hnodes, hentries]
    exact .entry (by simp)
  · rw [hnodes, hentries]
    have habove : Path.ofString "/srv" ∈ (Path.ofString "/srv/link/deep/note").ancestors.tail := by
      decide
    refine .above List.mem_cons_self habove (by decide) (by decide) ?_
    rw [← lastEntry_eq_none_iff]
    decide

end Catalog
end TrustedRoot
