import TrustedRoot.Proofs.Config.Validity

namespace TrustedRoot.Config

variable {home : Option Path} {lower upper : Config}

/-- A merge has the names of both. -/
theorem mem_roots_merge {name : String} :
    name ∈ (lower.merge upper).roots ↔ name ∈ lower.roots ∨ name ∈ upper.roots :=
  Std.ExtTreeMap.mem_union_iff

/-- Looked up in two layers, a name is that of the upper one if the upper one has it. -/
theorem root_merge (name : String) :
    (lower.merge upper).root home name =
      if name ∈ upper.roots then upper.root home name else lower.root home name := by
  have hfound : (lower.merge upper).roots[name]? = (upper.roots[name]?).or lower.roots[name]? :=
    Std.ExtTreeMap.getElem?_union
  unfold root
  split_ifs with hname
  · obtain ⟨path, hpath⟩ := Option.isSome_iff_exists.mp
      (Std.ExtTreeMap.mem_iff_isSome_getElem?.mp hname)
    rw [hfound, hpath, Option.some_or]
  · rw [hfound, Std.ExtTreeMap.getElem?_eq_none hname, Option.none_or]

/-- Each layer brings the root along that its default name needs, and names are only
added by the other layer. -/
theorem Usable.merge (hlower : lower.Usable home) (hupper : upper.Usable home) :
    (lower.merge upper).Usable home where
  name name hname := (mem_roots_merge.mp hname).elim (hlower.name name) (hupper.name name)
  root name hname := by
    rw [root_merge]
    split_ifs with hfound
    · exact hupper.root name hfound
    · exact hlower.root name ((mem_roots_merge.mp hname).resolve_right hfound)
  defaultRoot name hdefault := by
    rcases Option.or_eq_some_iff.mp hdefault with hset | ⟨_, hset⟩
    · exact mem_roots_merge.mpr (.inr (hupper.defaultRoot name hset))
    · exact mem_roots_merge.mpr (.inl (hlower.defaultRoot name hset))
  rootOverride path hoverride := by
    rcases Option.or_eq_some_iff.mp hoverride with hset | ⟨_, hset⟩
    · exact hupper.rootOverride path hset
    · exact hlower.rootOverride path hset

private theorem usable_empty (home : Option Path) : empty.Usable home :=
  (validate_checks home empty).eq_ok_iff.mp rfl

/-- A further source is merged over all those before it. -/
theorem mergeAll_concat (configs : List Config) (config : Config) :
    mergeAll (configs ++ [config]) = (mergeAll configs).merge config := by
  simp [mergeAll]

/-- Sources that can all be used make a configuration that can be. -/
theorem usable_mergeAll {configs : List Config}
    (hconfigs : ∀ config ∈ configs, config.Usable home) :
    (mergeAll configs).Usable home := by
  -- Layers are added on top, so the induction is on the list from its end.
  induction configs using List.reverseRecOn with
  | nil => exact usable_empty home
  | append_singleton configs config ih =>
    rw [mergeAll_concat]
    exact (ih fun c hc => hconfigs c (List.mem_append_left _ hc)).merge (hconfigs config (by simp))

/-- The merge of many sources has the names that any of them has. -/
theorem mem_roots_mergeAll {configs : List Config} {name : String} :
    name ∈ (mergeAll configs).roots ↔ ∃ config ∈ configs, name ∈ config.roots := by
  induction configs using List.reverseRecOn with
  | nil => simp [mergeAll, empty]
  | append_singleton configs config ih =>
    rw [mergeAll_concat, mem_roots_merge, ih]
    simp [or_and_right, exists_or]

/-- Configurations that keep the rules are laid over each other without breaking
them, and no root is lost on the way. The rule that reaches across fields, that
the default name is that of a root, holds because the layer that set the name
brought the root along. -/
theorem validate_merge :
    (∀ (home : Option Path) (lower upper : Config),
      lower.validate home = .ok () → upper.validate home = .ok () →
        (lower.merge upper).validate home = .ok () ∧
        ∀ name, name ∈ (lower.merge upper).roots ↔ name ∈ lower.roots ∨ name ∈ upper.roots) ∧
    ∀ (home : Option Path) (sources : List Source),
      (∀ source ∈ sources, source.config.validate home = .ok ()) →
        (mergeAll (sources.map (·.config))).validate home = .ok () ∧
        ∀ name, name ∈ (mergeAll (sources.map (·.config))).roots ↔
          ∃ source ∈ sources, name ∈ source.config.roots := by
  simp only [fun (home : Option Path) (config : Config) => (validate_checks home config).eq_ok_iff]
  refine ⟨fun home lower upper hlower hupper => ⟨hlower.merge hupper, fun _ => mem_roots_merge⟩,
    fun home sources hsources => ⟨usable_mergeAll ?_, fun name => ?_⟩⟩
  · simpa using hsources
  · simp [mem_roots_mergeAll]

/-- A configuration with a default name. -/
def shared : Config :=
  ⟨some "data", .ofList [("data", Path.ofString "/srv/data"), ("tmp", Path.ofString "/tmp")], none⟩

/-- A configuration that has another root of that name. -/
def personal : Config :=
  ⟨none, .ofList [("data", Path.ofString "~/data")], some (Path.ofString "/jail")⟩

/-- The default name is kept, and leads to the root that replaces the one it was set for. -/
theorem validate_merge_shared_personal :
    shared.validate (some (Path.ofString "/home")) = .ok () ∧
      personal.validate (some (Path.ofString "/home")) = .ok () ∧
      (shared.merge personal).validate (some (Path.ofString "/home")) = .ok () ∧
      (mergeAll [shared, personal, shared]).validate (some (Path.ofString "/home")) = .ok () ∧
      "tmp" ∈ (mergeAll [shared, personal, shared]).roots := by
  have hshared : shared.validate (some (Path.ofString "/home")) = .ok () := by cbv
  have hpersonal : personal.validate (some (Path.ofString "/home")) = .ok () := by cbv
  obtain ⟨hmerge, hall⟩ := validate_merge
  obtain ⟨hvalid, hroots⟩ := hall (some (Path.ofString "/home"))
    [⟨userFile, 1, shared⟩, ⟨projectFile, 2, personal⟩, ⟨userFile, 3, shared⟩]
    (by simp [hshared, hpersonal])
  refine ⟨hshared, hpersonal, (hmerge _ _ _ hshared hpersonal).1, hvalid, ?_⟩
  exact (hroots "tmp").mpr ⟨⟨userFile, 1, shared⟩, by simp, by simp [shared]⟩

end TrustedRoot.Config
