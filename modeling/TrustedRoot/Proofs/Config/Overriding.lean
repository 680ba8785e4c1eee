import TrustedRoot.Proofs.Config.Merging

namespace TrustedRoot.Config

namespace Layer

/-- Laying layers over each other can be done in any grouping, since every field
takes the first answer from the top. -/
theorem over_assoc (upper middle lower : Layer) :
    (upper.over middle).over lower = upper.over (middle.over lower) := by
  simp only [Layer.over, Option.or_assoc]

private theorem over_self (layer : Layer) : layer.over layer = layer := by
  simp only [Layer.over, Option.or_self]

end Layer

private theorem merge_assoc (lower middle upper : Config) :
    (lower.merge middle).merge upper = lower.merge (middle.merge upper) := by
  apply eq_of_layer_eq
  simp only [layer_merge, Layer.over_assoc]

private theorem merge_self (config : Config) : config.merge config = config := by
  apply eq_of_layer_eq
  rw [layer_merge, Layer.over_self]

section Sources

variable {α : Type}

/-- The last source that says anything of a matter says `a`. -/
def LastSays (say : Config → Option α) (sources : List Source) (a : α) : Prop :=
  ∃ before source after, sources = before ++ source :: after ∧ say source.config = some a ∧
    ∀ later ∈ after, say later.config = none

private theorem lastSays_iff {say : Config → Option α} {sources : List Source} {a : α} :
    LastSays say sources a ↔ sources.reverse.findSome? (fun source => say source.config) = some a := by
  rw [List.findSome?_eq_some_iff]
  constructor
  · rintro ⟨before, source, after, hsources, hsay, hafter⟩
    refine ⟨after.reverse, source, before.reverse, by simp [hsources], hsay, ?_⟩
    simpa using hafter
  · rintro ⟨after, source, before, hsources, hsay, hafter⟩
    refine ⟨before.reverse, source, after.reverse, ?_, hsay, by simpa using hafter⟩
    simpa using congrArg List.reverse hsources

/-- A matter that each merge decides from the top is decided by the last source:
the sources are laid on one after the other, and one that says nothing of it leaves
it as it was. -/
theorem say_mergeAll (say : Config → Option α) (hempty : say empty = none)
    (hmerge : ∀ lower upper : Config, say (lower.merge upper) = (say upper).or (say lower))
    (sources : List Source) {a : α} :
    say (mergeAll (sources.map (·.config))) = some a ↔ LastSays say sources a := by
  rw [lastSays_iff]
  suffices hsaid : say (mergeAll (sources.map (·.config))) =
      sources.reverse.findSome? fun source => say source.config by rw [hsaid]
  induction sources using List.reverseRecOn with
  | nil => exact hempty
  | append_singleton sources source ih =>
    rw [List.map_append, List.map_singleton, mergeAll_concat, hmerge, ih, List.reverse_append,
      List.reverse_singleton, List.singleton_append, findSome?_cons_eq_or]

/-- How a configuration answers to a list of sources: each name, the default and the
overriding root are what the last source says that says anything of them. -/
structure Overridden (sources : List Source) (config : Config) : Prop where
  root : ∀ (name : String) (path : Path), config.roots[name]? = some path ↔
    LastSays (fun config => config.roots[name]?) sources path
  name : ∀ name, name ∈ config.roots ↔ ∃ source ∈ sources, name ∈ source.config.roots
  defaultRoot : ∀ name, config.defaultRoot = some name ↔ LastSays (·.defaultRoot) sources name
  rootOverride : ∀ path, config.rootOverride = some path ↔ LastSays (·.rootOverride) sources path

/-- What many sources are merged into answers to the last of them that speaks of a matter. -/
theorem overridden_mergeAll (sources : List Source) :
    Overridden sources (mergeAll (sources.map (·.config))) where
  root name path := say_mergeAll (fun config => config.roots[name]?)
    Std.ExtTreeMap.getElem?_empty (fun _ _ => Std.ExtTreeMap.getElem?_union) sources
  name name := by simp [mem_roots_mergeAll]
  defaultRoot name := say_mergeAll (·.defaultRoot) rfl (fun _ _ => rfl) sources
  rootOverride path := say_mergeAll (·.rootOverride) rfl (fun _ _ => rfl) sources

end Sources

/-- Merging is an override monoid: layers can be laid over each other in any
grouping, a configuration that says nothing changes nothing on either side, and one
laid over itself neither. Of a list of sources the last one that says anything of a
matter has it; there are no names but those of the sources. -/
theorem merge_monoid :
    (∀ lower middle upper : Config,
      (lower.merge middle).merge upper = lower.merge (middle.merge upper)) ∧
    (∀ config : Config, empty.merge config = config ∧ config.merge empty = config ∧
      config.merge config = config) ∧
    ∀ sources : List Source, Overridden sources (mergeAll (sources.map (·.config))) :=
  ⟨merge_assoc, fun config => ⟨empty_merge config, merge_empty config, merge_self config⟩,
    overridden_mergeAll⟩

end TrustedRoot.Config
