import TrustedRoot.Proofs.Path.Within

namespace TrustedRoot

private theorem Path.startsWith_trans {p q r : Path} (hpq : p.startsWith q = true)
    (hqr : q.startsWith r = true) : p.startsWith r = true := by
  rw [startsWith, List.isPrefixOf_iff_prefix] at *
  exact hqr.trans hpq

namespace Kinship

/-- The guard of a resolution and the test for lying within are one test. -/
theorem inside?_eq_ite (target root : Path) :
    target.inside? root = if isWithin target root then some target.normalize else none := by
  by_cases hwithin : isWithin target root = true
  · have hstarts := (isWithin_iff_startsWith target root).mp hwithin
    rw [Path.inside?, if_pos hstarts, if_pos hwithin]
  · have hstarts := (isWithin_iff_startsWith target root).not.mp hwithin
    rw [Path.inside?, if_neg hstarts, if_neg hwithin]

/-- Lying within is reflexive and transitive. -/
theorem isPreorder_isWithin : IsPreorder Path fun p q => isWithin p q = true where
  refl p := by
    rw [isWithin_iff_startsWith, Path.startsWith, List.isPrefixOf_iff_prefix]
  trans p q r hpq hqr := by
    rw [isWithin_iff_startsWith] at *
    exact Path.startsWith_trans hpq hqr

/-- Each of two paths lies within the other only if `between` says so at once, as
it looks for equality first and for the two directions in turn. -/
theorem isWithin_and_isWithin_iff (p q : Path) :
    isWithin p q = true ∧ isWithin q p = true ↔ between p q = .same := by
  rw [← contains_eq_isWithin p q, isWithin, contains]
  cases between p q <;> simp

private theorem between_eq_ancestor_iff (p q : Path) :
    between p q = .ancestor ↔ between q p = .descendant := by
  rw [between_eq_descendant_iff, ← contains_eq_isWithin, ne_comm, Ne, ← between_eq_same_iff,
    contains]
  cases between p q <;> simp

private theorem between_eq_unrelated_comm (p q : Path) :
    between p q = .unrelated ↔ between q p = .unrelated := by
  rw [between_eq_unrelated_iff, between_eq_unrelated_iff, contains_eq_isWithin,
    contains_eq_isWithin, and_comm]

/-- The tests for containment are one preorder on paths, whatever they spell and
whether or not they are absolute. Its classes are the paths of one normal form,
and `between` tells the two directions and the rest apart. -/
theorem isWithin_order :
    (IsPreorder Path fun p q => isWithin p q = true) ∧
      ∀ p q : Path,
        p.inside? q = (if isWithin p q then some p.normalize else none) ∧
        (isWithin p q = true ∧ isWithin q p = true ↔ between p q = .same) ∧
        (between p q = .same ↔ p.normalize = q.normalize) ∧
        contains p q = isWithin q p ∧
        (between p q = .ancestor ↔ between q p = .descendant) ∧
        (between p q = .unrelated ↔ between q p = .unrelated) := by
  refine ⟨isPreorder_isWithin, fun p q => ?_⟩
  exact ⟨inside?_eq_ite p q, isWithin_and_isWithin_iff p q, between_eq_same_iff p q,
    contains_eq_isWithin p q, between_eq_ancestor_iff p q, between_eq_unrelated_comm p q⟩

end Kinship
end TrustedRoot
