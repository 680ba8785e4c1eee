import TrustedRoot.Config.Validity
import TrustedRoot.Proofs.Path.Confinement
import TrustedRoot.Proofs.Text.Utf8

namespace TrustedRoot

namespace Path

private theorem text?_ofString (text : String) : (ofString text).text? = some text :=
  Utf8.decode?_encode text

private theorem bytes_ofString_append (front back : String) :
    (ofString (front ++ back)).bytes = (ofString front).bytes ++ (ofString back).bytes := by
  simp [ofString, Utf8.encode, Utf8.encodeChars]

private theorem bytes_ofString_tilde (rest : String) :
    (ofString ("~/" ++ rest)).bytes = tilde :: slash :: (ofString rest).bytes := by
  rw [bytes_ofString_append]
  rfl

/-- What stands behind `~/` is put behind the home directory by a join. -/
theorem expandHome_tilde (home : Path) (rest : String) :
    (ofString ("~/" ++ rest)).expandHome (some home) = .ok (home.join (ofString rest)) := by
  rw [expandHome, text?_ofString, bytes_ofString_tilde]
  simp

/-- A relative path below an absolute one begins with it. -/
theorem startsWith_join {p q : Path} (hp : p.isAbsolute = true) (hq : q.isAbsolute = false) :
    (p.join q).startsWith p = true := by
  rw [startsWith, List.isPrefixOf_iff_prefix, components_join hp hq]
  exact List.prefix_append _ _

/-- An absolute path replaces what it is joined to. -/
theorem join_of_isAbsolute (p : Path) {q : Path} (hq : q.isAbsolute = true) : p.join q = q := by
  rw [join, if_pos hq]

/-- A join starts with its left side unless the right side replaces it. -/
theorem startsWith_join_iff {p : Path} (hp : p.isAbsolute = true) (q : Path) :
    (p.join q).startsWith p = true ↔ q.isAbsolute = false ∨ q.startsWith p = true := by
  cases hq : q.isAbsolute with
  | false => simp [startsWith_join hp hq]
  | true => simp [join_of_isAbsolute p hq]

end Path

namespace Config

open TrustedRoot.Path

/-- A path with `~/` in front expands in every case, and to an absolute path, so the
rules let every root pass that is spelled like that. It lies in the home directory
by its spelling, with all steps of what stands behind `~/`, if that is relative. A
second separator makes it absolute: then it takes the place of the home directory,
and the root is wherever it says. -/
theorem root_of_tilde {home : Path} (hhome : home.isAbsolute = true) (rest : String) :
    ∃ path, (ofString ("~/" ++ rest)).expandHome (some home) = .ok path ∧
      (∀ field, checkPath (some home) field (ofString ("~/" ++ rest)) = .ok ()) ∧
      (path.startsWith home = true ↔
        (ofString rest).isAbsolute = false ∨ (ofString rest).startsWith home = true) ∧
      ((ofString rest).isAbsolute = false →
        path.components = home.components ++ (ofString rest).steps) ∧
      ((ofString rest).isAbsolute = true → path = ofString rest) ∧
      ∀ config : Config,
        (∀ name, config.roots[name]? = some (ofString ("~/" ++ rest)) →
          config.root (some home) name = .ok path ∧
          (config.rootOverride = none → config.defaultRoot = some name →
            config.defaultRootPath (some home) = .ok (some path))) ∧
        (config.rootOverride = some (ofString ("~/" ++ rest)) →
          config.defaultRootPath (some home) = .ok (some path)) := by
  have hexpand := expandHome_tilde home rest
  refine ⟨home.join (ofString rest), hexpand, fun field => ?_, startsWith_join_iff hhome _,
    components_join hhome, join_of_isAbsolute home, fun config => ⟨fun name hname => ?_, ?_⟩⟩
  · have hfull : (ofString ("~/" ++ rest)).bytes ≠ [] := by
      rw [bytes_ofString_tilde]
      exact List.cons_ne_nil _ _
    simp only [checkPath, if_neg hfull, hexpand, isAbsolute_join hhome, if_true]
  · have hroot : config.root (some home) name = .ok (home.join (ofString rest)) := by
      simp only [root, hname, hexpand]
    refine ⟨hroot, fun hoverride hdefault => ?_⟩
    simp only [defaultRootPath, hoverride, hdefault, hroot, Except.map]
  · intro hoverride
    simp only [defaultRootPath, hoverride, hexpand, Except.map]

/-- A `..` behind the tilde is kept, and a second separator leaves the home directory. -/
theorem root_of_tilde_twice :
    (ofString "/home").isAbsolute = true ∧
      (∃ path, (ofString "~/jail/..").expandHome (some (ofString "/home")) = .ok path ∧
        path.startsWith (ofString "/home") = true) ∧
      (⟨none, ∅, some (ofString "~//etc")⟩ : Config).defaultRootPath (some (ofString "/home")) =
        .ok (some (ofString "/etc")) := by
  have hhome : (ofString "/home").isAbsolute = true := by decide
  refine ⟨hhome, ?_, ?_⟩
  · obtain ⟨path, hpath, _, hstarts, _⟩ := root_of_tilde hhome "jail/.."
    exact ⟨path, hpath, hstarts.mpr (.inl (by decide))⟩
  · obtain ⟨path, _, _, _, _, hreplaced, hroots⟩ := root_of_tilde hhome "/etc"
    rw [← hreplaced (by decide)]
    exact (hroots ⟨none, ∅, some (ofString "~//etc")⟩).2 rfl

/-- Not every path that is given with the tilde lies in the home directory, though
the rules let it pass. -/
theorem not_forall_startsWith_home :
    ¬ ∀ (home : Path) (rest : String), home.isAbsolute = true →
      ∃ path, (ofString ("~/" ++ rest)).expandHome (some home) = .ok path ∧
        path.startsWith home = true := by
  intro hall
  obtain ⟨path, hpath, hstarts⟩ := hall (ofString "/home") "/etc" (by decide)
  have hvalue : (ofString "~//etc").expandHome (some (ofString "/home")) = .ok (ofString "/etc") := by
    cbv
  obtain rfl := Except.ok.inj (hvalue.symm.trans hpath)
  exact absurd hstarts (by decide)

end Config
end TrustedRoot
