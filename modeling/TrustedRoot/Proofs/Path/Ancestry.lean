import TrustedRoot.Proofs.Path.Spelling

namespace TrustedRoot

/-- Cutting bytes into segments and spelling those gives the bytes back. -/
theorem spell_segments_eq (bytes : Bytes) : spell (segments bytes) = bytes := by
  rw [spell_eq_intercalate, segments, Split.intercalate_splitOn]

private theorem length_le_length_spell
    {piece : Bytes} {pieces : List Bytes} (hpiece : piece ∈ pieces) :
    piece.length ≤ (spell pieces).length := by
  induction pieces with
  | nil => cases hpiece
  | cons s more ih =>
    cases more with
    | nil => simp_all [spell]
    | cons next rest =>
      have hspelled : spell (s :: next :: rest) = s ++ slash :: spell (next :: rest) := rfl
      rw [hspelled, List.length_append, List.length_cons]
      rcases List.mem_cons.mp hpiece with rfl | hpiece
      · omega
      · have hmore := ih hpiece
        omega

/-- What comes before a segment that is not empty is spelled with fewer bytes. -/
theorem length_spell_lt {front back : List Bytes} {piece : Bytes} (hpiece : piece ∈ back)
    (hne : piece ≠ []) : (spell front).length < (spell (front ++ back)).length := by
  by_cases hfront : front = []
  · subst hfront
    have hle := length_le_length_spell hpiece
    have hpos := List.length_pos_iff.mpr hne
    simp only [spell, List.length_nil, List.nil_append]
    omega
  · rw [spell_append hfront (List.ne_nil_of_mem hpiece), List.length_append, List.length_cons]
    omega

namespace Path

private theorem dropMeaningless_suffix (keepsFirst : Bool) (reversed : List Bytes) :
    dropMeaningless keepsFirst reversed <:+ reversed := by
  induction reversed with
  | nil => exact List.suffix_refl _
  | cons s more ih =>
    rw [dropMeaningless]
    split_ifs with hkeep hnone
    · obtain ⟨_, hmore⟩ := Bool.and_eq_true_iff.mp hkeep
      rw [List.isEmpty_iff.mp hmore]
    · exact ih.trans (List.suffix_cons s more)
    · exact List.suffix_refl _

/-- A segment that is kept at the end is not empty: it means something, or it is
the `.` in front of a relative path. -/
theorem ne_nil_of_dropMeaningless {keepsFirst : Bool} {reversed : List Bytes} {s : Bytes}
    {above : List Bytes} (hfirst : keepsFirst = true → reversed.getLast? = some [dot])
    (hdrop : dropMeaningless keepsFirst reversed = s :: above) : s ≠ [] := by
  induction reversed with
  | nil => cases hdrop
  | cons t more ih =>
    rw [dropMeaningless] at hdrop
    split_ifs at hdrop with hkeep hnone
    · obtain ⟨hkeeps, hmore⟩ := Bool.and_eq_true_iff.mp hkeep
      obtain rfl := List.isEmpty_iff.mp hmore
      have hdot := hfirst hkeeps
      simp_all
    · refine ih (fun hkeeps => ?_) hdrop
      have hne : more ≠ [] := by
        rintro rfl
        simp [hkeeps] at hkeep
      rw [← hfirst hkeeps, List.getLast?_cons_of_ne_nil hne]
    · rintro rfl
      cases hdrop
      simp [Component.ofSegment?] at hnone

private theorem length_spell_above_lt {keepsFirst : Bool} {body above : List Bytes} {s : Bytes}
    (hfirst : keepsFirst = true → body.head? = some [dot])
    (hdrop : dropMeaningless keepsFirst body.reverse = s :: above) :
    (spell (dropMeaningless keepsFirst above).reverse).length < (spell body).length := by
  have hs : s ≠ [] := ne_nil_of_dropMeaningless (by simpa using hfirst) hdrop
  obtain ⟨dropped, hdropped⟩ := dropMeaningless_suffix keepsFirst body.reverse
  obtain ⟨skipped, hskipped⟩ := dropMeaningless_suffix keepsFirst above
  have hbody : body = (dropMeaningless keepsFirst above).reverse ++
      (skipped.reverse ++ s :: dropped.reverse) := by
    rw [hdrop, ← hskipped] at hdropped
    simpa using (congrArg List.reverse hdropped).symm
  rw [congrArg spell hbody]
  exact length_spell_lt (by simp) hs

/-- A parent is spelled with fewer bytes, so that the way up ends. -/
theorem length_parent?_lt {p q : Path} (hparent : p.parent? = some q) :
    q.bytes.length < p.bytes.length := by
  obtain ⟨bytes⟩ := p
  by_cases habsolute : isAbsolute ⟨bytes⟩ = true
  · obtain ⟨rest, rfl⟩ : ∃ rest, bytes = slash :: rest := by
      rw [isAbsolute, beq_iff_eq, List.head?_eq_some_iff] at habsolute
      exact habsolute
    have hbody : (segments (slash :: rest)).tail = segments rest := rfl
    simp only [parent?, habsolute, if_true, Bool.not_true, Bool.false_and, hbody] at hparent
    split at hparent
    · cases hparent
    · rename_i s above hdrop
      have hlt := length_spell_above_lt (by simp) hdrop
      rw [spell_segments_eq] at hlt
      obtain rfl := Option.some.inj hparent
      simpa using hlt
  · simp only [parent?, habsolute, if_false, Bool.not_false, Bool.true_and, Bool.false_eq_true]
      at hparent
    split at hparent
    · cases hparent
    · rename_i s above hdrop
      have hlt := length_spell_above_lt (by simp [startsHere]) hdrop
      rw [spell_segments_eq] at hlt
      obtain rfl := Option.some.inj hparent
      exact hlt

private theorem ancestorsUpTo_eq_cons {p : Path} {limit : Nat} (hlimit : p.bytes.length ≤ limit) :
    ancestorsUpTo limit p = p :: (p.parent?.map (ancestorsUpTo (limit - 1))).getD [] := by
  cases limit with
  | zero =>
    have htop : p.parent? = none := by
      rw [Option.eq_none_iff_forall_ne_some]
      intro q hq
      have hlt := length_parent?_lt hq
      omega
    simp [ancestorsUpTo, htop]
  | succ limit =>
    rw [ancestorsUpTo]
    cases p.parent? <;> rfl

private theorem ancestorsUpTo_eq_of_le
    {p : Path} {limit limit' : Nat} (hlimit : p.bytes.length ≤ limit)
    (hlimit' : p.bytes.length ≤ limit') : ancestorsUpTo limit p = ancestorsUpTo limit' p := by
  induction limit generalizing limit' p with
  | zero =>
    obtain ⟨bytes⟩ := p
    obtain rfl := List.eq_nil_of_length_eq_zero (Nat.le_zero.mp hlimit)
    cases limit' <;> rfl
  | succ limit ih =>
    rw [ancestorsUpTo_eq_cons hlimit, ancestorsUpTo_eq_cons hlimit']
    cases hparent : p.parent? with
    | none => rfl
    | some q =>
      have hlt := length_parent?_lt hparent
      have hq : ancestorsUpTo limit q = ancestorsUpTo (limit' - 1) q := ih (by omega) (by omega)
      simp [hq]

/-- The limit never cuts the way up short. -/
theorem ancestors_eq_cons (p : Path) :
    p.ancestors = p :: (p.parent?.map ancestors).getD [] := by
  rw [ancestors, ancestorsUpTo_eq_cons (Nat.le_refl _)]
  cases hparent : p.parent? with
  | none => rfl
  | some q =>
    have hlt := length_parent?_lt hparent
    have hq : ancestorsUpTo (p.bytes.length - 1) q = q.ancestors :=
      ancestorsUpTo_eq_of_le (by omega) (Nat.le_refl _)
    simp [hq]

/-- The way up from a path whose segments all count drops them one by one from the end. -/
theorem mem_ancestors_spelled {absolute : Bool} {pieces : List Bytes}
    (hpieces : ∀ s ∈ pieces, Meaningful s) {q : Path} :
    q ∈ (spelled absolute pieces).ancestors ↔ ∃ front, front <+: pieces ∧ q = spelled absolute front := by
  induction pieces using List.reverseRecOn with
  | nil =>
    have halone : (spelled absolute []).ancestors = [spelled absolute []] := by
      cases absolute <;> rfl
    simp [halone]
  | append_singleton pieces s ih =>
    have hfront : ∀ k ∈ pieces, Meaningful k := fun k hk => hpieces k (List.mem_append_left _ hk)
    rw [ancestors_eq_cons, parent?_spelled absolute hpieces, Option.map_some, Option.getD_some,
      List.mem_cons, ih hfront]
    simp [List.prefix_concat_iff, or_and_right, exists_or]

/-- A spelled path has a directory above it if it has a segment. -/
theorem isSome_parent?_spelled {absolute : Bool} {pieces : List Bytes}
    (hpieces : ∀ s ∈ pieces, Meaningful s) :
    (spelled absolute pieces).parent?.isSome = true ↔ pieces ≠ [] := by
  rcases List.eq_nil_or_concat pieces with rfl | ⟨front, s, rfl⟩
  · cases absolute <;> decide
  · rw [List.concat_eq_append] at hpieces ⊢
    simp [parent?_spelled absolute hpieces]

/-- Without segments, what is left is `/` or the empty path. -/
theorem spelled_eq_top_iff {absolute : Bool} {pieces : List Bytes}
    (hpieces : ∀ s ∈ pieces, Meaningful s) :
    (spelled absolute pieces = rootDirectory ∨ spelled absolute pieces = ⟨[]⟩) ↔ pieces = [] := by
  constructor
  · intro htop
    by_contra hne
    have hspelled := spell_ne_nil hne hpieces
    have habsolute := isAbsolute_spelled absolute hpieces
    rcases htop with htop | htop
    · rw [htop] at habsolute
      obtain rfl : true = absolute := habsolute
      simp [spelled, rootDirectory, hspelled] at htop
    · cases absolute <;> simp [spelled, hspelled] at htop
  · rintro rfl
    cases absolute
    · exact .inr rfl
    · exact .inl rfl

end Path
end TrustedRoot
