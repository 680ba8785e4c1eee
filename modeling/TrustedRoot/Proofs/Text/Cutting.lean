import Mathlib
import TrustedRoot.Text.Blank
import TrustedRoot.Text.Split

namespace TrustedRoot

namespace Split

variable {α : Type} [DecidableEq α] {separator : α} {xs before after : List α}

/-- Cutting is that of the library. -/
theorem splitOn_eq_list_splitOn (separator : α) (xs : List α) :
    splitOn separator xs = xs.splitOn separator := by
  induction xs with
  | nil => rfl
  | cons a rest ih =>
    obtain ⟨piece, more, hpieces⟩ := List.exists_cons_of_ne_nil (List.splitOn_ne_nil separator rest)
    by_cases ha : a = separator
    · simp [splitOn, ih, List.splitOn_cons_eq_if_modifyHead, ha]
    · simp [splitOn, ih, List.splitOn_cons_eq_if_modifyHead, ha, hpieces]

/-- There is always a piece. -/
theorem splitOn_ne_nil (separator : α) (xs : List α) : splitOn separator xs ≠ [] := by
  rw [splitOn_eq_list_splitOn]
  exact List.splitOn_ne_nil separator xs

/-- Cutting at a separator that stands somewhere in a list cuts both sides on their own. -/
theorem splitOn_append (separator : α) (xs ys : List α) :
    splitOn separator (xs ++ separator :: ys) = splitOn separator xs ++ splitOn separator ys := by
  simp only [splitOn_eq_list_splitOn, List.splitOn_append_cons_self]

/-- The pieces of a text give it back, joined by what it was cut at. -/
theorem intercalate_splitOn (separator : α) (xs : List α) :
    [separator].intercalate (splitOn separator xs) = xs := by
  rw [splitOn_eq_list_splitOn, List.intercalate_splitOn]

/-- A text that was joined is cut into the pieces it was joined from. -/
theorem splitOn_intercalate {pieces : List (List α)} (hne : pieces ≠ [])
    (hpieces : ∀ piece ∈ pieces, separator ∉ piece) :
    splitOn separator ([separator].intercalate pieces) = pieces := by
  rw [splitOn_eq_list_splitOn, List.splitOn_intercalate separator hpieces hne]

/-- No piece holds what the text was cut at. -/
theorem not_mem_of_mem_splitOn {piece : List α}
    (hpiece : piece ∈ splitOn separator xs) : separator ∉ piece := by
  induction xs generalizing piece with
  | nil =>
    obtain rfl : piece = [] := by simpa [splitOn] using hpiece
    exact List.not_mem_nil
  | cons a rest ih =>
    obtain ⟨first, more, hpieces⟩ := List.exists_cons_of_ne_nil (splitOn_ne_nil separator rest)
    by_cases ha : a = separator
    · rw [splitOn, if_pos ha] at hpiece
      rcases List.mem_cons.mp hpiece with rfl | hpiece
      · exact List.not_mem_nil
      · exact ih hpiece
    · rw [splitOn, if_neg ha, hpieces] at hpiece
      rcases List.mem_cons.mp hpiece with rfl | hpiece
      · have hfirst := ih (hpieces ▸ List.mem_cons_self)
        simpa using ⟨Ne.symm ha, hfirst⟩
      · exact ih (hpieces ▸ List.mem_cons_of_mem _ hpiece)

/-- A text is cut at the first separator. -/
theorem splitFirst_append (after : List α) (hbefore : separator ∉ before) :
    splitFirst separator (before ++ separator :: after) = some (before, after) := by
  induction before with
  | nil => simp [splitFirst]
  | cons a rest ih =>
    obtain ⟨ha, hrest⟩ := List.ne_and_not_mem_of_not_mem_cons hbefore
    rw [List.cons_append, splitFirst, if_neg ha.symm, ih hrest]
    rfl

theorem splitFirst_eq_none (hxs : separator ∉ xs) : splitFirst separator xs = none := by
  induction xs with
  | nil => rfl
  | cons a rest ih =>
    obtain ⟨ha, hrest⟩ := List.ne_and_not_mem_of_not_mem_cons hxs
    rw [splitFirst, if_neg ha.symm, ih hrest]
    rfl

end Split

namespace Blank

variable {text front back before after : List Char} {c : Char}

private theorem isAllBlank_iff : isAllBlank text = true ↔ ∀ c ∈ text, isBlank c = true :=
  List.all_eq_true

private theorem trimFront_append_cons (before after : List Char) (hc : isBlank c = false) :
    trimFront (before ++ c :: after) = trimFront before ++ c :: after := by
  rw [trimFront, List.dropWhile_append, List.dropWhile_cons_of_neg (by simp [hc])]
  split_ifs with hblank
  · rw [trimFront, List.isEmpty_iff.mp hblank, List.nil_append]
  · rfl

private theorem trimBack_append_cons (before after : List Char) (hc : isBlank c = false) :
    trimBack (before ++ c :: after) = before ++ c :: trimBack after := by
  have hmirrored := trimFront_append_cons after.reverse before.reverse hc
  simp only [trimFront] at hmirrored
  simp [trimBack, hmirrored]

/-- What is not blank keeps the blanks on its two sides apart. -/
theorem trim_append_cons (hc : isBlank c = false) :
    trim (before ++ c :: after) = trimFront before ++ c :: trimBack after := by
  rw [trim, trimFront_append_cons _ _ hc, trimBack_append_cons _ _ hc]

private theorem trimBack_append (hback : isAllBlank back = true) :
    trimBack (text ++ back) = trimBack text := by
  have hreverse : ∀ c ∈ back.reverse, isBlank c = true := by
    simpa using isAllBlank_iff.mp hback
  rw [trimBack, trimBack, List.reverse_append, List.dropWhile_append_of_pos hreverse]

/-- Blanks behind a text are cut off. -/
theorem trim_append (text : List Char) (hback : isAllBlank back = true) :
    trim (text ++ back) = trim text := by
  rw [trim, trim, trimFront, trimFront, List.dropWhile_append]
  split_ifs with hblank
  · rw [List.isEmpty_iff.mp hblank, List.dropWhile_eq_nil_iff.mpr (isAllBlank_iff.mp hback)]
  · exact trimBack_append hback

/-- Blanks in front of a text are cut off. -/
theorem trim_append_left (text : List Char) (hfront : isAllBlank front = true) :
    trim (front ++ text) = trim text := by
  rw [trim, trim, trimFront, trimFront, List.dropWhile_append_of_pos (isAllBlank_iff.mp hfront)]

/-- Blanks around a text are cut off. -/
theorem trim_padded (hfront : isAllBlank front = true) (hback : isAllBlank back = true)
    (text : List Char) : trim (front ++ text ++ back) = trim text := by
  rw [trim_append _ hback, trim_append_left _ hfront]

/-- A blank text holds no other character. -/
theorem not_mem_of_isAllBlank (hc : isBlank c = false) (htext : isAllBlank text = true) :
    c ∉ text := by
  intro hmem
  rw [isAllBlank_iff.mp htext c hmem] at hc
  cases hc

private theorem exists_eq_append_trimFront (text : List Char) :
    ∃ front, isAllBlank front = true ∧ text = front ++ trimFront text :=
  ⟨text.takeWhile isBlank, List.all_takeWhile, List.takeWhile_append_dropWhile.symm⟩

private theorem exists_eq_trimBack_append (text : List Char) :
    ∃ back, isAllBlank back = true ∧ text = trimBack text ++ back := by
  obtain ⟨front, hfront, hsplit⟩ := exists_eq_append_trimFront text.reverse
  refine ⟨front.reverse, by simpa [isAllBlank] using hfront, ?_⟩
  rw [trimBack, ← List.reverse_append, ← trimFront, ← hsplit, List.reverse_reverse]

theorem mem_of_mem_trimFront (hc : c ∈ trimFront text) : c ∈ text :=
  (List.dropWhile_suffix isBlank).subset hc

theorem mem_of_mem_trim (hc : c ∈ trim text) : c ∈ text :=
  mem_of_mem_trimFront ((List.rdropWhile_prefix isBlank (trimFront text)).subset hc)

/-- Blanks that were cut off in front are not missed. -/
theorem trim_trimFront (text : List Char) : trim (trimFront text) = trim text := by
  obtain ⟨front, hfront, hsplit⟩ := exists_eq_append_trimFront text
  rw [← trim_append_left _ hfront, ← hsplit]

/-- Blanks that were cut off at the end before would be cut off anyway. -/
theorem trim_trimBack (text : List Char) : trim (trimBack text) = trim text := by
  obtain ⟨back, hback, hsplit⟩ := exists_eq_trimBack_append text
  rw [← trim_append _ hback, ← hsplit]

/-- A text is cut down to nothing if it is blank. -/
theorem trim_eq_nil_iff : trim text = [] ↔ isAllBlank text = true := by
  constructor
  · intro hnil
    obtain ⟨front, hfront, hsplit⟩ := exists_eq_append_trimFront text
    obtain ⟨back, hback, hrest⟩ := exists_eq_trimBack_append (trimFront text)
    rw [trim] at hnil
    rw [hsplit, hrest, hnil, List.nil_append, isAllBlank, List.all_append, Bool.and_eq_true]
    exact ⟨hfront, hback⟩
  · intro hblank
    exact trim_append [] hblank

end Blank
end TrustedRoot
