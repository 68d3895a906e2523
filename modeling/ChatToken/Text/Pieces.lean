/-! # Pieces of a text

A text that is cut at every separator. No separator is left in the pieces, of which there is one
more than there are separators, and with a separator behind each they are the text again.
-/
namespace ChatToken.Text

variable {α : Type}

section Separator

variable [DecidableEq α] {sep : α} {xs piece : List α}

theorem length_splitOn (sep : α) (xs : List α) :
    (xs.splitOn sep).length = xs.count sep + 1 := by
  induction xs with
  | nil => rfl
  | cons x xs ih =>
    rw [List.splitOn_cons_eq_if_modifyHead]
    by_cases hx : x = sep <;> simp [hx, ih]

theorem not_mem_of_mem_splitOn (h : piece ∈ xs.splitOn sep) : sep ∉ piece := by
  induction xs generalizing piece with
  | nil =>
    rw [List.splitOn_nil, List.mem_singleton] at h
    simp [h]
  | cons x xs ih =>
    obtain ⟨first,rest,hxs⟩ := List.exists_cons_of_ne_nil (List.splitOn_ne_nil sep xs)
    rw [List.splitOn_cons_eq_if_modifyHead] at h
    by_cases hx : x = sep
    · rw [if_pos (beq_iff_eq.mpr hx), List.mem_cons] at h
      rcases h with rfl | h
      · exact List.not_mem_nil
      · exact ih h
    · rw [if_neg (mt beq_iff_eq.mp hx), hxs, List.modifyHead_cons, List.mem_cons] at h
      rw [hxs] at ih
      rcases h with rfl | h
      · intro hmem
        rcases List.mem_cons.mp hmem with rfl | hmem
        · exact hx rfl
        · exact ih List.mem_cons_self hmem
      · exact ih (List.mem_cons_of_mem _ h)

theorem flatMap_splitOn (sep : α) (xs : List α) :
    (xs.splitOn sep).flatMap (· ++ [sep]) = xs ++ [sep] := by
  induction xs with
  | nil => rfl
  | cons x xs ih =>
    obtain ⟨first,rest,hxs⟩ := List.exists_cons_of_ne_nil (List.splitOn_ne_nil sep xs)
    rw [hxs] at ih
    rw [List.splitOn_cons_eq_if_modifyHead, hxs]
    by_cases hx : x = sep
    · simpa [hx] using ih
    · simpa [hx] using ih

end Separator

end ChatToken.Text
