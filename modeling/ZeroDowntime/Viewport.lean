import Mathlib.Data.List.DropRight
/-!
# Viewport — a window on rows that are rendered from the last block backwards

A window of `height` rows that ends `scroll` rows above the bottom is the same on the rows of all blocks as on those of the
last blocks alone, once these are `height + scroll` (`window_gather`).  Where they are not, all blocks have been rendered.
-/
namespace Viewport

variable {α β : Type}

/-- Renders blocks, the last one first, until there are `need` rows. -/
def gather (render : α → List β) (need : Nat) : List α → List β → List β
  | [], rows => rows
  | a :: blocks, rows =>
    if need ≤ (render a ++ rows).length then render a ++ rows else gather render need blocks (render a ++ rows)

/-- The scroll offset that leaves `height` rows, if there are as many. -/
def clamp (height scroll : Nat) (rows : List β) : Nat := min scroll (rows.length - height)

/-- The last `height` of the rows that end `scroll` rows above the bottom. -/
def window (height scroll : Nat) (rows : List β) : List β := (rows.rdrop scroll).rtake height

/-- What is gathered are the last rows: all of them, or as many as are needed. -/
theorem gather_suffix (render : α → List β) (need : Nat) : ∀ (blocks : List α) (rows : List β),
    ∃ pre, blocks.reverse.flatMap render ++ rows = pre ++ gather render need blocks rows ∧
      (pre = [] ∨ need ≤ (gather render need blocks rows).length)
  | [], rows => ⟨[], rfl, .inl rfl⟩
  | a :: blocks, rows => by
    rw [List.reverse_cons, List.flatMap_append, List.flatMap_singleton, List.append_assoc, gather]
    split
    · rename_i h
      exact ⟨blocks.reverse.flatMap render, rfl, .inr h⟩
    · exact gather_suffix render need blocks (render a ++ rows)

theorem rdrop_append_of_le (pre rows : List β) (n : Nat) (h : n ≤ rows.length) :
    (pre ++ rows).rdrop n = pre ++ rows.rdrop n := by
  rw [List.rdrop, List.rdrop, List.length_append, Nat.add_sub_assoc h, List.take_append,
    List.take_of_length_le (Nat.le_add_right _ _), Nat.add_sub_cancel_left]

theorem rtake_append_of_le (pre rows : List β) (n : Nat) (h : n ≤ rows.length) : (pre ++ rows).rtake n = rows.rtake n := by
  rw [List.rtake, List.rtake, List.length_append, Nat.add_sub_assoc h, List.drop_append,
    List.drop_of_length_le (Nat.le_add_right _ _), Nat.add_sub_cancel_left, List.nil_append]

/-- Of the last rows and one more, the last ones are those of all rows and one more. -/
theorem rtake_concat (rows : List β) (b : β) (n : Nat) : (rows.rtake n ++ [b]).rtake n = (rows ++ [b]).rtake n := by
  by_cases h : n ≤ rows.length
  · have hlen : (rows.rtake n).length = n := by
      rw [List.rtake, List.length_drop]
      omega
    have hrows : rows.take (rows.length - n) ++ rows.rtake n = rows := List.take_append_drop _ _
    have hle : n ≤ (rows.rtake n ++ [b]).length := by
      rw [List.length_append, hlen]
      exact Nat.le_add_right _ _
    conv => rhs; rw [← hrows, List.append_assoc]
    exact (rtake_append_of_le _ _ n hle).symm
  · have hall : rows.rtake n = rows := by
      rw [List.rtake, Nat.sub_eq_zero_of_le (Nat.le_of_not_le h), List.drop_zero]
    rw [hall]

theorem window_append (pre rows : List β) (height scroll : Nat) (h : height + scroll ≤ rows.length) :
    window height scroll (pre ++ rows) = window height scroll rows := by
  have hlen : (rows.rdrop scroll).length = rows.length - scroll := by
    rw [List.rdrop, List.length_take]
    omega
  rw [window, window, rdrop_append_of_le _ _ _ (by omega), rtake_append_of_le _ _ _ (by omega)]

theorem clamp_of_le (rows : List β) (height scroll : Nat) (h : height + scroll ≤ rows.length) :
    clamp height scroll rows = scroll :=
  Nat.min_eq_left (by omega)

/-- **The early exit is not seen**: clamped offset and window are those of all rows, if as many rows are needed as the
window and the offset ask for, or more than there are. -/
theorem window_gather (render : α → List β) (need height scroll : Nat) (blocks : List α)
    (hneed : height + scroll ≤ need ∨ (blocks.flatMap render).length < need) :
    clamp height scroll (gather render need blocks.reverse []) = clamp height scroll (blocks.flatMap render) ∧
      window height (clamp height scroll (blocks.flatMap render)) (gather render need blocks.reverse []) =
        window height (clamp height scroll (blocks.flatMap render)) (blocks.flatMap render) := by
  obtain ⟨pre, hfull, hstop⟩ := gather_suffix render need blocks.reverse []
  rw [List.reverse_reverse, List.append_nil] at hfull
  generalize gather render need blocks.reverse [] = rows at hfull hstop
  rw [hfull] at hneed ⊢
  rcases hstop with rfl | hstop
  · exact ⟨rfl, rfl⟩
  · -- it stopped early, with all rows the window and the offset ask for
    have hle : height + scroll ≤ rows.length := by
      rcases hneed with h | h
      · omega
      · rw [List.length_append] at h
        omega
    have hclamp : clamp height scroll (pre ++ rows) = scroll :=
      clamp_of_le _ _ _ (by rw [List.length_append]; omega)
    rw [hclamp, clamp_of_le rows height scroll hle, window_append pre rows height scroll hle]
    exact ⟨rfl, rfl⟩

end Viewport
