import Mathlib.Data.List.Basic
/-!
# Arrivals — lists in the order things came, each known by its place

What is in the list keeps its place when more comes or something changes.
-/
namespace Arrivals

variable {α β : Type}

theorem getElem?_set (items : List α) (i j : Nat) (old new : α) (hi : items[i]? = some old) :
    (items.set i new)[j]? = if i = j then some new else items[j]? := by
  have hlt := (List.getElem?_eq_some_iff.1 hi).1
  rw [List.getElem?_set]
  simp [hlt]

theorem getElem?_concat (items : List α) (new : α) (i : Nat) (a : α) (h : items[i]? = some a) :
    (items ++ [new])[i]? = some a := by
  rw [List.getElem?_append_left (List.getElem?_eq_some_iff.1 h).1, h]

theorem set_last (items : List α) (old new : α) : (items ++ [old]).set items.length new = items ++ [new] := by
  rw [List.set_append_right _ _ (Nat.le_refl _), Nat.sub_self, List.set_cons_zero]

/-- What is found after something came is that, in the last place, or was there before. -/
theorem of_concat {items : List α} {new a : α} {i : Nat} (h : (items ++ [new])[i]? = some a) :
    items[i]? = some a ∨ i = items.length ∧ a = new := by
  by_cases hlt : i < items.length
  · exact .inl (by rwa [List.getElem?_append_left hlt] at h)
  · have hle := Nat.le_of_not_lt hlt
    have hi := (List.getElem?_eq_some_iff.1 h).1
    rw [List.getElem?_append_right hle] at h
    rw [List.length_append, List.length_singleton] at hi
    exact .inr ⟨by omega, List.mem_singleton.1 (List.mem_of_getElem? h)⟩

/-- A change that `g` does not see. -/
theorem map_modify {f : α → α} {g : α → β} (h : ∀ a, g (f a) = g a) (items : List α) (i : Nat) :
    (items.modify i f).map g = items.map g := by
  refine List.ext_getElem? (fun j => ?_)
  rw [List.getElem?_map, List.getElem?_map, List.getElem?_modify]
  cases items[j]? with
  | none => rfl
  | some a =>
    by_cases hij : i = j
    · simp [hij, h]
    · simp [hij]

end Arrivals
