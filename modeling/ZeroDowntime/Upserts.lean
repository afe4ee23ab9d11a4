import Mathlib.Data.List.Nodup
/-!
# Upserts — INSERT … ON CONFLICT DO UPDATE on a list of rows

A row that has the new row's key is refreshed in place; otherwise the new row goes to the end.  `refresh` leaves the key
as it is, so the keys only ever grow, and rows with another key are not touched.
-/
namespace Upserts

variable {α κ : Type} [DecidableEq κ] (key : α → κ)

def lookup (k : κ) (rows : List α) : Option α := rows.find? (fun r => decide (key r = k))

def upsert (refresh : α → α) (new : α) (rows : List α) : List α :=
  if key new ∈ rows.map key then rows.map (fun r => if key r = key new then refresh r else r) else rows ++ [new]

variable {key} {refresh : α → α}

theorem lookup_eq_none (k : κ) (rows : List α) : lookup key k rows = none ↔ k ∉ rows.map key := by
  unfold lookup
  rw [List.find?_eq_none, List.mem_map]
  constructor
  · rintro h ⟨r, hr, rfl⟩
    exact h r hr (by simp)
  · rintro h r hr he
    exact h ⟨r, hr, of_decide_eq_true he⟩

theorem lookup_eq_some (rows : List α) (hnd : (rows.map key).Nodup) (k : κ) (r : α) :
    lookup key k rows = some r ↔ r ∈ rows ∧ key r = k := by
  constructor
  · intro h
    exact ⟨List.mem_of_find?_eq_some h, of_decide_eq_true (List.find?_some (p := fun r => decide (key r = k)) h)⟩
  · rintro ⟨hr, rfl⟩
    cases hf : lookup key (key r) rows with
    | none => exact absurd (List.mem_map_of_mem hr) ((lookup_eq_none _ _).1 hf)
    | some r' =>
      have he : key r' = key r := of_decide_eq_true (List.find?_some (p := fun x => decide (key x = key r)) hf)
      rw [List.inj_on_of_nodup_map hnd (List.mem_of_find?_eq_some hf) hr he]

/-- A column that `refresh` leaves as it is. -/
theorem map_refresh {β : Type} (f : α → β) (hf : ∀ r, f (refresh r) = f r) (k : κ) (rows : List α) :
    (rows.map (fun r => if key r = k then refresh r else r)).map f = rows.map f := by
  rw [List.map_map]
  refine List.map_congr_left (fun r _ => ?_)
  show f (if key r = k then refresh r else r) = f r
  split
  · exact hf r
  · rfl

theorem mem_keys_upsert (hk : ∀ r, key (refresh r) = key r) (new : α) (rows : List α) (k : κ) :
    k ∈ (upsert key refresh new rows).map key ↔ k ∈ rows.map key ∨ k = key new := by
  unfold upsert
  split
  · rename_i h
    rw [map_refresh key hk]
    constructor
    · exact .inl
    · rintro (hm | rfl)
      · exact hm
      · exact h
  · simp

theorem nodup_upsert (hk : ∀ r, key (refresh r) = key r) (new : α) (rows : List α) (hnd : (rows.map key).Nodup) :
    ((upsert key refresh new rows).map key).Nodup := by
  unfold upsert
  split
  · rwa [map_refresh key hk]
  · rename_i h
    rw [List.map_append, List.nodup_append]
    refine ⟨hnd, List.nodup_singleton _, ?_⟩
    rintro a ha b hb rfl
    exact h (List.mem_singleton.1 hb ▸ ha)

/-- What holds of all rows and of the new one, and survives a refresh, holds of all rows afterwards. -/
theorem forall_upsert {P : α → Prop} (hr : ∀ r, P r → P (refresh r)) (new : α) (hnew : P new) (rows : List α)
    (h : ∀ r ∈ rows, P r) : ∀ r ∈ upsert key refresh new rows, P r := by
  intro r hm
  unfold upsert at hm
  split at hm
  · obtain ⟨r', hr', rfl⟩ := List.mem_map.1 hm
    split
    · exact hr r' (h r' hr')
    · exact h r' hr'
  · rcases List.mem_append.1 hm with hm | hm
    · exact h r hm
    · exact List.mem_singleton.1 hm ▸ hnew

/-- **Rows whose keys are not the new row's stay as they are, in their order.** -/
theorem filter_upsert (hk : ∀ r, key (refresh r) = key r) (new : α) (rows : List α) (p : κ → Bool)
    (hp : p (key new) = false) :
    (upsert key refresh new rows).filter (fun r => p (key r)) = rows.filter (fun r => p (key r)) := by
  unfold upsert
  split
  · rw [List.filter_map]
    have hcomp : (fun r => p (key r)) ∘ (fun r => if key r = key new then refresh r else r) = fun r => p (key r) := by
      funext r
      show p (key (if key r = key new then refresh r else r)) = p (key r)
      split
      · rw [hk]
      · rfl
    rw [hcomp]
    refine (List.map_congr_left (fun r hr => ?_)).trans (List.map_id _)
    refine if_neg (fun he => ?_)
    rw [List.mem_filter, he, hp] at hr
    exact Bool.false_ne_true hr.2
  · rw [List.filter_append, List.filter_singleton, hp]
    simp

theorem lookup_refresh (hk : ∀ r, key (refresh r) = key r) (k k' : κ) : ∀ (rows : List α),
    lookup key k (rows.map (fun r => if key r = k' then refresh r else r)) =
      if k = k' then (lookup key k rows).map refresh else lookup key k rows
  | [] => by simp [lookup]
  | r :: rows => by
    have ih := lookup_refresh hk k k' rows
    unfold lookup at ih ⊢
    have hkey : key (if key r = k' then refresh r else r) = key r := by
      split
      · exact hk r
      · rfl
    rw [List.map_cons, List.find?_cons, List.find?_cons, hkey, ih]
    by_cases h : key r = k
    · subst h
      by_cases h' : key r = k' <;> simp [h']
    · simp [h]

/-- **The row of a key after an upsert.** -/
theorem lookup_upsert (hk : ∀ r, key (refresh r) = key r) (new : α) (rows : List α) (k : κ) :
    lookup key k (upsert key refresh new rows) =
      if k = key new then some (((lookup key k rows).map refresh).getD new) else lookup key k rows := by
  unfold upsert
  split
  · rename_i hm
    rw [lookup_refresh hk]
    split
    · rename_i hkn
      subst hkn
      cases hl : lookup key (key new) rows with
      | none => exact absurd hm ((lookup_eq_none _ _).1 hl)
      | some r => rfl
    · rfl
  · rename_i hm
    unfold lookup
    rw [List.find?_append]
    split
    · rename_i hkn
      subst hkn
      rw [show rows.find? (fun r => decide (key r = key new)) = none from (lookup_eq_none _ _).2 hm]
      simp
    · rename_i hkn
      simp [Ne.symm hkn]

end Upserts
