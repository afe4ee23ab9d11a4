import Mathlib.Data.List.Nodup
/-!
# LastWrite — a map filled in the order of a list

`insert` forgets what the key held, so after a list of inserts a key holds the last row of the list that has the key, or
what it held before (`lookup_insertAll`).
-/
namespace LastWrite

variable {α κ : Type}

/-- Every key once, and with it a row that has the key. -/
structure Keyed (key : α → κ) (m : List (κ × α)) : Prop where
  nodup : (m.map Prod.fst).Nodup
  key : ∀ e ∈ m, key e.2 = e.1

theorem keyed_nil (key : α → κ) : Keyed key [] := ⟨List.nodup_nil, fun _ h => absurd h List.not_mem_nil⟩

theorem Keyed.map_values {key : α → κ} {m : List (κ × α)} (h : Keyed key m) :
    (m.map Prod.snd).map key = m.map Prod.fst := by
  rw [List.map_map]
  exact List.map_congr_left (fun e he => h.key e he)

variable [DecidableEq κ]

def insert (k : κ) (a : α) (m : List (κ × α)) : List (κ × α) := (k, a) :: m.filter (fun e => decide (e.1 ≠ k))

def insertAll (key : α → κ) (l : List α) (m : List (κ × α)) : List (κ × α) :=
  l.foldl (fun m a => insert (key a) a m) m

theorem lookup_filter (k k' : κ) (hk : k' ≠ k) : ∀ (m : List (κ × α)),
    (m.filter (fun e => decide (e.1 ≠ k))).lookup k' = m.lookup k'
  | [] => rfl
  | (k₀, a) :: m => by
    rw [List.filter_cons, List.lookup_cons]
    by_cases h : k₀ = k
    · rw [if_neg (by simpa using h), lookup_filter k k' hk m, h, beq_false_of_ne hk]
    · rw [if_pos (by simpa using h), List.lookup_cons, lookup_filter k k' hk m]

theorem lookup_insert (k k' : κ) (a : α) (m : List (κ × α)) :
    (insert k a m).lookup k' = if k' = k then some a else m.lookup k' := by
  unfold insert
  rw [List.lookup_cons]
  by_cases h : k' = k
  · rw [h, beq_self_eq_true, if_pos rfl]
  · rw [beq_false_of_ne h, if_neg h]
    exact lookup_filter k k' h m

/-- **A key holds the last row of the list that has it**, or what it held before. -/
theorem lookup_insertAll (key : α → κ) (k : κ) : ∀ (l : List α) (m : List (κ × α)),
    (insertAll key l m).lookup k = (l.filter (fun a => decide (key a = k))).getLast?.or (m.lookup k)
  | [], m => rfl
  | a :: l, m => by
    have ih := lookup_insertAll key k l (insert (key a) a m)
    rw [lookup_insert] at ih
    rw [insertAll, List.foldl_cons]
    refine ih.trans ?_
    rw [List.filter_cons]
    by_cases h : key a = k
    · rw [if_pos h.symm, if_pos (decide_eq_true h), List.getLast?_cons]
      cases (l.filter (fun a => decide (key a = k))).getLast? <;> rfl
    · rw [if_neg (Ne.symm h), if_neg (by simpa using h)]

theorem Keyed.insert {key : α → κ} {m : List (κ × α)} (h : Keyed key m) (a : α) : Keyed key (insert (key a) a m) where
  nodup := by
    rw [LastWrite.insert, List.map_cons, List.nodup_cons]
    refine ⟨fun hmem => ?_, h.nodup.sublist (List.filter_sublist.map _)⟩
    obtain ⟨e, he, hk⟩ := List.mem_map.1 hmem
    exact of_decide_eq_true (List.mem_filter.1 he).2 hk
  key := fun e he => by
    rcases List.mem_cons.1 he with rfl | he
    · rfl
    · exact h.key e (List.mem_of_mem_filter he)

theorem Keyed.insertAll {key : α → κ} : ∀ (l : List α) {m : List (κ × α)}, Keyed key m → Keyed key (insertAll key l m)
  | [], _, h => h
  | a :: l, _, h => Keyed.insertAll l (h.insert a)

theorem Keyed.lookup_eq_some {key : α → κ} (k : κ) (a : α) : ∀ {m : List (κ × α)}, Keyed key m →
    (m.lookup k = some a ↔ (k, a) ∈ m)
  | [], _ => by simp
  | (k₀, b) :: m, h => by
    obtain ⟨hnew, hrest⟩ := List.nodup_cons.1 h.nodup
    have ih := Keyed.lookup_eq_some k a ⟨hrest, fun e he => h.key e (List.mem_cons_of_mem _ he)⟩
    rw [List.lookup_cons, List.mem_cons]
    by_cases hk : k = k₀
    · subst hk
      rw [beq_self_eq_true]
      simp only [Option.some.injEq, Prod.mk.injEq, true_and]
      refine ⟨fun h => .inl h.symm, ?_⟩
      rintro (rfl | hmem)
      · rfl
      · exact absurd (List.mem_map_of_mem (f := Prod.fst) hmem) hnew
    · rw [beq_false_of_ne hk]
      simp only [Prod.mk.injEq, hk, false_and, false_or]
      exact ih

/-- The values of the map are what its keys hold. -/
theorem Keyed.mem_values {key : α → κ} {m : List (κ × α)} (h : Keyed key m) (a : α) :
    a ∈ m.map Prod.snd ↔ m.lookup (key a) = some a := by
  rw [h.lookup_eq_some, List.mem_map]
  constructor
  · rintro ⟨e, he, rfl⟩
    rw [h.key e he]
    exact he
  · exact fun ha => ⟨_, ha, rfl⟩

end LastWrite
