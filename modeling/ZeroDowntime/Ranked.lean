import Mathlib.Data.List.Sort
/-!
# Ranked — the first of each key in a list put in order

A query sorts its rows; its caller keeps the first row, or the first row of every key.  Either way a row is kept exactly
when it comes first of those it competes with (`head?_sorted`, `mem_keepFirst_sorted`).
-/
namespace Ranked

variable {α κ : Type}

/-- Of the rows of `l` that `p` selects, `x` comes first. -/
def First (r : α → α → Prop) (p : α → Prop) (l : List α) (x : α) : Prop := x ∈ l ∧ p x ∧ ∀ y ∈ l, p y → r x y

/-- Keep a row if its key has not been seen; a row without a key is dropped. -/
def keepFirst [DecidableEq κ] (key : α → Option κ) : List κ → List α → List α
  | _, [] => []
  | seen, a :: l =>
    match key a with
    | none => keepFirst key seen l
    | some k => if k ∈ seen then keepFirst key seen l else a :: keepFirst key (k :: seen) l

/-- An order that reads a list: it compares any two rows, and two rows of `l` only one way. -/
structure Reads (r : α → α → Prop) (l : List α) : Prop where
  total : ∀ a b, r a b ∨ r b a
  trans : ∀ a b c, r a b → r b c → r a c
  antisymm : ∀ a ∈ l, ∀ b ∈ l, r a b → r b a → a = b

theorem Reads.refl {r : α → α → Prop} {l : List α} (h : Reads r l) (a : α) : r a a := (h.total a a).elim id id

theorem Reads.sublist {r : α → α → Prop} {l l' : List α} (h : Reads r l) (hl : ∀ a ∈ l', a ∈ l) : Reads r l' :=
  ⟨h.total, h.trans, fun a ha b hb => h.antisymm a (hl a ha) b (hl b hb)⟩

theorem First.unique {r : α → α → Prop} {p : α → Prop} {l : List α} (h : Reads r l) {x y : α} (hx : First r p l x)
    (hy : First r p l y) : x = y :=
  h.antisymm x hx.1 y hy.1 (hx.2.2 y hy.1 hy.2.1) (hy.2.2 x hx.1 hx.2.1)

theorem first_congr {r : α → α → Prop} {p : α → Prop} {l l' : List α} (hl : ∀ a, a ∈ l ↔ a ∈ l') (x : α) :
    First r p l x ↔ First r p l' x := by
  unfold First
  simp only [hl]

theorem first_cons_of_not {r : α → α → Prop} {p : α → Prop} (a : α) (l : List α) (x : α) (ha : ¬ p a) :
    First r p (a :: l) x ↔ First r p l x := by
  constructor
  · rintro ⟨hx, hp, hall⟩
    rcases List.mem_cons.1 hx with rfl | hx
    · exact absurd hp ha
    · exact ⟨hx, hp, fun y hy => hall y (List.mem_cons_of_mem _ hy)⟩
  · rintro ⟨hx, hp, hall⟩
    refine ⟨List.mem_cons_of_mem _ hx, hp, fun y hy hpy => ?_⟩
    rcases List.mem_cons.1 hy with rfl | hy
    · exact absurd hpy ha
    · exact hall y hy hpy

theorem first_cons_iff {r : α → α → Prop} {p : α → Prop} (a : α) (l : List α) (x : α) (h : Reads r (a :: l))
    (hs : (a :: l).Pairwise r) (ha : p a) : First r p (a :: l) x ↔ x = a := by
  have hfirst : First r p (a :: l) a := by
    refine ⟨List.mem_cons_self, ha, fun y hy _ => ?_⟩
    rcases List.mem_cons.1 hy with rfl | hy
    · exact h.refl y
    · exact List.rel_of_pairwise_cons hs hy
  constructor
  · exact fun hx => hx.unique h hfirst
  · rintro rfl; exact hfirst

/-- **Of a sorted list, the rows kept are the first ones of their keys.** -/
theorem mem_keepFirst [DecidableEq κ] (key : α → Option κ) (r : α → α → Prop) (x : α) :
    ∀ (l : List α) (seen : List κ), l.Pairwise r → Reads r l →
      (x ∈ keepFirst key seen l ↔ ∃ k, key x = some k ∧ k ∉ seen ∧ First r (fun y => key y = some k) l x)
  | [], seen, _, _ => by simp [keepFirst, First]
  | a :: l, seen, hs, h => by
    have hl : Reads r l := h.sublist (fun _ => List.mem_cons_of_mem _)
    have ih := fun seen => mem_keepFirst key r x l seen hs.of_cons hl
    unfold keepFirst
    cases hk : key a with
    | none =>
      simp only [ih]
      refine exists_congr (fun k => and_congr_right (fun _ => and_congr_right (fun _ => ?_)))
      rw [first_cons_of_not a l x (by rw [hk]; simp)]
    | some k =>
      simp only
      by_cases hseen : k ∈ seen
      · rw [if_pos hseen, ih]
        refine exists_congr (fun k' => and_congr_right (fun _ => and_congr_right (fun hk' => ?_)))
        have hne : ¬ key a = some k' := by
          rw [hk, Option.some.injEq]; rintro rfl; exact hk' hseen
        rw [first_cons_of_not a l x hne]
      · rw [if_neg hseen, List.mem_cons, ih]
        constructor
        · rintro (rfl | ⟨k', hx, hk', hf⟩)
          · exact ⟨k, hk, hseen, (first_cons_iff x l x h hs hk).2 rfl⟩
          · have hne : k' ≠ k := fun he => hk' (he ▸ List.mem_cons_self)
            exact ⟨k', hx, fun hm => hk' (List.mem_cons_of_mem _ hm),
              (first_cons_of_not a l x (by rw [hk, Option.some.injEq]; exact hne.symm)).2 hf⟩
        · rintro ⟨k', hx, hk', hf⟩
          by_cases hkk : k' = k
          · subst hkk
            exact Or.inl ((first_cons_iff a l x h hs hk).1 hf)
          · refine Or.inr ⟨k', hx, ?_, (first_cons_of_not a l x (by rw [hk, Option.some.injEq]; exact Ne.symm hkk)).1 hf⟩
            simp [hkk, hk']

theorem exists_keepFirst [DecidableEq κ] (key : α → Option κ) (k : κ) : ∀ (l : List α) (seen : List κ), k ∉ seen →
    (∃ y ∈ l, key y = some k) → ∃ x ∈ keepFirst key seen l, key x = some k
  | [], _, _, h => by obtain ⟨_, hy, _⟩ := h; cases hy
  | a :: l, seen, hseen, ⟨y, hy, hk⟩ => by
    unfold keepFirst
    cases ha : key a with
    | none =>
      refine exists_keepFirst key k l seen hseen ⟨y, (List.mem_cons.1 hy).resolve_left ?_, hk⟩
      rintro rfl; rw [hk] at ha; cases ha
    | some k' =>
      simp only
      by_cases hkk : k' = k
      · subst hkk
        rw [if_neg hseen]
        exact ⟨a, List.mem_cons_self, ha⟩
      · have hyl : ∃ y ∈ l, key y = some k := by
          refine ⟨y, (List.mem_cons.1 hy).resolve_left ?_, hk⟩
          rintro rfl; rw [hk, Option.some.injEq] at ha; exact hkk ha.symm
        by_cases hm : k' ∈ seen
        · rw [if_pos hm]
          exact exists_keepFirst key k l seen hseen hyl
        · rw [if_neg hm]
          obtain ⟨x, hx, hxk⟩ := exists_keepFirst key k l (k' :: seen) (by simp [Ne.symm hkk, hseen]) hyl
          exact ⟨x, List.mem_cons_of_mem _ hx, hxk⟩

theorem keepFirst_sublist [DecidableEq κ] (key : α → Option κ) : ∀ (l : List α) (seen : List κ),
    (keepFirst key seen l).Sublist l
  | [], _ => List.Sublist.slnil
  | a :: l, seen => by
    unfold keepFirst
    split
    · exact (keepFirst_sublist key l seen).cons a
    · split
      · exact (keepFirst_sublist key l seen).cons a
      · exact (keepFirst_sublist key l _).cons_cons a

/-- **The rows kept have distinct keys**, and none that was seen before. -/
theorem nodup_keepFirst [DecidableEq κ] (key : α → Option κ) : ∀ (l : List α) (seen : List κ),
    ((keepFirst key seen l).filterMap key).Nodup ∧ ∀ k ∈ (keepFirst key seen l).filterMap key, k ∉ seen
  | [], _ => ⟨List.nodup_nil, fun _ hk => absurd hk List.not_mem_nil⟩
  | a :: l, seen => by
    unfold keepFirst
    cases ha : key a with
    | none => exact nodup_keepFirst key l seen
    | some k =>
      simp only
      by_cases hk : k ∈ seen
      · rw [if_pos hk]
        exact nodup_keepFirst key l seen
      · obtain ⟨hnodup, hnew⟩ := nodup_keepFirst key l (k :: seen)
        rw [if_neg hk, List.filterMap_cons_some ha]
        refine ⟨List.nodup_cons.2 ⟨fun hmem => hnew k hmem List.mem_cons_self, hnodup⟩, fun k' hk' => ?_⟩
        rcases List.mem_cons.1 hk' with rfl | hk'
        · exact hk
        · exact fun hseen => hnew k' hk' (List.mem_cons_of_mem _ hseen)

theorem keepFirst_congr [DecidableEq κ] (key key' : α → Option κ) : ∀ (l : List α) (seen : List κ),
    (∀ a ∈ l, key a = key' a) → keepFirst key seen l = keepFirst key' seen l
  | [], _, _ => rfl
  | a :: l, seen, h => by
    have ih := fun seen => keepFirst_congr key key' l seen (fun b hb => h b (List.mem_cons_of_mem _ hb))
    unfold keepFirst
    simp only [h a List.mem_cons_self, ih]

/-! ## Sorting first -/

theorem Reads.pairwise_sort {r : α → α → Prop} [DecidableRel r] {l : List α} (h : Reads r l) :
    (l.insertionSort r).Pairwise r :=
  haveI : Std.Total r := ⟨h.total⟩
  haveI : IsTrans α r := ⟨h.trans⟩
  List.pairwise_insertionSort r l

theorem head?_sorted (r : α → α → Prop) [DecidableRel r] (l : List α) (h : Reads r l) (x : α) :
    (l.insertionSort r).head? = some x ↔ First r (fun _ => True) l x := by
  rw [← first_congr (fun a => List.mem_insertionSort r) x]
  have hr : Reads r (l.insertionSort r) := h.sublist (fun _ ha => (List.mem_insertionSort r).1 ha)
  have hs := h.pairwise_sort
  cases hl : l.insertionSort r with
  | nil => simp [First]
  | cons a rest =>
    rw [hl] at hr hs
    rw [List.head?_cons, Option.some.injEq, first_cons_iff a rest x hr hs trivial]
    exact eq_comm

/-- **A row is kept of the sorted list exactly when it comes first of its key.** -/
theorem mem_keepFirst_sorted [DecidableEq κ] (key : α → Option κ) (r : α → α → Prop) [DecidableRel r] (l : List α)
    (h : Reads r l) (x : α) :
    x ∈ keepFirst key [] (l.insertionSort r) ↔ ∃ k, key x = some k ∧ First r (fun y => key y = some k) l x := by
  rw [mem_keepFirst key r x _ [] h.pairwise_sort (h.sublist (fun _ ha => (List.mem_insertionSort r).1 ha))]
  simp only [List.not_mem_nil, not_false_eq_true, true_and]
  exact exists_congr (fun k => and_congr_right (fun _ => first_congr (fun a => List.mem_insertionSort r) x))

end Ranked
