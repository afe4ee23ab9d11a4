import Mathlib.Data.List.Sort
import Mathlib.Order.Basic
/-!
# Paging — a list read page by page

A page is a run of `size` positions, so the pages of one list are the list (`flatMap_page`).  A database that is asked for
rows sorted by a key that repeats may put the rows of equal key in another order each time.  Pages read so are all the
rows, each once, exactly if no page ends inside a group of equal keys (`pages_perm_iff`).
-/
namespace Paging

variable {α : Type}

/-- OFFSET `k * size` LIMIT `size`. -/
def page (size k : Nat) (l : List α) : List α := (l.drop (k * size)).take size

theorem page_eq_extract (size k : Nat) (l : List α) : page size k l = l.extract (k * size) ((k + 1) * size) := by
  rw [page, List.extract_eq_take_drop, Nat.succ_mul, Nat.add_sub_cancel_left]

theorem page_eq_nil (size k : Nat) (l : List α) (h : l.length ≤ k * size) : page size k l = [] := by
  rw [page, List.drop_of_length_le h, List.take_nil]

/-- Distinct rows are not the same from two places on, unless neither place has any. -/
theorem slice_moved_iff {l : List α} (hnd : l.Nodup) {size a b : Nat} (hsize : 0 < size) (hab : a < b) :
    (l.drop a).take size = (l.drop b).take size ↔ l.length ≤ a := by
  constructor
  · intro h
    by_contra hlt
    have hlt := Nat.lt_of_not_le hlt
    have hmem : l[a] ∈ (l.drop a).take size := by
      rw [List.drop_eq_getElem_cons hlt, ← Nat.sub_add_cancel hsize, List.take_succ_cons]
      exact List.mem_cons_self
    rw [h] at hmem
    obtain ⟨i, hi, heq⟩ := List.getElem_of_mem (List.mem_of_mem_take hmem)
    rw [List.getElem_drop] at heq
    have := (hnd.getElem_inj_iff).1 heq
    omega
  · intro h
    rw [List.drop_of_length_le h, List.drop_of_length_le (h.trans hab.le)]

theorem take_append_page (size k : Nat) (l : List α) : l.take (k * size) ++ page size k l = l.take ((k + 1) * size) := by
  rw [page, Nat.succ_mul, List.take_add]

theorem page_add (size k j : Nat) (l : List α) : page size (k + j) l = page size j (l.drop (k * size)) := by
  rw [page, page, List.drop_drop, Nat.add_mul]

theorem flatMap_page_eq_take (size : Nat) (l : List α) :
    ∀ n, (List.range n).flatMap (fun k => page size k l) = l.take (n * size)
  | 0 => by rw [List.range_zero, List.flatMap_nil, Nat.zero_mul, List.take_zero]
  | n + 1 => by
    rw [List.range_succ, List.flatMap_append, flatMap_page_eq_take size l n, List.flatMap_singleton, take_append_page]

/-- **Pages that reach the end of the list are the list.** -/
theorem flatMap_page (size n : Nat) (l : List α) (h : l.length ≤ n * size) :
    (List.range n).flatMap (fun k => page size k l) = l := by
  rw [flatMap_page_eq_take, List.take_of_length_le h]

/-! ## Rows sorted by a key that may repeat -/

variable {κ : Type} [LinearOrder κ]

/-- `l` is `rows` in an order that ORDER BY `key` DESC allows. -/
structure Arranged (key : α → κ) (rows l : List α) : Prop where
  perm : l.Perm rows
  sorted : l.Pairwise (fun a b => key b ≤ key a)

/-- Whatever orders the pages are read in, those that begin below the limit are together the rows. -/
def Complete (key : α → κ) (rows : List α) (size limit : Nat) : Prop :=
  ∀ arr : Nat → List α, (∀ k, Arranged key rows (arr k)) → ∀ n, rows.length ≤ n * size → (∀ k < n, k * size < limit) →
    ((List.range n).flatMap (fun k => page size k (arr k))).Perm rows

/-- No page ends between two rows of equal key. -/
def Unsplit (key : α → κ) (rows : List α) (size : Nat) : Prop :=
  ∀ v k, ¬ (rows.countP (fun a => decide (v < key a)) < k * size ∧ k * size < rows.countP (fun a => decide (v ≤ key a)))

variable {key : α → κ}

theorem arranged_insertionSort (key : α → κ) (rows : List α) :
    Arranged key rows (rows.insertionSort (fun a b => key b ≤ key a)) where
  perm := List.perm_insertionSort _ _
  sorted :=
    haveI : Std.Total (fun a b : α => key b ≤ key a) := ⟨fun a b => le_total (key b) (key a)⟩
    haveI : IsTrans α (fun a b : α => key b ≤ key a) := ⟨fun _ _ _ hab hbc => hbc.trans hab⟩
    List.pairwise_insertionSort _ _

/-- In a list sorted downwards, an upward closed condition holds up to a position. -/
theorem getElem_iff (p : α → Bool) : ∀ (l : List α), l.Pairwise (fun a b => key b ≤ key a) →
    (∀ a b, key b ≤ key a → p b = true → p a = true) → ∀ i (h : i < l.length), p l[i] = true ↔ i < l.countP p
  | [], _, _, i, h => absurd h (Nat.not_lt_zero i)
  | a :: l, hs, hp, i, h => by
    have ih := getElem_iff p l hs.of_cons hp
    cases ha : p a with
    | true =>
      rw [List.countP_cons_of_pos ha]
      cases i with
      | zero => exact ⟨fun _ => Nat.succ_pos _, fun _ => ha⟩
      | succ i => exact (ih i (Nat.lt_of_succ_lt_succ h)).trans Nat.succ_lt_succ_iff.symm
    | false =>
      have hnone : ∀ b ∈ a :: l, ¬ p b = true := by
        intro b hb hpb
        rcases List.mem_cons.1 hb with rfl | hb
        · rw [ha] at hpb; cases hpb
        · rw [hp a b (List.rel_of_pairwise_cons hs hb) hpb] at ha; cases ha
      rw [List.countP_eq_zero.2 hnone]
      exact ⟨fun hpi => absurd hpi (hnone _ (List.getElem_mem h)), fun hi => absurd hi (Nat.not_lt_zero i)⟩

theorem filter_eq_take (p : α → Bool) (l : List α) (hs : l.Pairwise (fun a b => key b ≤ key a))
    (hp : ∀ a b, key b ≤ key a → p b = true → p a = true) : l.filter p = l.take (l.countP p) := by
  have hiff := getElem_iff p l hs hp
  have hin : ∀ a ∈ l.take (l.countP p), p a = true := by
    intro a ha
    obtain ⟨i, hi, rfl⟩ := List.getElem_of_mem ha
    rw [List.length_take] at hi
    rw [List.getElem_take]
    exact (hiff i (by omega)).2 (by omega)
  have hout : ∀ a ∈ l.drop (l.countP p), ¬ p a = true := by
    intro a ha hpa
    obtain ⟨i, hi, rfl⟩ := List.getElem_of_mem ha
    rw [List.length_drop] at hi
    rw [List.getElem_drop] at hpa
    have := (hiff _ (by omega)).1 hpa
    omega
  rw [← List.take_append_drop (l.countP p) l, List.filter_append, List.filter_eq_self.2 hin, List.filter_eq_nil_iff.2 hout,
    List.append_nil, List.take_append_drop]

theorem lt_upward (v : κ) (a b : α) (hab : key b ≤ key a) (hb : decide (v < key b) = true) : decide (v < key a) = true :=
  decide_eq_true ((of_decide_eq_true hb).trans_le hab)

theorem le_upward (v : κ) (a b : α) (hab : key b ≤ key a) (hb : decide (v ≤ key b) = true) : decide (v ≤ key a) = true :=
  decide_eq_true ((of_decide_eq_true hb).trans hab)

theorem Arranged.lt_iff {rows l : List α} (h : Arranged key rows l) (v : κ) (i : Nat) (hi : i < l.length) :
    v < key l[i] ↔ i < rows.countP (fun a => decide (v < key a)) := by
  rw [← h.perm.countP_eq, ← getElem_iff _ l h.sorted (lt_upward v) i hi, decide_eq_true_eq]

theorem Arranged.le_iff {rows l : List α} (h : Arranged key rows l) (v : κ) (i : Nat) (hi : i < l.length) :
    v ≤ key l[i] ↔ i < rows.countP (fun a => decide (v ≤ key a)) := by
  rw [← h.perm.countP_eq, ← getElem_iff _ l h.sorted (le_upward v) i hi, decide_eq_true_eq]

/-- **Where no group is split, every order has the same rows before a cut.** -/
theorem Arranged.take_perm {rows l l' : List α} (h : Arranged key rows l) (h' : Arranged key rows l') {size : Nat}
    (hun : Unsplit key rows size) (k : Nat) : (l.take (k * size)).Perm (l'.take (k * size)) := by
  by_cases hlen : rows.length ≤ k * size
  · rw [List.take_of_length_le (h.perm.length_eq.trans_le hlen), List.take_of_length_le (h'.perm.length_eq.trans_le hlen)]
    exact h.perm.trans h'.perm.symm
  · -- the rows before the cut are those with a larger key than the first row after it
    have hk : k * size < l.length := by rw [h.perm.length_eq]; omega
    have hcut : rows.countP (fun a => decide (key l[k * size] < key a)) = k * size := by
      have hlt := (h.lt_iff (key l[k * size]) _ hk).not.1 (lt_irrefl _)
      have hle := (h.le_iff (key l[k * size]) _ hk).1 (le_refl _)
      have := hun (key l[k * size]) k
      omega
    have htake := filter_eq_take _ l h.sorted (lt_upward (key l[k * size]))
    have htake' := filter_eq_take _ l' h'.sorted (lt_upward (key l[k * size]))
    rw [h.perm.countP_eq, hcut] at htake
    rw [h'.perm.countP_eq, hcut] at htake'
    rw [← htake, ← htake']
    exact (h.perm.trans h'.perm.symm).filter _

theorem Unsplit.complete {rows : List α} {size : Nat} (hun : Unsplit key rows size) (limit : Nat) :
    Complete key rows size limit := by
  intro arr harr n hn _
  have hfirst : ∀ m, ((List.range m).flatMap (fun k => page size k (arr k))).Perm ((arr 0).take (m * size)) := by
    intro m
    induction m with
    | zero => simp
    | succ m ih =>
      rw [List.range_succ, List.flatMap_append, List.flatMap_singleton]
      refine (List.Perm.append_right _ (ih.trans ((harr 0).take_perm (harr m) hun m))).trans ?_
      rw [take_append_page]
      exact (harr m).take_perm (harr 0) hun (m + 1)
  refine (hfirst n).trans ?_
  rw [List.take_of_length_le ((harr 0).perm.length_eq.trans_le hn)]
  exact (harr 0).perm

/-- Two neighbours of equal key may change places. -/
theorem Arranged.swap {rows : List α} {A C : List α} {x y : α} (h : Arranged key rows (A ++ x :: y :: C))
    (hxy : key x = key y) : Arranged key rows (A ++ y :: x :: C) where
  perm := (List.Perm.append_left A (List.Perm.swap x y C)).trans h.perm
  sorted := by
    have hs := h.sorted
    simp only [List.pairwise_append, List.pairwise_cons, List.mem_cons, forall_eq_or_imp] at hs ⊢
    obtain ⟨hA, ⟨⟨-, hxC⟩, hyC, hC⟩, hAx⟩ := hs
    exact ⟨hA, ⟨⟨hxy.le, hyC⟩, hxC, hC⟩, fun a ha => ⟨(hAx a ha).2.1, (hAx a ha).1, (hAx a ha).2.2⟩⟩

/-- The first `k` pages of one order and the later ones of another. -/
theorem flatMap_page_of_two (size k m : Nat) (l l' : List α) (h : l'.length ≤ (k + m) * size) :
    (List.range (k + m)).flatMap (fun i => page size i (if i < k then l else l')) =
      l.take (k * size) ++ l'.drop (k * size) := by
  rw [List.range_add, List.flatMap_append]
  refine congrArg₂ (· ++ ·) ?_ ?_
  · rw [← flatMap_page_eq_take]
    refine List.flatMap_congr (fun i hi => ?_)
    rw [if_pos (List.mem_range.1 hi)]
  · rw [List.flatMap_map, ← flatMap_page size m (l'.drop (k * size)) (by rw [List.length_drop, Nat.add_mul] at *; omega)]
    refine List.flatMap_congr (fun i _ => ?_)
    rw [if_neg (by omega), page_add]

/-- The pages up to the last one that is not empty. -/
theorem exists_pages (size : Nat) (hsize : 0 < size) (length : Nat) :
    ∃ n, length ≤ n * size ∧ ∀ k < n, k * size < length := by
  have hex : ∃ n, length ≤ n * size := ⟨length, Nat.le_mul_of_pos_right _ hsize⟩
  exact ⟨Nat.find hex, Nat.find_spec hex, fun k hk => Nat.lt_of_not_le (Nat.find_min hex hk)⟩

theorem Complete.unsplit {rows : List α} {size limit : Nat} (hnd : rows.Nodup) (hlimit : rows.length ≤ limit)
    (h : Complete key rows size limit) : Unsplit key rows size := by
  rintro v k ⟨hlt, hle⟩
  have hl := arranged_insertionSort key rows
  generalize rows.insertionSort (fun a b => key b ≤ key a) = l at hl
  obtain ⟨c, hc⟩ : ∃ c, k * size = c + 1 := ⟨k * size - 1, by omega⟩
  rw [hc] at hlt hle
  have hlen : c + 1 < l.length := hle.trans_le (by rw [hl.perm.length_eq]; exact List.countP_le_length)
  -- the rows on either side of the cut have the key of the group
  have hx : key l[c] = v := le_antisymm (not_lt.1 ((hl.lt_iff v c _).not.2 (by omega))) ((hl.le_iff v c _).2 (by omega))
  have hy : key l[c + 1] = v := le_antisymm (not_lt.1 ((hl.lt_iff v _ hlen).not.2 (by omega))) ((hl.le_iff v _ _).2 hle)
  have hsplit : l = l.take c ++ l[c] :: l[c + 1] :: l.drop (c + 2) := by
    rw [← List.drop_eq_getElem_cons, ← List.drop_eq_getElem_cons, List.take_append_drop]
  generalize hA : l.take c = A at hsplit
  generalize l.drop (c + 2) = C at hsplit
  have hAlen : A.length = c := by rw [← hA, List.length_take]; omega
  generalize l[c] = x at hx hsplit
  generalize l[c + 1] = y at hy hsplit
  subst hsplit
  have hl' := hl.swap (hx.trans hy.symm)
  have hsize : 0 < size := Nat.pos_of_ne_zero (fun h0 => by rw [h0] at hc; omega)
  obtain ⟨n, hn, hlast⟩ := exists_pages size hsize rows.length
  have hkn : k ≤ n := by
    by_contra hlt
    have := Nat.mul_le_mul_right size (Nat.le_of_lt (Nat.lt_of_not_le hlt))
    have := hl.perm.length_eq
    omega
  obtain ⟨m, rfl⟩ := Nat.exists_eq_add_of_le hkn
  have hpages := h (fun i => if i < k then A ++ x :: y :: C else A ++ y :: x :: C) (fun i => by split <;> assumption)
    (k + m) hn (fun i hi => (hlast i hi).trans_le hlimit)
  rw [flatMap_page_of_two _ _ _ _ _ (hl'.perm.length_eq.trans_le hn), hc, ← hAlen, List.take_append,
    List.drop_append] at hpages
  simp only [Nat.add_sub_cancel_left, List.take_succ_cons, List.take_zero, List.drop_succ_cons, List.drop_zero,
    List.take_of_length_le (Nat.le_succ A.length), List.drop_of_length_le (Nat.le_succ A.length), List.nil_append] at hpages
  -- `x` is on both sides of the cut
  have hnodup := hpages.nodup_iff.2 hnd
  rw [List.append_assoc, List.nodup_append] at hnodup
  simp at hnodup

/-- **Pages read in any orders are the rows, each once, exactly if no page ends inside a group of equal keys.** -/
theorem pages_perm_iff {rows : List α} (hnd : rows.Nodup) (size limit : Nat) (hlimit : rows.length ≤ limit) :
    Complete key rows size limit ↔ Unsplit key rows size :=
  ⟨fun h => h.unsplit hnd hlimit, fun h => h.complete limit⟩

end Paging
