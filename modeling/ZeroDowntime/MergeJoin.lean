import Mathlib.Order.Lattice
import Mathlib.Data.List.Basic
import Mathlib.Data.List.Pairwise
/-!
# MergeJoin — the steps of a merge of two lists, larger keys first

Both lists are consumed from the front: the head with the larger key alone, two heads with one key together.  Whatever
the lists hold, each element is consumed once and in its order (`lefts_join`, `rights_join`).  On strictly descending
lists the two elements with one key always meet (`both_mem_join`), and the steps descend as well (`join_descends`).
-/
namespace MergeJoin

/-- One step consumes an element of the left list, of the right list, or one of each. -/
inductive Step (α β : Type)
  | left (a : α)
  | right (b : β)
  | both (a : α) (b : β)
  deriving DecidableEq, Repr

variable {κ α β γ δ : Type}

def Step.left? : Step α β → Option α
  | .left a => some a
  | .right _ => none
  | .both a _ => some a

def Step.right? : Step α β → Option β
  | .left _ => none
  | .right b => some b
  | .both _ b => some b

def lefts (l : List (Step α β)) : List α := l.filterMap Step.left?

def rights (l : List (Step α β)) : List β := l.filterMap Step.right?

def Step.key (ka : α → κ) (kb : β → κ) : Step α β → κ
  | .left a => ka a
  | .right b => kb b
  | .both a _ => ka a

def Step.map (f : α → γ) (g : β → δ) : Step α β → Step γ δ
  | .left a => .left (f a)
  | .right b => .right (g b)
  | .both a b => .both (f a) (g b)

@[simp] theorem lefts_left (a : α) (l : List (Step α β)) : lefts (.left a :: l) = a :: lefts l := rfl

@[simp] theorem lefts_right (b : β) (l : List (Step α β)) : lefts (.right b :: l) = lefts l := rfl

@[simp] theorem lefts_both (a : α) (b : β) (l : List (Step α β)) : lefts (.both a b :: l) = a :: lefts l := rfl

@[simp] theorem rights_left (a : α) (l : List (Step α β)) : rights (.left a :: l) = rights l := rfl

@[simp] theorem rights_right (b : β) (l : List (Step α β)) : rights (.right b :: l) = b :: rights l := rfl

@[simp] theorem rights_both (a : α) (b : β) (l : List (Step α β)) : rights (.both a b :: l) = b :: rights l := rfl

theorem mem_lefts (l : List (Step α β)) (a : α) : a ∈ lefts l ↔ Step.left a ∈ l ∨ ∃ b, Step.both a b ∈ l := by
  unfold lefts
  rw [List.mem_filterMap]
  constructor
  · rintro ⟨s | s | ⟨s, b⟩, hs, h⟩
    · simp only [Step.left?, Option.some.injEq] at h
      subst h; exact Or.inl hs
    · cases h
    · simp only [Step.left?, Option.some.injEq] at h
      subst h; exact Or.inr ⟨b, hs⟩
  · rintro (h | ⟨b, h⟩)
    · exact ⟨_, h, rfl⟩
    · exact ⟨_, h, rfl⟩

theorem mem_rights (l : List (Step α β)) (b : β) : b ∈ rights l ↔ Step.right b ∈ l ∨ ∃ a, Step.both a b ∈ l := by
  unfold rights
  rw [List.mem_filterMap]
  constructor
  · rintro ⟨s | s | ⟨a, s⟩, hs, h⟩
    · cases h
    · simp only [Step.right?, Option.some.injEq] at h
      subst h; exact Or.inl hs
    · simp only [Step.right?, Option.some.injEq] at h
      subst h; exact Or.inr ⟨a, hs⟩
  · rintro (h | ⟨a, h⟩)
    · exact ⟨_, h, rfl⟩
    · exact ⟨_, h, rfl⟩

section Join

variable [LinearOrder κ] (ka : α → κ) (kb : β → κ)

/-- The steps while `a` is the head of the left list; `rest` are those once `a` is consumed. -/
def joinCons (a : α) (rest : List β → List (Step α β)) : List β → List (Step α β)
  | [] => .left a :: rest []
  | b :: bs =>
    if ka a < kb b then .right b :: joinCons a rest bs
    else if kb b < ka a then .left a :: rest (b :: bs)
    else .both a b :: rest bs

def join : List α → List β → List (Step α β)
  | [], bs => bs.map .right
  | a :: as, bs => joinCons ka kb a (join as) bs

@[simp] theorem join_nil_left (bs : List β) : join ka kb [] bs = bs.map .right := rfl

@[simp] theorem join_cons_nil (a : α) (as : List α) : join ka kb (a :: as) [] = .left a :: join ka kb as [] := rfl

theorem join_cons_cons (a : α) (as : List α) (b : β) (bs : List β) :
    join ka kb (a :: as) (b :: bs) =
      if ka a < kb b then .right b :: join ka kb (a :: as) bs
      else if kb b < ka a then .left a :: join ka kb as (b :: bs)
      else .both a b :: join ka kb as bs := rfl

/-- The induction that follows `join`. -/
theorem join_induction {P : List α → List β → List (Step α β) → Prop}
    (nil : ∀ bs, P [] bs (bs.map .right))
    (last : ∀ a as, P as [] (join ka kb as []) → P (a :: as) [] (.left a :: join ka kb as []))
    (right : ∀ a as b bs, ka a < kb b → P (a :: as) bs (join ka kb (a :: as) bs) →
      P (a :: as) (b :: bs) (.right b :: join ka kb (a :: as) bs))
    (left : ∀ a as b bs, kb b < ka a → P as (b :: bs) (join ka kb as (b :: bs)) →
      P (a :: as) (b :: bs) (.left a :: join ka kb as (b :: bs)))
    (both : ∀ a as b bs, ka a = kb b → P as bs (join ka kb as bs) →
      P (a :: as) (b :: bs) (.both a b :: join ka kb as bs)) :
    ∀ as bs, P as bs (join ka kb as bs)
  | [], bs => nil bs
  | a :: as, [] => last a as (join_induction nil last right left both as [])
  | a :: as, b :: bs => by
    rw [join_cons_cons]
    split
    · rename_i h; exact right a as b bs h (join_induction nil last right left both (a :: as) bs)
    split
    · rename_i h; exact left a as b bs h (join_induction nil last right left both as (b :: bs))
    · rename_i h h'
      exact both a as b bs (le_antisymm (not_lt.1 h') (not_lt.1 h)) (join_induction nil last right left both as bs)
  termination_by as bs => as.length + bs.length

/-- **Every element of the left list is consumed once, in order.** -/
theorem lefts_join (as : List α) (bs : List β) : lefts (join ka kb as bs) = as := by
  refine join_induction ka kb (P := fun as _ s => lefts s = as) ?_ ?_ ?_ ?_ ?_ as bs
  · intro bs
    induction bs with
    | nil => rfl
    | cons b bs ih => exact ih
  · intro a as ih; rw [lefts_left, ih]
  · intro a as b bs _ ih; exact ih
  · intro a as b bs _ ih; rw [lefts_left, ih]
  · intro a as b bs _ ih; rw [lefts_both, ih]

theorem rights_join (as : List α) (bs : List β) : rights (join ka kb as bs) = bs := by
  refine join_induction ka kb (P := fun _ bs s => rights s = bs) ?_ ?_ ?_ ?_ ?_ as bs
  · intro bs
    induction bs with
    | nil => rfl
    | cons b bs ih => rw [List.map_cons, rights_right, ih]
  · intro a as ih; exact ih
  · intro a as b bs _ ih; rw [rights_right, ih]
  · intro a as b bs _ ih; exact ih
  · intro a as b bs _ ih; rw [rights_both, ih]

theorem key_of_both (as : List α) (bs : List β) : ∀ a b, Step.both a b ∈ join ka kb as bs → ka a = kb b := by
  refine join_induction ka kb (P := fun _ _ s => ∀ a b, Step.both a b ∈ s → ka a = kb b) ?_ ?_ ?_ ?_ ?_ as bs
  · intro bs a b h
    obtain ⟨_, _, h⟩ := List.mem_map.1 h
    cases h
  · intro a as ih a' b' h; exact ih a' b' (List.mem_of_ne_of_mem (by simp) h)
  · intro a as b bs _ ih a' b' h; exact ih a' b' (List.mem_of_ne_of_mem (by simp) h)
  · intro a as b bs _ ih a' b' h; exact ih a' b' (List.mem_of_ne_of_mem (by simp) h)
  · intro a as b bs hk ih a' b' h
    rcases List.mem_cons.1 h with h | h
    · obtain ⟨rfl, rfl⟩ := Step.both.inj h
      exact hk
    · exact ih a' b' h

theorem join_map (f : γ → α) (g : δ → β) (as : List γ) (bs : List δ) :
    join ka kb (as.map f) (bs.map g) = (join (ka ∘ f) (kb ∘ g) as bs).map (Step.map f g) := by
  refine join_induction (ka ∘ f) (kb ∘ g) (P := fun as bs s => join ka kb (as.map f) (bs.map g) = s.map (Step.map f g))
    ?_ ?_ ?_ ?_ ?_ as bs
  · intro bs
    rw [List.map_nil, join_nil_left, List.map_map, List.map_map]
    rfl
  · intro a as ih
    rw [List.map_cons, List.map_nil, join_cons_nil]
    rw [List.map_nil] at ih
    rw [ih]
    rfl
  · intro a as b bs h ih
    have h' : ka (f a) < kb (g b) := h
    rw [List.map_cons, List.map_cons, join_cons_cons, if_pos h', ← List.map_cons, ih]
    rfl
  · intro a as b bs h ih
    have h' : kb (g b) < ka (f a) := h
    rw [List.map_cons, List.map_cons, join_cons_cons, if_neg (not_lt.2 (le_of_lt h')), if_pos h', ← List.map_cons, ih]
    rfl
  · intro a as b bs h ih
    have h' : ka (f a) = kb (g b) := h
    rw [List.map_cons, List.map_cons, join_cons_cons, if_neg (by rw [h']; exact lt_irrefl _),
      if_neg (by rw [h']; exact lt_irrefl _), ih]
    rfl

/-! ## Strictly descending lists -/

/-- The larger keys come first, and no key twice. -/
def Descends {δ : Type} (k : δ → κ) (l : List δ) : Prop := l.Pairwise (fun x y => k y < k x)

theorem rel_or_rel_of_ne {δ : Type} {R : δ → δ → Prop} {l : List δ} (h : l.Pairwise R) {x y : δ} (hx : x ∈ l)
    (hy : y ∈ l) (hne : x ≠ y) : R x y ∨ R y x := by
  have : Std.Symm (fun a b => R a b ∨ R b a) := ⟨fun _ _ => Or.symm⟩
  have hsym : l.Pairwise (fun a b => R a b ∨ R b a) := h.imp (fun hab => Or.inl hab)
  exact hsym.forall hx hy hne

theorem Descends.eq_of_key {δ : Type} {k : δ → κ} {l : List δ} (h : Descends k l) {x y : δ} (hx : x ∈ l) (hy : y ∈ l)
    (hk : k x = k y) : x = y := by
  by_contra hne
  rcases rel_or_rel_of_ne h hx hy hne with hlt | hlt
  · exact absurd hk (ne_of_gt hlt)
  · exact absurd hk (ne_of_lt hlt)

theorem key_of_mem_join (as : List α) (bs : List β) (s : Step α β) (h : s ∈ join ka kb as bs) :
    (∃ a ∈ as, s.key ka kb = ka a) ∨ ∃ b ∈ bs, s.key ka kb = kb b := by
  cases s with
  | left a => exact Or.inl ⟨a, by rw [← lefts_join ka kb as bs, mem_lefts]; exact Or.inl h, rfl⟩
  | right b => exact Or.inr ⟨b, by rw [← rights_join ka kb as bs, mem_rights]; exact Or.inl h, rfl⟩
  | both a b => exact Or.inl ⟨a, by rw [← lefts_join ka kb as bs, mem_lefts]; exact Or.inr ⟨b, h⟩, rfl⟩

/-- **The steps of a merge of strictly descending lists descend.** -/
theorem join_descends (as : List α) (bs : List β) (has : Descends ka as) (hbs : Descends kb bs) :
    Descends (Step.key ka kb) (join ka kb as bs) := by
  refine join_induction ka kb (P := fun as bs s => Descends ka as → Descends kb bs → Descends (Step.key ka kb) s)
    ?_ ?_ ?_ ?_ ?_ as bs has hbs
  · intro bs _ hbs
    exact List.pairwise_map.2 hbs
  · intro a as ih has hbs
    refine List.pairwise_cons.2 ⟨fun s hs => ?_, ih has.of_cons hbs⟩
    rcases key_of_mem_join ka kb as [] s hs with ⟨a', ha', hk⟩ | ⟨b', hb', -⟩
    · rw [hk]; exact List.rel_of_pairwise_cons has ha'
    · cases hb'
  · intro a as b bs h ih has hbs
    refine List.pairwise_cons.2 ⟨fun s hs => ?_, ih has hbs.of_cons⟩
    show s.key ka kb < kb b
    rcases key_of_mem_join ka kb (a :: as) bs s hs with ⟨a', ha', hk⟩ | ⟨b', hb', hk⟩
    · rw [hk]
      rcases List.mem_cons.1 ha' with rfl | ha'
      · exact h
      · exact lt_trans (List.rel_of_pairwise_cons has ha') h
    · rw [hk]; exact List.rel_of_pairwise_cons hbs hb'
  · intro a as b bs h ih has hbs
    refine List.pairwise_cons.2 ⟨fun s hs => ?_, ih has.of_cons hbs⟩
    show s.key ka kb < ka a
    rcases key_of_mem_join ka kb as (b :: bs) s hs with ⟨a', ha', hk⟩ | ⟨b', hb', hk⟩
    · rw [hk]; exact List.rel_of_pairwise_cons has ha'
    · rw [hk]
      rcases List.mem_cons.1 hb' with rfl | hb'
      · exact h
      · exact lt_trans (List.rel_of_pairwise_cons hbs hb') h
  · intro a as b bs h ih has hbs
    refine List.pairwise_cons.2 ⟨fun s hs => ?_, ih has.of_cons hbs.of_cons⟩
    show s.key ka kb < ka a
    rcases key_of_mem_join ka kb as bs s hs with ⟨a', ha', hk⟩ | ⟨b', hb', hk⟩
    · rw [hk]; exact List.rel_of_pairwise_cons has ha'
    · rw [hk, h]; exact List.rel_of_pairwise_cons hbs hb'

/-- **In strictly descending lists the elements with one key meet.** -/
theorem both_mem_join (as : List α) (bs : List β) (has : Descends ka as) (hbs : Descends kb bs) (a : α) (b : β) :
    Step.both a b ∈ join ka kb as bs ↔ a ∈ as ∧ b ∈ bs ∧ ka a = kb b := by
  have hl : ∀ x, x ∈ as ↔ x ∈ lefts (join ka kb as bs) := fun x => by rw [lefts_join]
  have hr : ∀ y, y ∈ bs ↔ y ∈ rights (join ka kb as bs) := fun y => by rw [rights_join]
  rw [hl a, hr b, mem_lefts, mem_rights]
  constructor
  · intro h; exact ⟨Or.inr ⟨b, h⟩, Or.inr ⟨a, h⟩, key_of_both ka kb as bs a b h⟩
  · rintro ⟨ha, hb, hk⟩
    have hone := fun s hs t ht hkey => (join_descends ka kb as bs has hbs).eq_of_key (x := s) (y := t) hs ht hkey
    rcases ha with ha | ⟨b', ha⟩
    · rcases hb with hb | ⟨a', hb⟩
      · cases hone _ ha _ hb hk
      · cases hone _ ha _ hb (hk.trans (key_of_both ka kb as bs a' b hb).symm)
    · rcases hb with hb | ⟨a', hb⟩
      · cases hone _ ha _ hb hk
      · have heq := hone _ ha _ hb (hk.trans (key_of_both ka kb as bs a' b hb).symm)
        rw [← (Step.both.inj heq).2]
        exact ha

/-- **An element of the left list is consumed alone exactly when the right list has no element with its key.** -/
theorem left_mem_join (as : List α) (bs : List β) (has : Descends ka as) (hbs : Descends kb bs) (a : α) :
    Step.left a ∈ join ka kb as bs ↔ a ∈ as ∧ ∀ b ∈ bs, ka a ≠ kb b := by
  have hl : a ∈ as ↔ a ∈ lefts (join ka kb as bs) := by rw [lefts_join]
  constructor
  · intro h
    have ha : a ∈ as := hl.2 ((mem_lefts _ a).2 (Or.inl h))
    refine ⟨ha, fun b hb hk => ?_⟩
    have hboth := (both_mem_join ka kb as bs has hbs a b).2 ⟨ha, hb, hk⟩
    cases (join_descends ka kb as bs has hbs).eq_of_key h hboth rfl
  · rintro ⟨ha, hno⟩
    rcases (mem_lefts _ a).1 (hl.1 ha) with h | ⟨b, h⟩
    · exact h
    · obtain ⟨-, hb, hk⟩ := (both_mem_join ka kb as bs has hbs a b).1 h
      exact absurd hk (hno b hb)

theorem right_mem_join (as : List α) (bs : List β) (has : Descends ka as) (hbs : Descends kb bs) (b : β) :
    Step.right b ∈ join ka kb as bs ↔ b ∈ bs ∧ ∀ a ∈ as, ka a ≠ kb b := by
  have hr : b ∈ bs ↔ b ∈ rights (join ka kb as bs) := by rw [rights_join]
  constructor
  · intro h
    have hb : b ∈ bs := hr.2 ((mem_rights _ b).2 (Or.inl h))
    refine ⟨hb, fun a ha hk => ?_⟩
    have hboth := (both_mem_join ka kb as bs has hbs a b).2 ⟨ha, hb, hk⟩
    cases (join_descends ka kb as bs has hbs).eq_of_key h hboth hk.symm
  · rintro ⟨hb, hno⟩
    rcases (mem_rights _ b).1 (hr.1 hb) with h | ⟨a, h⟩
    · exact h
    · obtain ⟨ha, -, hk⟩ := (both_mem_join ka kb as bs has hbs a b).1 h
      exact absurd hk (hno a ha)

end Join

end MergeJoin
