import Mathlib.Data.List.Basic
import Mathlib.Data.List.Pairwise
/-!
# Versioned — append-only tables whose rows are retired, never removed

A row carries a key handed out in increasing order, a payload, and two marks: the moment it was deleted and the key of
the row that replaced it.  A row without marks is active.  Nothing here knows what the payload is.
-/
namespace Versioned

/-- Keys are 32-bit and handed out from 1; the first key that no longer fits. -/
def idLimit : Int := 2147483648

structure Row (α : Type) where
  id : Int
  deletedAt : Option Int
  supersededBy : Option Int
  data : α
  deriving DecidableEq, Repr

def Row.active {α : Type} (r : Row α) : Bool := r.deletedAt.isNone && r.supersededBy.isNone

/-- A table keeps its keys increasing, below the sequence's next value, and inside the key's width. -/
structure Table (α : Type) where
  rows : List (Row α)
  next : Int
  ids : rows.Pairwise (fun a b => a.id < b.id)
  range : ∀ r ∈ rows, 1 ≤ r.id ∧ r.id < next
  next_pos : 1 ≤ next
  next_le : next ≤ idLimit
  deriving DecidableEq

def Table.empty (α : Type) : Table α where
  rows := []
  next := 1
  ids := List.Pairwise.nil
  range := fun _ h => by cases h
  next_pos := by decide
  next_le := by decide

def Table.newRow {α : Type} (t : Table α) (a : α) : Row α := ⟨t.next, none, none, a⟩

theorem Table.id_lt_next {α : Type} (t : Table α) (r : Row α) (h : r ∈ t.rows) : r.id < t.next := (t.range r h).2

def Table.push {α : Type} (t : Table α) (a : α) : Table α :=
  if h : t.next < idLimit then
    { rows := t.rows ++ [t.newRow a]
      next := t.next + 1
      ids := by
        refine List.pairwise_append.2 ⟨t.ids, List.pairwise_singleton _ _, fun r hr n hn => ?_⟩
        rw [List.mem_singleton.1 hn]
        exact t.id_lt_next r hr
      range := fun r hr => by
        rcases List.mem_append.1 hr with hr | hr
        · have := t.range r hr; omega
        · rw [List.mem_singleton.1 hr]
          have := t.next_pos
          exact ⟨this, Int.lt_succ _⟩
      next_pos := by have := t.next_pos; omega
      next_le := h }
  else t

theorem Table.push_rows {α : Type} (t : Table α) (a : α) (h : t.next < idLimit) :
    (t.push a).rows = t.rows ++ [t.newRow a] := by
  unfold Table.push; rw [dif_pos h]

theorem Table.push_next {α : Type} (t : Table α) (a : α) (h : t.next < idLimit) : (t.push a).next = t.next + 1 := by
  unfold Table.push; rw [dif_pos h]

def Table.mapRows {α : Type} (t : Table α) (f : Row α → Row α) (hf : ∀ r, (f r).id = r.id) : Table α where
  rows := t.rows.map f
  next := t.next
  ids := by
    rw [List.pairwise_map]
    exact t.ids.imp (fun {a b} hab => by rw [hf a, hf b]; exact hab)
  range := fun r hr => by
    obtain ⟨r₀, h₀, rfl⟩ := List.mem_map.1 hr
    rw [hf r₀]; exact t.range r₀ h₀
  next_pos := t.next_pos
  next_le := t.next_le

def Row.supersede {α : Type} (n : Int) (r : Row α) : Row α := { r with supersededBy := some n }

def Row.softDelete {α : Type} (now : Int) (r : Row α) : Row α := { r with deletedAt := some now }

/-- UPDATE … SET superseded_by = `n` WHERE id = `id`. -/
def Table.supersede {α : Type} (t : Table α) (id n : Int) : Table α :=
  t.mapRows (fun r => if r.id = id then r.supersede n else r) (fun r => by split <;> rfl)

/-- UPDATE … SET deleted_at = `now` WHERE id = `id`. -/
def Table.softDelete {α : Type} (t : Table α) (id now : Int) : Table α :=
  t.mapRows (fun r => if r.id = id then r.softDelete now else r) (fun r => by split <;> rfl)

@[simp] theorem Table.supersede_rows {α : Type} (t : Table α) (id n : Int) :
    (t.supersede id n).rows = t.rows.map (fun r => if r.id = id then r.supersede n else r) := rfl

@[simp] theorem Table.softDelete_rows {α : Type} (t : Table α) (id now : Int) :
    (t.softDelete id now).rows = t.rows.map (fun r => if r.id = id then r.softDelete now else r) := rfl

@[simp] theorem Table.supersede_next {α : Type} (t : Table α) (id n : Int) : (t.supersede id n).next = t.next := rfl

@[simp] theorem Table.softDelete_next {α : Type} (t : Table α) (id now : Int) : (t.softDelete id now).next = t.next := rfl

@[simp] theorem Row.supersede_active {α : Type} (n : Int) (r : Row α) : (r.supersede n).active = false := by
  simp [Row.supersede, Row.active]

@[simp] theorem Row.softDelete_active {α : Type} (now : Int) (r : Row α) : (r.softDelete now).active = false := by
  simp [Row.softDelete, Row.active]

@[simp] theorem Row.supersede_id {α : Type} (n : Int) (r : Row α) : (r.supersede n).id = r.id := rfl

@[simp] theorem Row.supersede_data {α : Type} (n : Int) (r : Row α) : (r.supersede n).data = r.data := rfl

@[simp] theorem Row.softDelete_data {α : Type} (now : Int) (r : Row α) : (r.softDelete now).data = r.data := rfl

/-! ## Keys are unique and few -/

theorem eq_of_id {α : Type} : ∀ (l : List (Row α)), l.Pairwise (fun a b => a.id < b.id) → ∀ r ∈ l, ∀ s ∈ l,
    r.id = s.id → r = s
  | [], _, _, hr, _, _, _ => by cases hr
  | a :: l, hl, r, hr, s, hs, h => by
    have hlt : ∀ x ∈ l, a.id < x.id := fun x hx => List.rel_of_pairwise_cons hl hx
    rcases List.mem_cons.1 hr with hra | hrl
    · rcases List.mem_cons.1 hs with hsa | hsl
      · rw [hra, hsa]
      · have := hlt s hsl; rw [hra] at h; omega
    · rcases List.mem_cons.1 hs with hsa | hsl
      · have := hlt r hrl; rw [hsa] at h; omega
      · exact eq_of_id l hl.of_cons r hrl s hsl h

theorem Table.eq_of_id {α : Type} (t : Table α) (r s : Row α) (hr : r ∈ t.rows) (hs : s ∈ t.rows) (h : r.id = s.id) :
    r = s :=
  Versioned.eq_of_id t.rows t.ids r hr s hs h

theorem Table.nodup_ids {α : Type} (t : Table α) : (t.rows.map Row.id).Nodup :=
  List.pairwise_map.2 (t.ids.imp (fun h => Int.ne_of_lt h))

theorem length_le_of_ids {α : Type} : ∀ (l : List (Row α)) (lo hi : Int), l.Pairwise (fun a b => a.id < b.id) →
    lo ≤ hi → (∀ r ∈ l, lo ≤ r.id ∧ r.id < hi) → (l.length : Int) ≤ hi - lo
  | [], lo, hi, _, hle, _ => by simp only [List.length_nil]; omega
  | a :: l, lo, hi, hl, _, h => by
    have ha := h a List.mem_cons_self
    have ih := length_le_of_ids l (a.id + 1) hi hl.of_cons (by omega) (fun r hr =>
      ⟨List.rel_of_pairwise_cons hl hr, (h r (List.mem_cons_of_mem _ hr)).2⟩)
    rw [List.length_cons]; omega

theorem Table.length_lt {α : Type} (t : Table α) : (t.rows.length : Int) < idLimit := by
  have := length_le_of_ids t.rows 1 t.next t.ids t.next_pos t.range
  have := t.next_le
  omega

theorem Table.ext_rows {α : Type} (t s : Table α) (hr : t.rows = s.rows) (hn : t.next = s.next) : t = s := by
  rcases t with ⟨rt, nt, _, _, _, _⟩
  rcases s with ⟨rs, ns, _, _, _, _⟩
  obtain rfl : rt = rs := hr
  obtain rfl : nt = ns := hn
  rfl

/-! ## Looking up an active row -/

/-- `find_by_id(id)` restricted to rows that are neither deleted nor superseded. -/
def Table.findActive {α : Type} (t : Table α) (id : Int) : Option (Row α) :=
  t.rows.find? (fun r => decide (r.id = id) && r.active)

theorem Table.findActive_eq_some {α : Type} (t : Table α) (id : Int) (r : Row α) :
    t.findActive id = some r ↔ r ∈ t.rows ∧ r.id = id ∧ r.active = true := by
  unfold Table.findActive
  constructor
  · intro h
    have hp := List.find?_some h
    simp only [Bool.and_eq_true, decide_eq_true_eq] at hp
    exact ⟨List.mem_of_find?_eq_some h, hp.1, hp.2⟩
  · rintro ⟨hm, hid, ha⟩
    cases hf : t.rows.find? (fun r => decide (r.id = id) && r.active) with
    | none =>
      have := List.find?_eq_none.1 hf r hm
      simp [hid, ha] at this
    | some s =>
      have hp := List.find?_some hf
      simp only [Bool.and_eq_true, decide_eq_true_eq] at hp
      rw [t.eq_of_id s r (List.mem_of_find?_eq_some hf) hm (by omega)]

theorem Table.findActive_eq_none {α : Type} (t : Table α) (id : Int) :
    t.findActive id = none ↔ ∀ r ∈ t.rows, r.id = id → r.active = false := by
  unfold Table.findActive
  rw [List.find?_eq_none]
  simp only [Bool.and_eq_true, decide_eq_true_eq, not_and, Bool.not_eq_true]

end Versioned
