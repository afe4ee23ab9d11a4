import ZeroDowntime.Upserts
/-!
# Serials — tables whose ids are handed out in order and whose rows may be removed

An id that has been handed out is not handed out again, removed or not: `next` only grows.  A reference is a column of
another table that holds an id; `keys` is what it may hold.
-/
namespace Serials

structure Table (α : Type) (id : α → Int) where
  rows : List α
  next : Int
  ids : rows.Pairwise (fun a b => id a < id b)
  below : ∀ r ∈ rows, id r < next

variable {α : Type} {id : α → Int}

def Table.empty (α : Type) (id : α → Int) : Table α id :=
  ⟨[], 1, List.Pairwise.nil, fun _ h => absurd h List.not_mem_nil⟩

def Table.keys (t : Table α id) : List Int := t.rows.map id

def Table.find (t : Table α id) (i : Int) : Option α := t.rows.find? (fun r => decide (id r = i))

def Table.push (t : Table α id) (a : α) (h : id a = t.next) : Table α id where
  rows := t.rows ++ [a]
  next := t.next + 1
  ids := by
    refine List.pairwise_append.2 ⟨t.ids, List.pairwise_singleton _ _, fun r hr b hb => ?_⟩
    rw [List.mem_singleton.1 hb, h]
    exact t.below r hr
  below := by
    intro r hr
    rcases List.mem_append.1 hr with hr | hr
    · exact Int.lt_trans (t.below r hr) (Int.lt_succ _)
    · rw [List.mem_singleton.1 hr, h]
      exact Int.lt_succ _

def Table.map (t : Table α id) (f : α → α) (hf : ∀ r, id (f r) = id r) : Table α id where
  rows := t.rows.map f
  next := t.next
  ids := by
    rw [List.pairwise_map]
    exact t.ids.imp (fun {a b} h => by rwa [hf a, hf b])
  below := by
    intro r hr
    obtain ⟨r₀, h₀, rfl⟩ := List.mem_map.1 hr
    rw [hf]
    exact t.below r₀ h₀

/-- UPDATE … WHERE id = `i`. -/
def Table.modify (t : Table α id) (i : Int) (f : α → α) (hf : ∀ r, id (f r) = id r) : Table α id :=
  t.map (fun r => if id r = i then f r else r) (fun r => by split; exacts [hf r, rfl])

/-- DELETE … WHERE id = `i`. -/
def Table.remove (t : Table α id) (i : Int) : Table α id where
  rows := t.rows.filter (fun r => decide (id r ≠ i))
  next := t.next
  ids := t.ids.filter _
  below := fun r hr => t.below r (List.mem_filter.1 hr).1

/-- An id that no row gets. -/
def Table.draw (t : Table α id) : Table α id where
  rows := t.rows
  next := t.next + 1
  ids := t.ids
  below := fun r hr => Int.lt_trans (t.below r hr) (Int.lt_succ _)

/-- INSERT … ON CONFLICT (`key`) DO UPDATE.  The id of the new row is drawn before the conflict is found. -/
def Table.upsert {κ : Type} [DecidableEq κ] (t : Table α id) (key : α → κ) (refresh : α → α) (new : α)
    (hr : ∀ r, id (refresh r) = id r) (hn : id new = t.next) : Table α id :=
  if key new ∈ t.rows.map key then
    (t.map (fun r => if key r = key new then refresh r else r) (fun r => by split; exacts [hr r, rfl])).draw
  else t.push new hn

/-! ## What the statements leave -/

theorem Table.nodup_keys (t : Table α id) : t.keys.Nodup :=
  List.pairwise_map.2 (t.ids.imp (fun h => Int.ne_of_lt h))

theorem Table.eq_of_id (t : Table α id) (r s : α) (hr : r ∈ t.rows) (hs : s ∈ t.rows) (h : id r = id s) : r = s :=
  List.inj_on_of_nodup_map t.nodup_keys hr hs h

theorem Table.mem_keys (t : Table α id) (i : Int) : i ∈ t.keys ↔ ∃ r ∈ t.rows, id r = i := List.mem_map

theorem Table.find_eq_some (t : Table α id) (i : Int) (r : α) : t.find i = some r ↔ r ∈ t.rows ∧ id r = i :=
  Upserts.lookup_eq_some t.rows t.nodup_keys i r

theorem Table.find_eq_none (t : Table α id) (i : Int) : t.find i = none ↔ i ∉ t.keys := Upserts.lookup_eq_none i t.rows

@[simp] theorem Table.keys_push (t : Table α id) (a : α) (h : id a = t.next) : (t.push a h).keys = t.keys ++ [t.next] := by
  simp [Table.keys, Table.push, h]

@[simp] theorem Table.keys_map (t : Table α id) (f : α → α) (hf : ∀ r, id (f r) = id r) : (t.map f hf).keys = t.keys := by
  simp [Table.keys, Table.map, hf]

@[simp] theorem Table.keys_modify (t : Table α id) (i : Int) (f : α → α) (hf : ∀ r, id (f r) = id r) :
    (t.modify i f hf).keys = t.keys :=
  t.keys_map _ _

theorem Table.mem_keys_remove (t : Table α id) (i j : Int) : j ∈ (t.remove i).keys ↔ j ∈ t.keys ∧ j ≠ i := by
  rw [Table.mem_keys, Table.mem_keys]
  constructor
  · rintro ⟨r, hr, rfl⟩
    obtain ⟨hm, hne⟩ := List.mem_filter.1 hr
    exact ⟨⟨r, hm, rfl⟩, of_decide_eq_true hne⟩
  · rintro ⟨⟨r, hm, rfl⟩, hne⟩
    exact ⟨r, List.mem_filter.2 ⟨hm, decide_eq_true hne⟩, rfl⟩

/-- Removing an id that is not there changes nothing. -/
theorem Table.remove_of_notMem (t : Table α id) (i : Int) (h : i ∉ t.keys) : t.remove i = t := by
  have hrows : (t.remove i).rows = t.rows := by
    refine List.filter_eq_self.2 (fun r hr => decide_eq_true (fun he => h ?_))
    exact (t.mem_keys i).2 ⟨r, hr, he⟩
  rcases t with ⟨rows, next, ids, below⟩
  simp only [Table.remove] at hrows ⊢
  congr

theorem Table.upsert_rows {κ : Type} [DecidableEq κ] (t : Table α id) (key : α → κ) (refresh : α → α) (new : α)
    (hr : ∀ r, id (refresh r) = id r) (hn : id new = t.next) :
    (t.upsert key refresh new hr hn).rows = Upserts.upsert key refresh new t.rows := by
  unfold Table.upsert Upserts.upsert
  split <;> rfl

theorem Table.upsert_next {κ : Type} [DecidableEq κ] (t : Table α id) (key : α → κ) (refresh : α → α) (new : α)
    (hr : ∀ r, id (refresh r) = id r) (hn : id new = t.next) : (t.upsert key refresh new hr hn).next = t.next + 1 := by
  unfold Table.upsert
  split <;> rfl

end Serials
