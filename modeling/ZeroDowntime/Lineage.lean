import Mathlib.Logic.Relation
import ZeroDowntime.Statements
/-!
# Lineage — what the history of an append-only table keeps

Rows are added and marked, and that is all: a later table has every row of an earlier one, with its payload and with the
marks it had (`Table.Grows`).  A mark of succession names a row with a larger key, so that going from row to successor
comes to an end (`Table.Chained.ends`).
-/
namespace Versioned

variable {α : Type}

theorem Row.active_eq_true (r : Row α) : r.active = true ↔ r.deletedAt = none ∧ r.supersededBy = none := by
  simp [Row.active]

/-- `r'` is `r` at a later time: a mark that was set is as it was. -/
structure Row.Later (r r' : Row α) : Prop where
  id : r'.id = r.id
  data : r'.data = r.data
  deletedAt : ∀ now, r.deletedAt = some now → r'.deletedAt = some now
  supersededBy : ∀ n, r.supersededBy = some n → r'.supersededBy = some n

theorem Row.Later.refl (r : Row α) : r.Later r := ⟨rfl, rfl, fun _ h => h, fun _ h => h⟩

theorem Row.Later.trans {r r' r'' : Row α} (h : r.Later r') (h' : r'.Later r'') : r.Later r'' :=
  ⟨h'.id.trans h.id, h'.data.trans h.data, fun now hd => h'.deletedAt now (h.deletedAt now hd),
    fun n hs => h'.supersededBy n (h.supersededBy n hs)⟩

/-- An active row has no mark to keep. -/
theorem Row.later_of_active {r r' : Row α} (ha : r.active = true) (hid : r'.id = r.id) (hdata : r'.data = r.data) :
    r.Later r' := by
  obtain ⟨hd, hs⟩ := r.active_eq_true.1 ha
  refine ⟨hid, hdata, fun now h => ?_, fun n h => ?_⟩
  · rw [hd] at h
    cases h
  · rw [hs] at h
    cases h

/-- **No row disappears, no column of a row changes, and a mark once set stays.** -/
def Table.Grows (t t' : Table α) : Prop := ∀ r ∈ t.rows, ∃ r' ∈ t'.rows, r.Later r'

theorem Table.Grows.refl (t : Table α) : t.Grows t := fun r hr => ⟨r, hr, .refl r⟩

theorem Table.Grows.trans {t t' t'' : Table α} (h : t.Grows t') (h' : t'.Grows t'') : t.Grows t'' := by
  intro r hr
  obtain ⟨r', hr', hl⟩ := h r hr
  obtain ⟨r'', hr'', hl'⟩ := h' r' hr'
  exact ⟨r'', hr'', hl.trans hl'⟩

/-- The mark of `r` names `s`. -/
def Table.Succeeds (t : Table α) (r s : Row α) : Prop := r ∈ t.rows ∧ s ∈ t.rows ∧ r.supersededBy = some s.id

/-- A superseded row names a row of the table with a larger key, and no row carries both marks. -/
structure Table.Chained (t : Table α) : Prop where
  successor : ∀ r ∈ t.rows, ∀ n, r.supersededBy = some n → r.id < n ∧ ∃ s ∈ t.rows, s.id = n
  oneMark : ∀ r ∈ t.rows, r.supersededBy = none ∨ r.deletedAt = none

theorem Table.chained_empty : (Table.empty α).Chained :=
  ⟨fun _ h => absurd h List.not_mem_nil, fun _ h => absurd h List.not_mem_nil⟩

theorem Table.Chained.id_lt {t : Table α} (h : t.Chained) {r s : Row α} (hs : Relation.TransGen t.Succeeds r s) :
    r.id < s.id := by
  induction hs with
  | single hrs => exact (h.successor _ hrs.1 _ hrs.2.2).1
  | tail _ hbc ih => exact Int.lt_trans ih (h.successor _ hbc.1 _ hbc.2.2).1

/-- **From any row the marks of succession lead to a row that is not superseded**, since keys grow along them. -/
theorem Table.Chained.ends {t : Table α} (h : t.Chained) : ∀ (k : Nat) (r : Row α), r ∈ t.rows → t.next - r.id ≤ k →
    ∃ s ∈ t.rows, Relation.ReflTransGen t.Succeeds r s ∧ s.supersededBy = none
  | 0, r, hr, hk => by
    have := t.id_lt_next r hr
    omega
  | k + 1, r, hr, hk => by
    cases hn : r.supersededBy with
    | none => exact ⟨r, hr, .refl, hn⟩
    | some n =>
      obtain ⟨hlt, s, hs, rfl⟩ := h.successor r hr n hn
      obtain ⟨q, hq, hsq, hend⟩ := h.ends k s hs (by omega)
      exact ⟨q, hq, .head ⟨hr, hs, hn⟩ hsq, hend⟩

/-- What a history of a table keeps: `t` at some moment, `t'` at a later one. -/
structure Table.AppendOnly (t t' : Table α) : Prop where
  grows : t.Grows t'
  chained : t'.Chained
  acyclic : ∀ r s, Relation.TransGen t'.Succeeds r s → r.id < s.id
  ends : ∀ r ∈ t'.rows, ∃ s ∈ t'.rows, Relation.ReflTransGen t'.Succeeds r s ∧ s.supersededBy = none ∧
    (s.active = true ∨ s.deletedAt.isSome = true)

theorem Table.Grows.appendOnly {t t' : Table α} (h : t.Grows t') (hc : t'.Chained) : t.AppendOnly t' where
  grows := h
  chained := hc
  acyclic := fun _ _ hs => hc.id_lt hs
  ends := fun r hr => by
    obtain ⟨s, hs, hpath, hend⟩ := hc.ends (t'.next - r.id).toNat r hr (Int.self_le_toNat _)
    refine ⟨s, hs, hpath, hend, ?_⟩
    cases hd : s.deletedAt with
    | none => exact .inl (s.active_eq_true.2 ⟨hd, hend⟩)
    | some now => exact .inr rfl

namespace Entity

variable {ε A : Type} {E : Entity ε A α} {enforced : Bool} {fk : α → Except ε Unit} {t t' : Table α}

/-- **Every statement keeps the rows and their marks**: it marks active rows only. -/
theorem grows_change (h : Change E enforced fk t t') : t.Grows t' := by
  cases h with
  | same => exact .refl t
  | replaced m gone a ha hlive =>
    intro r hr
    refine ⟨_, (t.mem_replaceWhere gone a (E.accept_next enforced fk t m a ha) _).2 (.inl ⟨r, hr, rfl⟩), ?_⟩
    by_cases hg : gone r = true
    · rw [if_pos hg]
      exact Row.later_of_active (hlive r hr hg) rfl rfl
    · rw [if_neg hg]
      exact .refl r
  | deleted s now hs hlive =>
    intro r hr
    refine ⟨if r.id = s.id then r.softDelete now else r, List.mem_map.2 ⟨r, hr, rfl⟩, ?_⟩
    by_cases hid : r.id = s.id
    · rw [if_pos hid]
      exact Row.later_of_active (t.eq_of_id r s hr hs hid ▸ hlive) rfl rfl
    · rw [if_neg hid]
      exact .refl r

theorem chained_change (hc : t.Chained) (h : Change E enforced fk t t') : t'.Chained := by
  have hgrows := grows_change h
  have hstill : ∀ n, (∃ s ∈ t.rows, s.id = n) → ∃ s ∈ t'.rows, s.id = n := by
    rintro n ⟨s, hs, rfl⟩
    obtain ⟨s', hs', hl⟩ := hgrows s hs
    exact ⟨s', hs', hl.id⟩
  cases h with
  | same => exact hc
  | replaced m gone a ha hlive =>
    have hmem := t.mem_replaceWhere gone a (E.accept_next enforced fk t m a ha)
    constructor
    · intro r hr n hn
      rcases (hmem r).1 hr with ⟨r₀, h₀, rfl⟩ | rfl
      · by_cases hg : gone r₀ = true
        · -- the successor is the new row
          rw [if_pos hg] at hn ⊢
          obtain rfl := Option.some.inj hn
          exact ⟨t.id_lt_next r₀ h₀, t.newRow a, (hmem _).2 (.inr rfl), rfl⟩
        · rw [if_neg hg] at hn ⊢
          obtain ⟨hlt, hs⟩ := hc.successor r₀ h₀ n hn
          exact ⟨hlt, hstill n hs⟩
      · cases hn
    · intro r hr
      rcases (hmem r).1 hr with ⟨r₀, h₀, rfl⟩ | rfl
      · by_cases hg : gone r₀ = true
        · rw [if_pos hg]
          exact .inr (r₀.active_eq_true.1 (hlive r₀ h₀ hg)).1
        · rw [if_neg hg]
          exact hc.oneMark r₀ h₀
      · exact .inl rfl
  | deleted s now hs hlive =>
    constructor
    · intro r hr n hn
      obtain ⟨r₀, h₀, rfl⟩ := List.mem_map.1 hr
      have hn₀ : r₀.supersededBy = some n := by split at hn <;> exact hn
      obtain ⟨hlt, hsucc⟩ := hc.successor r₀ h₀ n hn₀
      refine ⟨?_, hstill n hsucc⟩
      split <;> exact hlt
    · intro r hr
      obtain ⟨r₀, h₀, rfl⟩ := List.mem_map.1 hr
      by_cases hid : r₀.id = s.id
      · rw [if_pos hid]
        exact .inl (r₀.active_eq_true.1 (t.eq_of_id r₀ s h₀ hs hid ▸ hlive)).2
      · rw [if_neg hid]
        exact hc.oneMark r₀ h₀

end Entity

end Versioned
