import ZeroDowntime.Journal
import ZeroDowntime.Statements
/-!
# StatementChanges — the rows the statements of an append-only entity change, as its triggers see them

Each list goes with the statement of its name: what a refused statement or a transaction that is dropped has changed is
nothing, and a replacement that stops after its INSERT has changed one row.
-/
namespace Versioned
namespace Entity

open Journal (RowChange Fits applyAll)

variable {ε A α : Type} (E : Entity ε A α) (enforced : Bool) (fk : α → Except ε Unit)

def insertChanges (t : Table α) (m : A) : List (RowChange (Row α)) :=
  match (E.insert enforced fk t m).1 with
  | .error _ => []
  | .ok new => [.insert new]

def addReplacingChanges (old : α → Bool) (m : List (Row α) → A) (t : Table α) : List (RowChange (Row α)) :=
  match (E.addReplacing enforced fk old m t).1 with
  | .error _ => []
  | .ok new =>
    .insert new ::
      (t.rows.filter (fun r => r.active && old r.data)).map (fun o => .update o (o.supersede new.id))

def replaceChanges (id : Int) (m : Row α → A) (t : Table α) (failure : Option ε) : List (RowChange (Row α)) :=
  match t.findActive id with
  | none => []
  | some current =>
    match (E.insert enforced fk t (m current)).1 with
    | .error _ => []
    | .ok new =>
      match E.beforeUpdate current.data, failure with
      | .ok _, none => [.insert new, .update current (current.supersede new.id)]
      | _, _ => [.insert new]

def deleteChanges (now id : Int) (t : Table α) : List (RowChange (Row α)) :=
  match t.findActive id with
  | none => []
  | some current =>
    match E.beforeUpdate current.data with
    | .error _ => []
    | .ok _ => [.update current (current.softDelete now)]

/-- The changes fit the table, lead from it to `t'`, and are those of rows that come into being active and are retired
once. -/
structure Trail (t t' : Table α) (cs : List (RowChange (Row α))) : Prop where
  fits : Fits Row.id t.rows cs
  rows : applyAll Row.id t.rows cs = t'.rows
  once : ∀ c ∈ cs, (∃ r, c = .insert r ∧ r.active = true) ∨
    ∃ r r', c = .update r r' ∧ r.active = true ∧ r'.active = false

theorem Trail.nil (t : Table α) : Trail t t [] := ⟨trivial, rfl, fun _ h => absurd h List.not_mem_nil⟩

theorem newRow_notMem (t : Table α) (a : α) : (t.newRow a).id ∉ t.rows.map Row.id := by
  intro h
  obtain ⟨r, hr, hid⟩ := List.mem_map.1 h
  exact Int.ne_of_lt (t.id_lt_next r hr) hid

/-- An INSERT, then an UPDATE of each of the rows it takes the place of. -/
theorem trail_replaceWhere (t : Table α) (gone : Row α → Bool) (a : α) (h : t.next < idLimit)
    (hlive : ∀ r ∈ t.rows, gone r = true → r.active = true) :
    Trail t (t.replaceWhere gone a)
      (.insert (t.newRow a) :: (t.rows.filter gone).map (fun o => .update o (o.supersede t.next))) := by
  have hnew := newRow_notMem t a
  have hins : (RowChange.insert (t.newRow a)).Fits Row.id t.rows := hnew
  have hnd := Journal.nodup_apply t.nodup_ids hins
  obtain ⟨hfits, happly⟩ := Journal.fits_updates (fun r => Row.supersede_id t.next r) (t.rows.filter gone)
    ((RowChange.insert (t.newRow a)).apply Row.id t.rows) hnd
    (fun o ho => List.mem_append_left _ (List.mem_filter.1 ho).1) ((List.filter_sublist.map _).nodup t.nodup_ids)
  refine ⟨⟨hins, hfits⟩, happly.trans ?_, fun c hc => ?_⟩
  · rw [Table.replaceWhere_rows t gone a h, RowChange.apply, List.map_append]
    have hgone : ∀ r ∈ t.rows, r.id ∈ (t.rows.filter gone).map Row.id ↔ gone r = true := fun r hr => by
      rw [List.mem_map]
      constructor
      · rintro ⟨o, ho, hid⟩
        obtain ⟨hm, hg⟩ := List.mem_filter.1 ho
        exact t.eq_of_id o r hm hr hid ▸ hg
      · exact fun hg => ⟨r, List.mem_filter.2 ⟨hr, hg⟩, rfl⟩
    congr 1
    · exact List.map_congr_left (fun r hr => if_congr (hgone r hr) rfl rfl)
    · rw [List.map_singleton, if_neg (fun hin => hnew ((List.filter_sublist.map _).subset hin))]
  · rcases List.mem_cons.1 hc with rfl | hc
    · exact .inl ⟨_, rfl, rfl⟩
    · obtain ⟨o, ho, rfl⟩ := List.mem_map.1 hc
      obtain ⟨hm, hg⟩ := List.mem_filter.1 ho
      exact .inr ⟨o, _, rfl, hlive o hm hg, o.supersede_active _⟩

theorem trail_insert (t : Table α) (m : A) :
    Trail t (E.insert enforced fk t m).2 (E.insertChanges enforced fk t m) := by
  unfold insertChanges insert
  cases ha : E.accept enforced fk t m with
  | error e => exact .nil t
  | ok a =>
    have := trail_replaceWhere t (fun _ => false) a (E.accept_next enforced fk t m a ha) (fun _ _ h => by cases h)
    rw [← push_eq_replaceWhere, List.filter_false] at this
    exact this

theorem trail_addReplacing (old : α → Bool) (m : List (Row α) → A) (t : Table α) (hs : E.Sound t) :
    Trail t (E.addReplacing enforced fk old m t).2 (E.addReplacingChanges enforced fk old m t) := by
  unfold addReplacingChanges
  rw [E.addReplacing_spec enforced fk old m t hs]
  cases ha : E.accept enforced fk t (m (t.rows.filter (fun r => r.active && old r.data))) with
  | error e => exact .nil t
  | ok a =>
    exact trail_replaceWhere t _ a (E.accept_next enforced fk t _ a ha) (fun r _ h => (Bool.and_eq_true _ _ ▸ h).1)

theorem filter_id (t : Table α) (r : Row α) (hr : r ∈ t.rows) : t.rows.filter (fun s => decide (s.id = r.id)) = [r] := by
  have hnd := t.nodup_ids
  refine List.perm_singleton.1 ((List.perm_ext_iff_of_nodup (hnd.of_map.filter _) (List.nodup_singleton r)).2 fun s => ?_)
  rw [List.mem_filter, List.mem_singleton, decide_eq_true_eq]
  exact ⟨fun ⟨hs, hid⟩ => t.eq_of_id s r hs hr hid, fun he => he.symm ▸ ⟨hr, rfl⟩⟩

theorem trail_replace (notFound : ε) (id : Int) (m : Row α → A) (t : Table α) (failure : Option ε) (hs : E.Sound t) :
    Trail t (E.replace enforced fk notFound id m t failure).2 (E.replaceChanges enforced fk id m t failure) := by
  unfold replaceChanges
  rw [E.replace_failing enforced fk notFound id m t failure hs]
  cases hf : t.findActive id with
  | none => exact .nil t
  | some current =>
    obtain ⟨hm, rfl, hact⟩ := (t.findActive_eq_some id current).1 hf
    unfold insert
    cases ha : E.accept enforced fk t (m current) with
    | error e => simp only [ha]; exact .nil t
    | ok a =>
      simp only [ha, hs current hm]
      have := trail_replaceWhere t (fun r => failure.isNone && decide (r.id = current.id)) a
        (E.accept_next enforced fk t _ a ha)
        (fun r hr h => t.eq_of_id r current hr hm (of_decide_eq_true ((Bool.and_eq_true _ _).mp h).2) ▸ hact)
      cases failure with
      | some e =>
        simp only [Option.isNone_some, Bool.false_and, List.filter_false] at this ⊢
        exact this
      | none =>
        simp only [Option.isNone_none, Bool.true_and, filter_id t current hm] at this ⊢
        exact this

theorem trail_delete (now id : Int) (t : Table α) : Trail t (E.delete now id t).2 (E.deleteChanges now id t) := by
  unfold deleteChanges delete
  cases hf : t.findActive id with
  | none => exact .nil t
  | some current =>
    obtain ⟨hm, -, hact⟩ := (t.findActive_eq_some id current).1 hf
    cases hu : E.beforeUpdate current.data with
    | error e => simp only [hu]; exact .nil t
    | ok u =>
      simp only [hu]
      obtain ⟨hfits, happly⟩ := Journal.fits_updates (f := fun r : Row α => r.softDelete now) (fun r => rfl) [current] t.rows
        t.nodup_ids (fun o ho => List.mem_singleton.1 ho ▸ hm) (List.nodup_singleton _)
      refine ⟨hfits, happly.trans ?_, fun c hc => ?_⟩
      · rw [Table.softDelete_rows]
        exact List.map_congr_left (fun r _ => if_congr (by simp) rfl rfl)
      · exact .inr ⟨current, _, List.mem_singleton.1 hc, hact, current.softDelete_active now⟩

end Entity
end Versioned
