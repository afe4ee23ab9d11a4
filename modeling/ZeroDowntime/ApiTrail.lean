import ZeroDowntime.ApiJournal
/-!
# ApiTrail — the audit log of a run, and what it gives back

`audit_log` after a sequence of calls on PostgreSQL: the triggers of the tracked tables append a row for each change.  Of
one record its entries are a chain from nothing to the row there is, so that the last of them says what the table does.
-/
namespace ZeroDowntime
namespace Api

open Versioned (Row Table)
open Journal (RowChange Fits applyAll Linked)

/-- A call, the user its triggers find, and the time of each of its changes: those of one transaction have one time. -/
structure AuditedCall where
  call : StoreCall
  changedBy : Int
  changedAt : Nat → Int

structure Audited where
  store : Store
  auditLog : List AuditLogModel

namespace Audited

variable (T : Texts) (tracked : List TableName)

/-- `audit_log_trigger_fn`, and `audit_log_trigger_pings_fn` for `pings`. -/
def auditLogTriggerFn (n : TableName) (id changedBy changedAt : Int) (c : RowChange n.Row) : AuditLogModel where
  id := id
  tableName := n.name
  recordId := toString (n.key c.row)
  operation := c.operation
  oldData := c.old.map (T.toJsonb n)
  newData := c.new.map (T.toJsonb n)
  changedBy := changedBy
  changedAt := changedAt

/-- The triggers of a call's changes, one after the other. -/
def fire (q : AuditedCall) (n : TableName) (next : Nat) : Nat → List (RowChange n.Row) → List AuditLogModel
  | _, [] => []
  | i, c :: cs => auditLogTriggerFn T n (next + i) q.changedBy (q.changedAt i) c :: fire q n next (i + 1) cs

def exec (a : Audited) (q : AuditedCall) : Audited where
  store := a.store.exec .postgres q.call
  auditLog :=
    let w := a.store.writes q.call
    if w.1 ∈ tracked then a.auditLog ++ fire T q w.1 (a.auditLog.length + 1) 0 w.2 else a.auditLog

def run (qs : List AuditedCall) (a : Audited) : Audited := qs.foldl (exec T tracked) a

/-- The tables and the audit log after a sequence of calls. -/
def after (qs : List AuditedCall) : Audited := run T tracked qs ⟨.empty, []⟩

end Audited

/-! ## The changes of one table -/

namespace Store

def changesOf (s : Store) (n : TableName) (c : StoreCall) : List (RowChange n.Row) :=
  if h : (s.writes c).1 = n then h ▸ (s.writes c).2 else []

/-- The changes of a table in a run. -/
def history (n : TableName) : List StoreCall → Store → List (RowChange n.Row)
  | [], _ => []
  | c :: calls, s => s.changesOf n c ++ history n calls (s.exec .postgres c)

theorem changesOf_self (s : Store) (c : StoreCall) : s.changesOf (s.writes c).1 c = (s.writes c).2 := dif_pos rfl

theorem changesOf_other (s : Store) (n : TableName) (c : StoreCall) (h : n ≠ (s.writes c).1) : s.changesOf n c = [] :=
  dif_neg (fun he => h he.symm)

theorem follows_changesOf (s : Store) (hi : s.Integral) (hs : s.db.Sound) (n : TableName) (c : StoreCall) :
    Follows n.key (s.rowsOf n) ((s.exec .postgres c).rowsOf n) (s.changesOf n c) := by
  have hw := exec_writes s hi hs c
  by_cases h : n = (s.writes c).1
  · subst h
    rw [changesOf_self]
    exact hw.follows
  · rw [changesOf_other s n c h, hw.frame n h]
    exact .nil _ _

theorem once_changesOf (s : Store) (hi : s.Integral) (hs : s.db.Sound) (n : TableName) (hn : n.versioned = true)
    (c : StoreCall) : ∀ d ∈ s.changesOf n c, n.Once d := by
  have hw := exec_writes s hi hs c
  by_cases h : n = (s.writes c).1
  · subst h
    rw [changesOf_self]
    exact hw.once hn
  · rw [changesOf_other s n c h]
    exact fun _ hd => absurd hd List.not_mem_nil

theorem follows_history (n : TableName) : ∀ (calls : List StoreCall) (s : Store), s.Integral → s.db.Sound →
    Follows n.key (s.rowsOf n) ((Store.run .postgres calls s).rowsOf n) (history n calls s)
  | [], _, _, _ => .nil _ _
  | c :: calls, s, hi, hs => by
    obtain ⟨hi', hs'⟩ := run_integral .postgres [c] s hi hs
    exact (follows_changesOf s hi hs n c).trans (follows_history n calls _ hi' hs')

theorem once_history (n : TableName) (hn : n.versioned = true) : ∀ (calls : List StoreCall) (s : Store), s.Integral →
    s.db.Sound → ∀ d ∈ history n calls s, n.Once d
  | [], _, _, _, _, hd => absurd hd List.not_mem_nil
  | c :: calls, s, hi, hs, d, hd => by
    obtain ⟨hi', hs'⟩ := run_integral .postgres [c] s hi hs
    rcases List.mem_append.1 hd with hd | hd
    · exact once_changesOf s hi hs n hn c d hd
    · exact once_history n hn calls _ hi' hs' d hd

end Store

/-! ## What the log says of one table -/

namespace Audited

/-- What an entry says, its place in the log and its author left out. -/
def image (e : AuditLogModel) : String × String × Option Value × Option Value :=
  (e.recordId, e.operation, e.oldData, e.newData)

variable (T : Texts) (tracked : List TableName)

def written (n : TableName) (c : RowChange n.Row) : String × String × Option Value × Option Value :=
  (toString (n.key c.row), c.operation, c.old.map (T.toJsonb n), c.new.map (T.toJsonb n))

def ofTable (n : TableName) (e : AuditLogModel) : Bool := decide (e.tableName = n.name)

theorem ofTable_fire (q : AuditedCall) (n m : TableName) (next : Nat) : ∀ (i : Nat) (cs : List (RowChange n.Row)),
    (fire T q n next i cs).filter (ofTable m) = if n = m then fire T q n next i cs else []
  | _, [] => (ite_self []).symm
  | i, c :: cs => by
    have ih := ofTable_fire q n m next (i + 1) cs
    by_cases h : n = m
    · rw [if_pos h] at ih ⊢
      have he : ofTable m (auditLogTriggerFn T n (next + i) q.changedBy (q.changedAt i) c) = true :=
        decide_eq_true (congrArg TableName.name h)
      rw [fire, List.filter_cons_of_pos he, ih]
    · rw [if_neg h] at ih ⊢
      have hne : ofTable m (auditLogTriggerFn T n (next + i) q.changedBy (q.changedAt i) c) = false :=
        decide_eq_false (fun he => h (TableName.name_injective he))
      rw [fire, List.filter_cons_of_neg (by rw [hne]; exact Bool.false_ne_true), ih]

theorem image_fire (q : AuditedCall) (n : TableName) (next : Nat) : ∀ (i : Nat) (cs : List (RowChange n.Row)),
    (fire T q n next i cs).map image = cs.map (written T n)
  | _, [] => rfl
  | i, c :: cs => congrArg (written T n c :: ·) (image_fire q n next (i + 1) cs)

theorem exec_image (a : Audited) (q : AuditedCall) (n : TableName) :
    ((exec T tracked a q).auditLog.filter (ofTable n)).map image =
      (a.auditLog.filter (ofTable n)).map image ++
        if n ∈ tracked then (a.store.changesOf n q.call).map (written T n) else [] := by
  show ((if (a.store.writes q.call).1 ∈ tracked then _ else a.auditLog).filter _).map _ = _
  by_cases h : n = (a.store.writes q.call).1
  · subst h
    rw [Store.changesOf_self]
    split
    · rw [List.filter_append, List.map_append, ofTable_fire, if_pos rfl, image_fire]
    · rw [List.append_nil]
  · rw [Store.changesOf_other _ _ _ h, List.map_nil, ite_self, List.append_nil]
    split
    · rw [List.filter_append, ofTable_fire, if_neg (fun he => h he.symm), List.append_nil]
    · rfl

theorem store_run : ∀ (qs : List AuditedCall) (a : Audited),
    (run T tracked qs a).store = Store.run .postgres (qs.map AuditedCall.call) a.store
  | [], _ => rfl
  | q :: qs, a => store_run qs (exec T tracked a q)

/-- **The entries of a tracked table are its changes, in their order.** -/
theorem run_image (n : TableName) : ∀ (qs : List AuditedCall) (a : Audited),
    ((run T tracked qs a).auditLog.filter (ofTable n)).map image =
      (a.auditLog.filter (ofTable n)).map image ++
        if n ∈ tracked then (Store.history n (qs.map AuditedCall.call) a.store).map (written T n) else []
  | [], a => by
    show _ = _ ++ if n ∈ tracked then [] else []
    rw [ite_self, List.append_nil]
    rfl
  | q :: qs, a => by
    have ih := run_image n qs (exec T tracked a q)
    rw [exec_image] at ih
    refine ih.trans ?_
    rw [List.append_assoc]
    congr 1
    split
    · rw [List.map_cons, Store.history, List.map_append]
      rfl
    · rfl

theorem after_image (n : TableName) (qs : List AuditedCall) :
    ((after T tracked qs).auditLog.filter (ofTable n)).map image =
      if n ∈ tracked then (Store.history n (qs.map AuditedCall.call) .empty).map (written T n) else [] :=
  run_image T tracked n qs ⟨.empty, []⟩

theorem run_extends : ∀ (qs : List AuditedCall) (a : Audited), a.auditLog <+: (run T tracked qs a).auditLog
  | [], a => List.prefix_rfl
  | q :: qs, a => by
    refine List.IsPrefix.trans ?_ (run_extends qs (exec T tracked a q))
    show a.auditLog <+: (if (a.store.writes q.call).1 ∈ tracked then _ else a.auditLog)
    split
    · exact List.prefix_append _ _
    · exact List.prefix_rfl

theorem after_append (qs later : List AuditedCall) :
    after T tracked (qs ++ later) = run T tracked later (after T tracked qs) :=
  List.foldl_append

/-! ## What the log says of one record -/

/-- The filter of `get_audit_logs_for_record`. -/
def getAuditLogsForRecord (tableName recordId : String) (m : AuditLogModel) : Bool :=
  decide (m.tableName = tableName) && decide (m.recordId = recordId)

/-- The entries of a record, as they were written. -/
def trail (a : Audited) (n : TableName) (k : Int) : List AuditLogModel :=
  a.auditLog.filter (getAuditLogsForRecord n.name (toString k))

/-- The row of a record, as JSON. -/
def current (a : Audited) (n : TableName) (k : Int) : Option Value :=
  (Upserts.lookup n.key k (a.store.rowsOf n)).map (T.toJsonb n)

/-- OLD and NEW of an entry. -/
def data (e : AuditLogModel) : Option Value × Option Value := (e.oldData, e.newData)

theorem trail_image (qs : List AuditedCall) (n : TableName) (k : Int) :
    ((after T tracked qs).trail n k).map image =
      if n ∈ tracked then ((Store.history n (qs.map AuditedCall.call) .empty).filter
        (fun c => decide (n.key c.row = k))).map (written T n) else [] := by
  have htext : ∀ i : Int, toString i = toString k ↔ i = k := fun i => Int.repr_inj
  have hsplit : ((after T tracked qs).trail n k).map image =
      (((after T tracked qs).auditLog.filter (ofTable n)).map image).filter (fun w => decide (w.1 = toString k)) := by
    rw [List.filter_map, List.filter_filter]
    refine congrArg _ (List.filter_congr (fun e _ => Bool.and_comm _ _))
  rw [hsplit, after_image]
  split
  · rw [List.filter_map]
    exact congrArg _ (List.filter_congr (fun c _ => decide_eq_decide.2 (htext _)))
  · rfl

/-- The typed changes of a record are a chain. -/
theorem linked_history (n : TableName) (k : Int) (calls : List StoreCall) :
    Linked none (Journal.of n.key k (Store.history n calls .empty))
      (Upserts.lookup n.key k ((Store.stored .postgres calls).rowsOf n)) := by
  have hf := Store.follows_history n calls .empty Store.empty_integral empty_sound
  have hempty : Store.empty.rowsOf n = [] := by cases n <;> rfl
  have hlink := Journal.linked k _ _ (Store.nodup_rowsOf .empty n) hf.fits
  rw [hf.rows, hempty] at hlink
  exact hlink

theorem store_after (qs : List AuditedCall) :
    (after T tracked qs).store = Store.stored .postgres (qs.map AuditedCall.call) :=
  store_run T tracked qs ⟨.empty, []⟩

theorem linked_trail (qs : List AuditedCall) (n : TableName) (hn : n ∈ tracked) (k : Int) :
    Linked none (((after T tracked qs).trail n k).map data) ((after T tracked qs).current T n k) := by
  have hdata : ((after T tracked qs).trail n k).map data =
      (((after T tracked qs).trail n k).map image).map (fun w => (w.2.2.1, w.2.2.2)) := by
    rw [List.map_map]
    rfl
  rw [hdata, trail_image, if_pos hn, List.map_map, current, store_after]
  have hlink := (linked_history n k (qs.map AuditedCall.call)).map (T.toJsonb n)
  rw [Journal.of, List.map_map] at hlink
  exact hlink

/-- **The audit log gives the tables back, as they were at any moment of any run**: the entries of a record of a tracked
table are a chain from nothing to the row there is at that moment, each starting from the row the one before has left; the
last of them holds the row, or nothing if it has been removed; later calls only append.  A table that is not tracked has
no entries. -/
theorem audit_log_recovers (qs later : List AuditedCall) (n : TableName) (k : Int) :
    (after T tracked qs).auditLog <+: (after T tracked (qs ++ later)).auditLog ∧
    (n ∈ tracked →
      Linked none (((after T tracked qs).trail n k).map data) ((after T tracked qs).current T n k) ∧
      (after T tracked qs).current T n k = (((after T tracked qs).trail n k).getLast?.map AuditLogModel.newData).getD none) ∧
    (n ∉ tracked → (after T tracked qs).trail n k = []) := by
  refine ⟨?_, fun hn => ⟨linked_trail T tracked qs n hn k, ?_⟩, fun hn => ?_⟩
  · rw [after_append]
    exact run_extends T tracked later _
  · have hlast := (linked_trail T tracked qs n hn k).getLast
    rwa [List.getLast?_map, Option.map_map] at hlast
  · have himage := trail_image T tracked qs n k
    rw [if_neg hn] at himage
    exact List.map_eq_nil_iff.1 himage

/-! ## Rows that are retired and never removed -/

/-- A chain of changes that retire a row once has one entry or two. -/
theorem once_chain {n : TableName} {cs : List (RowChange n.Row)} {b : Option n.Row} (honce : ∀ c ∈ cs, n.Once c)
    (h : Linked none (cs.map (fun c => (c.old, c.new))) b) :
    (cs = [] ∧ b = none) ∨ (∃ r, cs = [.insert r] ∧ b = some r ∧ n.active r = true) ∨
      ∃ r r', cs = [.insert r, .update r r'] ∧ b = some r' ∧ n.active r' = false := by
  cases cs with
  | nil => exact .inl ⟨rfl, h.symm⟩
  | cons c cs =>
    obtain ⟨r, rfl, hr⟩ | ⟨r, r', rfl, -⟩ := honce c List.mem_cons_self
    · cases cs with
      | nil => exact .inr (.inl ⟨r, rfl, h.2.symm, hr⟩)
      | cons d cs =>
        obtain ⟨r₁, rfl, -⟩ | ⟨r₁, r', rfl, -, hr'⟩ := honce d (List.mem_cons_of_mem _ List.mem_cons_self)
        · exact absurd h.2.1.symm (Option.some_ne_none r)
        · obtain rfl : r₁ = r := Option.some.inj h.2.1
          cases cs with
          | nil => exact .inr (.inr ⟨r₁, r', rfl, h.2.2.symm, hr'⟩)
          | cons e cs =>
            obtain ⟨r₂, rfl, -⟩ | ⟨r₂, r₃, rfl, hr₂, -⟩ :=
              honce e (List.mem_cons_of_mem _ (List.mem_cons_of_mem _ List.mem_cons_self))
            · exact absurd h.2.2.1.symm (Option.some_ne_none r')
            · obtain rfl : r₂ = r' := Option.some.inj h.2.2.1
              rw [hr'] at hr₂
              exact absurd hr₂ Bool.false_ne_true
    · exact absurd h.1 (Option.some_ne_none r)

/-- **A configuration, an assignment or an OS version has one entry while it is active and two once it is retired**: what it
was created as and what has retired it, whatever was called and however often. -/
theorem versioned_trail (qs : List AuditedCall) (n : TableName) (hn : n ∈ tracked) (hv : n.versioned = true) (k : Int) :
    ((after T tracked qs).trail n k).map AuditLogModel.operation =
      match Upserts.lookup n.key k ((after T tracked qs).store.rowsOf n) with
      | none => []
      | some r => if n.active r then ["INSERT"] else ["INSERT", "UPDATE"] := by
  have hops : ((after T tracked qs).trail n k).map AuditLogModel.operation =
      (((after T tracked qs).trail n k).map image).map (fun w => w.2.1) := by
    rw [List.map_map]
    rfl
  have hlink := linked_history n k (qs.map AuditedCall.call)
  have honce := Store.once_history n hv (qs.map AuditedCall.call) .empty Store.empty_integral empty_sound
  rw [hops, trail_image, if_pos hn, List.map_map, store_after]
  unfold Journal.of at hlink
  generalize (Store.history n (qs.map AuditedCall.call) .empty) = cs at hlink honce ⊢
  rcases once_chain (fun c hc => honce c (List.mem_filter.1 hc).1) hlink with ⟨hc, hb⟩ | ⟨r, hc, hb, hr⟩ | ⟨r, r', hc, hb, hr⟩
  · rw [hc, hb]
    rfl
  · rw [hc, hb]
    simp only [hr, if_true]
    rfl
  · rw [hc, hb]
    simp only [hr, Bool.false_eq_true, if_false]
    rfl

/-- An OS version that is updated once. -/
def updatedOnce : List AuditedCall :=
  [⟨.versioned (.addOsVersion "a" "1" none), 1, fun _ => 5⟩, ⟨.versioned (.updateOsVersion 1 "b" "1" none none), 1, fun _ => 6⟩]

def plainTexts : Texts := ⟨fun t => toString t, fun _ => "null"⟩

theorem updatedOnce_trail :
    ((after plainTexts TableName.all updatedOnce).trail .osVersions 1).map AuditLogModel.operation = ["INSERT", "UPDATE"] :=
  versioned_trail plainTexts TableName.all updatedOnce .osVersions (by decide) rfl 1

/-! ## The history of a device -/

/-- The change is one of the device itself, or of a row that was or is for it. -/
def concerns (deviceId : Int) (n : TableName) (c : RowChange n.Row) : Bool :=
  (decide (n = .devices) && decide (n.key c.row = deviceId)) || decide (c.old.bind n.deviceId = some deviceId) ||
    decide (c.new.bind n.deviceId = some deviceId)

/-- What `get_audit_logs_for_device` looks at in an entry of the table. -/
def selectsImage (deviceId : Int) (n : TableName) (w : String × String × Option Value × Option Value) : Bool :=
  (decide (n.name = "devices") && decide (w.1 = toString deviceId)) ||
    decide (w.2.2.1.bind (fun data => data.fieldText "device_id") = some (toString deviceId)) ||
    decide (w.2.2.2.bind (fun data => data.fieldText "device_id") = some (toString deviceId))

theorem fieldText_data (deviceId : Int) (n : TableName) (r : Option n.Row) :
    (r.map (T.toJsonb n)).bind (fun data => data.fieldText "device_id") = some (toString deviceId) ↔
      r.bind n.deviceId = some deviceId := by
  cases r with
  | none => simp
  | some r =>
    rw [Option.map_some, Option.bind_some, T.fieldText_toJsonb n r, Option.bind_some]
    cases n.deviceId r with
    | none => simp
    | some d =>
      rw [Option.map_some, Option.some.injEq, Option.some.injEq]
      exact Int.repr_inj

theorem selectsImage_written (deviceId : Int) (n : TableName) (c : RowChange n.Row) :
    selectsImage deviceId n (written T n c) = concerns deviceId n c := by
  have hname : n.name = "devices" ↔ n = .devices := ⟨fun h => TableName.name_injective h, fun h => h ▸ rfl⟩
  have hkey : toString (n.key c.row) = toString deviceId ↔ n.key c.row = deviceId := Int.repr_inj
  unfold selectsImage concerns written
  simp only [fieldText_data T deviceId n, hname, hkey]

/-- Each entry is one of a tracked table. -/
theorem run_tables : ∀ (qs : List AuditedCall) (a : Audited),
    (∀ e ∈ a.auditLog, ∃ n ∈ tracked, ofTable n e = true) →
    ∀ e ∈ (run T tracked qs a).auditLog, ∃ n ∈ tracked, ofTable n e = true
  | [], _, h => h
  | q :: qs, a, h => by
    refine run_tables qs (exec T tracked a q) (fun e he => ?_)
    have he : e ∈ (if (a.store.writes q.call).1 ∈ tracked then _ else a.auditLog) := he
    split at he
    · rename_i hn
      rcases List.mem_append.1 he with he | he
      · exact h e he
      · refine ⟨_, hn, ?_⟩
        have hall := ofTable_fire T q (a.store.writes q.call).1 (a.store.writes q.call).1 (a.auditLog.length + 1) 0
          (a.store.writes q.call).2
        rw [if_pos rfl] at hall
        exact List.filter_eq_self.1 hall e he
    · exact h e he

/-- **The history of a device is the changes that concern it, and no others**: for each tracked table, the entries listed are
those of its changes whose row was or is the device's, in their order. -/
theorem device_history (qs : List AuditedCall) (deviceId : Int) :
    (∀ n ∈ tracked, ((after T tracked qs).auditLog.filter (fun e =>
        ofTable n e && (getAuditLogsForDevice deviceId).selects e)).map image =
      ((Store.history n (qs.map AuditedCall.call) .empty).filter (concerns deviceId n)).map (written T n)) ∧
    ∀ e ∈ (after T tracked qs).auditLog, ∃ n ∈ tracked, ofTable n e = true := by
  refine ⟨fun n hn => ?_, run_tables T tracked qs ⟨.empty, []⟩ (fun _ h => absurd h List.not_mem_nil)⟩
  have hsplit : ((after T tracked qs).auditLog.filter (fun e =>
      ofTable n e && (getAuditLogsForDevice deviceId).selects e)).map image =
      (((after T tracked qs).auditLog.filter (ofTable n)).map image).filter (selectsImage deviceId n) := by
    rw [List.filter_map, List.filter_filter]
    refine congrArg _ (List.filter_congr (fun e _ => ?_))
    rw [Bool.and_comm]
    by_cases h : e.tableName = n.name
    · unfold Function.comp selectsImage
      rw [← h]
      rfl
    · rw [show ofTable n e = false from decide_eq_false h, Bool.and_false, Bool.and_false]
  rw [hsplit, after_image, if_pos hn, List.filter_map]
  exact congrArg _ (List.filter_congr (fun c _ => selectsImage_written T deviceId n c))

end Audited

end Api
end ZeroDowntime
