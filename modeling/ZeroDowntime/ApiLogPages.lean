import ZeroDowntime.ApiAuth
import ZeroDowntime.ApiPaginator
import ZeroDowntime.DeviceLogs
/-!
# ApiLogPages — the history of the audit log and of the logs, page by page

Four lists are sorted by a timestamp alone, most recent first, and cut into pages by the database.  Rows of one
transaction, or lines of one instant, have the same timestamp.
-/
namespace ZeroDowntime
namespace Api

open Logs (LogLevel)
open Paging (Arranged Complete Unsplit)

/-- A row of `audit_log`. -/
structure AuditLogModel where
  id : Int
  tableName : String
  recordId : String
  operation : String
  oldData : Option Value
  newData : Option Value
  changedBy : Int
  changedAt : Int

/-- A row of `device_logs`; its primary key is the time with the id. -/
structure DeviceLogModel where
  time : Int
  id : Nat
  deviceId : Int
  level : LogLevel
  message : List Char
  source : Option (List Char)
  deriving DecidableEq, Repr

structure ApplicationLogModel where
  time : Int
  id : Nat
  deviceId : Int
  applicationId : Int
  level : LogLevel
  message : List Char
  source : Option (List Char)
  deriving DecidableEq, Repr

/-- A query that a paginator cuts: the filters, and the column of ORDER BY … DESC. -/
structure Query (α : Type) where
  selects : α → Bool
  orderBy : α → Int

def Query.matching {α : Type} (q : Query α) (rows : List α) : List α := rows.filter q.selects

/-- A table under its primary key, of as many rows as `num_items` can count. -/
structure History (α κ : Type) (key : α → κ) extends Keyed α κ key where
  counted : rows.length ≤ 18446744073709551615

/-- `num_items` and `fetch_page` of a build, when the database returns the matching rows in the order of `returned`. -/
def Query.fetchPage {α : Type} (o : Overflow) (q : Query α) (rows returned : List α) (page pageSize : UInt64) :
    Option (List α × Nat) :=
  (Api.fetchPage o pageSize page returned).map (fun data => (data, (q.matching rows).length))

/-! ## The audit log -/

def listAuditLogs (tableName recordId : Option String) (changedBy : Option Int) (operation : Option String) :
    Query AuditLogModel where
  selects := fun m => eqIfGiven tableName m.tableName && eqIfGiven recordId m.recordId && eqIfGiven changedBy m.changedBy &&
    eqIfGiven operation m.operation
  orderBy := AuditLogModel.changedAt

/-- `data->>'key'`.  The text of an array or an object begins with a bracket and is no one's id; it is left out. -/
def Value.fieldText (data : Value) (key : String) : Option String :=
  (data.get key).bind (fun v =>
    match v with
    | .string s => some s
    | .number (.int n) => some (toString n)
    | .number (.float text) => some text
    | .bool b => some (if b then "true" else "false")
    | .null | .array _ | .object _ => none)

def getAuditLogsForDevice (deviceId : Int) : Query AuditLogModel where
  selects := fun m =>
    let deviceIdStr := toString deviceId
    (decide (m.tableName = "devices") && decide (m.recordId = deviceIdStr)) ||
      decide (m.oldData.bind (fun data => data.fieldText "device_id") = some deviceIdStr) ||
      decide (m.newData.bind (fun data => data.fieldText "device_id") = some deviceIdStr)
  orderBy := AuditLogModel.changedAt

/-! ## The logs -/

def severity : LogLevel → Nat
  | .trace => 0
  | .debug => 1
  | .info => 2
  | .warn => 3
  | .error => 4
  | .fatal => 5

def levelsAtLeast (min : LogLevel) : List LogLevel :=
  [.trace, .debug, .info, .warn, .error, .fatal].filter (fun level => decide (severity min ≤ severity level))

theorem mem_levelsAtLeast (min level : LogLevel) : level ∈ levelsAtLeast min ↔ severity min ≤ severity level := by
  unfold levelsAtLeast
  rw [List.mem_filter, decide_eq_true_eq, and_iff_right]
  cases level <;> decide

/-- The filters both kinds of log have: a severity and a range of times. -/
def inRange (minLevel : Option LogLevel) (fromTime toTime : Option Int) (level : LogLevel) (time : Int) : Bool :=
  minLevel.all (fun min => decide (level ∈ levelsAtLeast min)) && fromTime.all (fun t => decide (t ≤ time)) &&
    toTime.all (fun t => decide (time ≤ t))

def listDeviceLogs (deviceId : Option Int) (minLevel : Option LogLevel) (fromTime toTime : Option Int) :
    Query DeviceLogModel where
  selects := fun m => eqIfGiven deviceId m.deviceId && inRange minLevel fromTime toTime m.level m.time
  orderBy := DeviceLogModel.time

def listApplicationLogs (deviceId applicationId : Option Int) (minLevel : Option LogLevel) (fromTime toTime : Option Int) :
    Query ApplicationLogModel where
  selects := fun m => eqIfGiven deviceId m.deviceId && eqIfGiven applicationId m.applicationId &&
    inRange minLevel fromTime toTime m.level m.time
  orderBy := ApplicationLogModel.time

/-! ## The pages -/

/-- Whatever orders the queries for the pages answer in, the pages 0, 1, … contain each matching row exactly once.  They
are counted as long as 64 bits hold their offsets; the paginator rejects a page size of 0. -/
def Query.MissesNothing {α : Type} (o : Overflow) (q : Query α) (rows : List α) (pageSize : UInt64) : Prop :=
  pageSize ≠ 0 → ∀ returned : Nat → List α, (∀ page, Arranged q.orderBy (q.matching rows) (returned page)) →
    ∀ n, (q.matching rows).length ≤ n * pageSize.toNat → (∀ page < n, page * pageSize.toNat < 18446744073709551616) →
      ∃ pages : List (List α), (List.range n).map (fun page =>
          (q.fetchPage o rows (returned page) (UInt64.ofNat page) pageSize).map Prod.fst) = pages.map some ∧
        pages.flatten.Perm (q.matching rows)

/-- No page ends between two matching rows with the same timestamp. -/
def Query.Unsplit {α : Type} (q : Query α) (rows : List α) (pageSize : Nat) : Prop :=
  ∀ (t : Int) (page : Nat), ¬ ((q.matching rows).countP (fun m => decide (t < q.orderBy m)) < page * pageSize ∧
    page * pageSize < (q.matching rows).countP (fun m => decide (t ≤ q.orderBy m)))

theorem Query.fetchPage_eq {α : Type} (o : Overflow) (q : Query α) (rows returned : List α) (page : Nat)
    (pageSize : UInt64) (hs : pageSize ≠ 0) (h : page * pageSize.toNat < 18446744073709551616) :
    (q.fetchPage o rows returned (UInt64.ofNat page) pageSize).map Prod.fst =
      some (Paging.page pageSize.toNat page returned) := by
  have hpos : 0 < pageSize.toNat := Nat.pos_of_ne_zero (fun h0 => hs (UInt64.toNat_inj.1 h0))
  have hpage : (UInt64.ofNat page).toNat = page := by
    rw [UInt64.toNat_ofNat']
    exact Nat.mod_eq_of_lt ((Nat.le_mul_of_pos_right _ hpos).trans_lt h)
  rw [Query.fetchPage, Api.fetchPage_eq o pageSize _ returned hs (by rwa [hpage]), hpage]
  rfl

/-- The pages of a query are those of the rows, as long as 64 bits hold their offsets. -/
theorem Query.missesNothing_iff_complete {α : Type} (o : Overflow) (q : Query α) (rows : List α) (pageSize : UInt64)
    (hs : pageSize ≠ 0) : q.MissesNothing o rows pageSize ↔
      Complete q.orderBy (q.matching rows) pageSize.toNat 18446744073709551616 := by
  have hpages : ∀ (returned : Nat → List α) n, (∀ page < n, page * pageSize.toNat < 18446744073709551616) →
      (List.range n).map (fun page => (q.fetchPage o rows (returned page) (UInt64.ofNat page) pageSize).map Prod.fst) =
        ((List.range n).map (fun page => Paging.page pageSize.toNat page (returned page))).map some := by
    intro returned n hfit
    rw [List.map_map]
    refine List.map_congr_left (fun page hpage => ?_)
    exact q.fetchPage_eq o rows _ page pageSize hs (hfit page (List.mem_range.1 hpage))
  constructor
  · intro h returned harr n hn hfit
    obtain ⟨pages, heq, hperm⟩ := h hs returned harr n hn hfit
    rw [hpages returned n hfit] at heq
    rw [List.flatMap_def, List.map_injective_iff.2 (Option.some_injective _) heq]
    exact hperm
  · intro h _ returned harr n hn hfit
    refine ⟨_, hpages returned n hfit, ?_⟩
    rw [← List.flatMap_def]
    exact h returned harr n hn hfit

theorem Query.missesNothing_iff {α κ : Type} {key : α → κ} (o : Overflow) (t : History α κ key) (q : Query α)
    (pageSize : UInt64) : q.MissesNothing o t.rows pageSize ↔ q.Unsplit t.rows pageSize.toNat := by
  by_cases hs : pageSize = 0
  · subst hs
    refine ⟨fun _ _ page hcut => ?_, fun _ hne => absurd rfl hne⟩
    exact absurd hcut.1 (by rw [show (0 : UInt64).toNat = 0 from rfl, Nat.mul_zero]; exact Nat.not_lt_zero _)
  · rw [q.missesNothing_iff_complete o t.rows pageSize hs]
    refine Paging.pages_perm_iff (t.keys.of_map.filter _) _ _ ((List.length_filter_le _ _).trans ?_)
    exact Nat.le_succ_of_le t.counted

/-- **Each of the four lists misses and repeats nothing exactly if no page ends between two matching rows with the same
timestamp.** -/
theorem history_pages_iff (o : Overflow) (audit : History AuditLogModel Int AuditLogModel.id)
    (deviceLogs : History DeviceLogModel (Int × Nat) (fun m => (m.time, m.id)))
    (applicationLogs : History ApplicationLogModel (Int × Nat) (fun m => (m.time, m.id))) (pageSize : UInt64) :
    (∀ tableName recordId changedBy operation, (listAuditLogs tableName recordId changedBy operation).MissesNothing o
      audit.rows pageSize ↔ (listAuditLogs tableName recordId changedBy operation).Unsplit audit.rows pageSize.toNat) ∧
    (∀ deviceId, (getAuditLogsForDevice deviceId).MissesNothing o audit.rows pageSize ↔
      (getAuditLogsForDevice deviceId).Unsplit audit.rows pageSize.toNat) ∧
    (∀ deviceId minLevel fromTime toTime, (listDeviceLogs deviceId minLevel fromTime toTime).MissesNothing o
      deviceLogs.rows pageSize ↔
        (listDeviceLogs deviceId minLevel fromTime toTime).Unsplit deviceLogs.rows pageSize.toNat) ∧
    (∀ deviceId applicationId minLevel fromTime toTime,
      (listApplicationLogs deviceId applicationId minLevel fromTime toTime).MissesNothing o applicationLogs.rows pageSize ↔
        (listApplicationLogs deviceId applicationId minLevel fromTime toTime).Unsplit applicationLogs.rows
          pageSize.toNat) :=
  ⟨fun _ _ _ _ => Query.missesNothing_iff o audit _ pageSize, fun _ => Query.missesNothing_iff o audit _ pageSize,
    fun _ _ _ _ => Query.missesNothing_iff o deviceLogs _ pageSize,
    fun _ _ _ _ _ => Query.missesNothing_iff o applicationLogs _ pageSize⟩

/-- Two devices one transaction registered. -/
def oneTransaction : History AuditLogModel Int AuditLogModel.id where
  rows := [⟨1, "devices", "1", "INSERT", none, some .null, 1, 0⟩, ⟨2, "devices", "2", "INSERT", none, some .null, 1, 0⟩]
  keys := by decide
  counted := by decide

def oneTransactionReturned (page : Nat) : List AuditLogModel :=
  if page = 0 then oneTransaction.rows else oneTransaction.rows.reverse

/-- Two pages of one row each: the first row of one transaction is on both, the second on neither. -/
theorem oneTransaction_repeats :
    (∀ page, Arranged AuditLogModel.changedAt ((listAuditLogs none none none none).matching oneTransaction.rows)
      (oneTransactionReturned page)) ∧
    (List.range 2).map (fun page => ((listAuditLogs none none none none).fetchPage .panics oneTransaction.rows
      (oneTransactionReturned page) (UInt64.ofNat page) 1).map (fun r => r.1.map AuditLogModel.id)) =
        [some [1], some [1]] ∧
    ¬ (listAuditLogs none none none none).MissesNothing .panics oneTransaction.rows 1 := by
  have harr : ∀ page, Arranged AuditLogModel.changedAt ((listAuditLogs none none none none).matching oneTransaction.rows)
      (oneTransactionReturned page) := by
    intro page
    unfold oneTransactionReturned
    split
    · exact ⟨List.Perm.refl _, by simp [oneTransaction]⟩
    · exact ⟨List.reverse_perm _, by simp [oneTransaction]⟩
  refine ⟨harr, rfl, fun h => ?_⟩
  have hcomplete := ((listAuditLogs none none none none).missesNothing_iff_complete .panics _ 1 (by decide)).1 h
  have hperm := (hcomplete oneTransactionReturned harr 2 (by decide) (by decide)).map AuditLogModel.id
  exact absurd (hperm.nodup_iff.2 (by decide)) (by decide)

end Api
end ZeroDowntime
