import ZeroDowntime.Ranked
import ZeroDowntime.ApiWrites
/-!
# ApiReads — what a device is told to run

The two queries that resolve a device's assignments read the active rows of the device and of its group, ordered by
`device_id` descending and then by `id`.  The first OS assignment wins; of the application assignments the first one of
every application does.  Where a row without a device stands in that order depends on the backend.
-/
namespace ZeroDowntime
namespace Api

open Versioned (Row Table)
open Ranked (First Reads keepFirst)

/-! ## Reading order -/

/-- Where `DESC` without a NULLS clause puts the rows that are NULL. -/
inductive NullOrder
  | first
  | last
  deriving DecidableEq, Repr

def Backend.nullOrder : Backend → NullOrder
  | .postgres => .first
  | .sqlite => .last

def NullOrder.descLt (no : NullOrder) : Option Int → Option Int → Bool
  | none, none => false
  | none, some _ => decide (no = .first)
  | some _, none => decide (no = .last)
  | some a, some b => decide (b < a)

/-- ORDER BY device_id DESC, id ASC. -/
def NullOrder.readLe {α : Type} (no : NullOrder) (deviceId : α → Option Int) (r s : Row α) : Prop :=
  no.descLt (deviceId r.data) (deviceId s.data) = true ∨ (deviceId r.data = deviceId s.data ∧ r.id ≤ s.id)

instance {α : Type} (no : NullOrder) (deviceId : α → Option Int) : DecidableRel (no.readLe deviceId) := fun r s => by
  unfold NullOrder.readLe; infer_instance

@[simp] theorem NullOrder.descLt_self (no : NullOrder) (a : Option Int) : no.descLt a a = false := by
  cases a <;> simp [NullOrder.descLt]

theorem NullOrder.descLt_total (no : NullOrder) (a b : Option Int) :
    no.descLt a b = true ∨ a = b ∨ no.descLt b a = true := by
  cases no <;> cases a <;> cases b <;> simp [NullOrder.descLt]
  all_goals omega

theorem NullOrder.descLt_asymm (no : NullOrder) (a b : Option Int) (h : no.descLt a b = true) :
    no.descLt b a = false := by
  cases no <;> cases a <;> cases b <;> simp [NullOrder.descLt] at h ⊢
  all_goals omega

theorem NullOrder.descLt_trans (no : NullOrder) (a b c : Option Int) (hab : no.descLt a b = true)
    (hbc : no.descLt b c = true) : no.descLt a c = true := by
  cases no <;> cases a <;> cases b <;> cases c <;> simp [NullOrder.descLt] at hab hbc ⊢
  all_goals omega

theorem NullOrder.reads {α : Type} (no : NullOrder) (deviceId : α → Option Int) (t : Table α) (l : List (Row α))
    (hl : ∀ r ∈ l, r ∈ t.rows) : Reads (no.readLe deviceId) l where
  total := fun r s => by
    rcases no.descLt_total (deviceId r.data) (deviceId s.data) with h | h | h
    · exact Or.inl (Or.inl h)
    · rcases Int.le_total r.id s.id with hid | hid
      · exact Or.inl (Or.inr ⟨h, hid⟩)
      · exact Or.inr (Or.inr ⟨h.symm, hid⟩)
    · exact Or.inr (Or.inl h)
  trans := by
    rintro r s q (h | ⟨h, hid⟩) (h' | ⟨h', hid'⟩)
    · exact Or.inl (no.descLt_trans _ _ _ h h')
    · exact Or.inl (h' ▸ h)
    · exact Or.inl (h ▸ h')
    · exact Or.inr ⟨h.trans h', Int.le_trans hid hid'⟩
  antisymm := by
    rintro r hr s hs (h | ⟨h, hid⟩) (h' | ⟨h', hid'⟩)
    · rw [no.descLt_asymm _ _ h] at h'; cases h'
    · rw [h', no.descLt_self] at h; cases h
    · rw [h, no.descLt_self] at h'; cases h'
    · exact t.eq_of_id r s (hl r hr) (hl s hs) (by omega)

/-! ## Queries -/

def Db.groupOf (db : Db) (d : Int) : Option Int :=
  (db.base.devices.find? (fun dev => decide (dev.id = d))).bind Device.groupId

/-- `(device_id = X) OR (group_id = Y)`, the second half only for a device with a group. -/
def appliesToDevice (deviceId : Int) (groupId d g : Option Int) : Bool :=
  decide (d = some deviceId) || groupId.any (fun gid => decide (g = some gid))

/-- The active rows of the device and of its group that `extra` selects, in reading order. -/
def rowsForDevice {α : Type} (no : NullOrder) (colD colG : α → Option Int) (deviceId : Int) (groupId : Option Int)
    (extra : α → Bool) (t : Table α) : List (Row α) :=
  (t.rows.filter (fun r => r.active && appliesToDevice deviceId groupId (colD r.data) (colG r.data)
    && extra r.data)).insertionSort (no.readLe colD)

def listOsAssignmentsForDevice (no : NullOrder) (deviceId : Int) (groupId osVersionId : Option Int)
    (_page _pageSize : UInt64) (db : Db) : List (Row OsAssignment) × Nat :=
  let all := rowsForDevice no OsAssignment.deviceId OsAssignment.groupId deviceId groupId
    (fun a => osVersionId.all (fun id => decide (a.osVersionId = id))) db.osAssignments
  match all.head? with
  | some m => ([m], 1)
  | none => ([], 0)

def getOsVersion (id : Int) (db : Db) : Option (Row OsVersion) := db.osVersions.findActive id

def getApplicationConfig (id : Int) (db : Db) : Option (Row ApplicationConfig) := db.applicationConfigs.findActive id

def configIdToAppId (db : Db) (ids : List Int) : List (Int × Int) :=
  (db.applicationConfigs.rows.filter (fun c => ids.contains c.id && c.active)).map (fun c => (c.id, c.data.applicationId))

/-- The assignments of the device in reading order, the first one of each application.  A row whose config is not active
is dropped before it can claim its application. -/
def deduplicated (no : NullOrder) (deviceId : Int) (groupId applicationConfigId : Option Int) (db : Db) :
    List (Row ApplicationAssignment) :=
  let all := rowsForDevice no ApplicationAssignment.deviceId ApplicationAssignment.groupId deviceId groupId
    (fun a => applicationConfigId.all (fun id => decide (a.applicationConfigId = id))) db.applicationAssignments
  let appIds := configIdToAppId db (all.map (fun m => m.data.applicationConfigId))
  keepFirst (fun m => appIds.lookup m.data.applicationConfigId) [] all

/-- `page * pageSize` wraps at 64 bits. -/
def listApplicationAssignmentsForDevice (no : NullOrder) (deviceId : Int) (groupId applicationConfigId : Option Int)
    (page pageSize : UInt64) (db : Db) : List (Row ApplicationAssignment) × Nat :=
  let rows := deduplicated no deviceId groupId applicationConfigId db
  ((rows.drop (page * pageSize).toNat).take pageSize.toNat, rows.length)

def u64Max : UInt64 := 18446744073709551615

def osGetAssigned (no : NullOrder) (deviceId : Int) (groupId : Option Int) (db : Db) :
    Except DbErr (Row OsVersion × Bool) :=
  match (listOsAssignmentsForDevice no deviceId groupId none 0 u64Max db).1 with
  | [] => .error (.recordNotFound "OsVersion")
  | assignment :: _ =>
    match getOsVersion assignment.data.osVersionId db with
    | some ver => .ok (ver, assignment.data.immediate)
    | none => .error (.recordNotFound "OsVersion")

def appsGetAssigned (no : NullOrder) (deviceId : Int) (groupId : Option Int) (db : Db) : List (Row ApplicationConfig) :=
  (listApplicationAssignmentsForDevice no deviceId groupId none 0 u64Max db).1.filterMap
    (fun assignment => getApplicationConfig assignment.data.applicationConfigId db)

/-! ## What the queries return -/

def Applies {α : Type} (colD colG : α → Option Int) (d : Int) (g : Option Int) (t : Table α) (r : Row α) : Prop :=
  r ∈ t.rows ∧ r.active = true ∧ appliesToDevice d g (colD r.data) (colG r.data) = true

def Db.OsApplies (db : Db) (d : Int) (g : Option Int) (r : Row OsAssignment) : Prop :=
  Applies OsAssignment.deviceId OsAssignment.groupId d g db.osAssignments r

def Db.AppApplies (db : Db) (d : Int) (g : Option Int) (r : Row ApplicationAssignment) : Prop :=
  Applies ApplicationAssignment.deviceId ApplicationAssignment.groupId d g db.applicationAssignments r

/-- The application an assignment stands for: that of its config, while the config is active. -/
def Db.appOf (db : Db) (r : Row ApplicationAssignment) : Option Int :=
  (getApplicationConfig r.data.applicationConfigId db).map (·.data.applicationId)

/-- `w` is read before every other OS assignment of the device. -/
def Db.OsWinner (db : Db) (no : NullOrder) (d : Int) (g : Option Int) (w : Row OsAssignment) : Prop :=
  db.OsApplies d g w ∧ ∀ r, db.OsApplies d g r → no.readLe OsAssignment.deviceId w r

/-- `w` is read before every other assignment of the device that stands for application `a`. -/
def Db.AppWinner (db : Db) (no : NullOrder) (d : Int) (g : Option Int) (a : Int) (w : Row ApplicationAssignment) : Prop :=
  (db.AppApplies d g w ∧ db.appOf w = some a) ∧
    ∀ r, db.AppApplies d g r → db.appOf r = some a → no.readLe ApplicationAssignment.deviceId w r

theorem appliesToDevice_own (d : Int) (g g' : Option Int) : appliesToDevice d g (some d) g' = true := by
  simp [appliesToDevice]

theorem rowsForDevice_eq {α : Type} (no : NullOrder) (colD colG : α → Option Int) (d : Int) (g : Option Int)
    (extra : α → Bool) (t : Table α) :
    ∃ l : List (Row α), rowsForDevice no colD colG d g extra t = l.insertionSort (no.readLe colD) ∧
      (∀ r, r ∈ l ↔ Applies colD colG d g t r ∧ extra r.data = true) ∧ Reads (no.readLe colD) l ∧
      l.length ≤ t.rows.length := by
  have hmem : ∀ r, r ∈ t.rows.filter (fun r => r.active && appliesToDevice d g (colD r.data) (colG r.data)
      && extra r.data) ↔ Applies colD colG d g t r ∧ extra r.data = true := fun r => by
    simp only [List.mem_filter, Bool.and_eq_true, Applies, and_assoc]
  exact ⟨_, rfl, hmem, no.reads colD t _ (fun r h => ((hmem r).1 h).1.1), List.length_filter_le _ _⟩

/-- **The OS assignment returned is the winner, or none applies.** -/
theorem listOsAssignmentsForDevice_spec (no : NullOrder) (d : Int) (g : Option Int) (page pageSize : UInt64) (db : Db) :
    (∃ w, listOsAssignmentsForDevice no d g none page pageSize db = ([w], 1) ∧ db.OsWinner no d g w) ∨
      (listOsAssignmentsForDevice no d g none page pageSize db = ([], 0) ∧ ∀ r, ¬ db.OsApplies d g r) := by
  unfold listOsAssignmentsForDevice
  obtain ⟨l, hrows, hmem, hr, -⟩ := rowsForDevice_eq no OsAssignment.deviceId OsAssignment.groupId d g
    (fun a => (none : Option Int).all (fun id => decide (a.osVersionId = id))) db.osAssignments
  simp only [Option.all_none, and_true] at hrows hmem ⊢
  rw [hrows]
  cases hh : (l.insertionSort (no.readLe OsAssignment.deviceId)).head? with
  | some w =>
    obtain ⟨hw, -, hall⟩ := (Ranked.head?_sorted _ l hr w).1 hh
    exact Or.inl ⟨w, rfl, (hmem w).1 hw, fun r ha => hall r ((hmem r).2 ha) trivial⟩
  | none =>
    refine Or.inr ⟨rfl, fun r ha => ?_⟩
    have hm : r ∈ l.insertionSort (no.readLe OsAssignment.deviceId) := (List.mem_insertionSort _).2 ((hmem r).2 ha)
    rw [List.head?_eq_none_iff.1 hh] at hm
    cases hm

theorem osGetAssigned_eq_ok (no : NullOrder) (d : Int) (g : Option Int) (db : Db) (ver : Row OsVersion)
    (immediate : Bool) :
    osGetAssigned no d g db = .ok (ver, immediate) ↔
      ∃ w rest, (listOsAssignmentsForDevice no d g none 0 u64Max db).1 = w :: rest ∧
        getOsVersion w.data.osVersionId db = some ver ∧ w.data.immediate = immediate := by
  unfold osGetAssigned
  cases hl : (listOsAssignmentsForDevice no d g none 0 u64Max db).1 with
  | nil => simp
  | cons w rest =>
    simp only [List.cons.injEq]
    cases hv : getOsVersion w.data.osVersionId db with
    | none => simp [hv]
    | some v => simp [hv]

theorem configIdToAppId_lookup (db : Db) (ids : List Int) (id : Int) (h : id ∈ ids) :
    (configIdToAppId db ids).lookup id = (getApplicationConfig id db).map (·.data.applicationId) := by
  unfold configIdToAppId getApplicationConfig Table.findActive
  induction db.applicationConfigs.rows with
  | nil => rfl
  | cons c rows ih =>
    rw [List.find?_cons, List.filter_cons]
    by_cases hid : c.id = id
    · cases hact : c.active
      · simpa [hid] using ih
      · simp [hid, h]
    · split
      · rw [List.map_cons, List.lookup_cons, show (id == c.id) = false from beq_false_of_ne (Ne.symm hid)]
        simpa [hid] using ih
      · simpa [hid] using ih

theorem deduplicated_eq (no : NullOrder) (d : Int) (g : Option Int) (db : Db) :
    ∃ l : List (Row ApplicationAssignment),
      deduplicated no d g none db = keepFirst db.appOf [] (l.insertionSort (no.readLe ApplicationAssignment.deviceId)) ∧
      (∀ r, r ∈ l ↔ db.AppApplies d g r) ∧ Reads (no.readLe ApplicationAssignment.deviceId) l := by
  obtain ⟨l, hrows, hmem, hr, -⟩ := rowsForDevice_eq no ApplicationAssignment.deviceId ApplicationAssignment.groupId d g
    (fun a => (none : Option Int).all (fun id => decide (a.applicationConfigId = id))) db.applicationAssignments
  refine ⟨l, ?_, fun r => (hmem r).trans (by simp only [Option.all_none, and_true]; rfl), hr⟩
  unfold deduplicated
  rw [hrows]
  exact Ranked.keepFirst_congr _ db.appOf _ _ (fun r h => configIdToAppId_lookup db _ _ (List.mem_map.2 ⟨r, h, rfl⟩))

/-- **The rows kept are the winners of their applications.** -/
theorem mem_deduplicated (no : NullOrder) (d : Int) (g : Option Int) (db : Db) (w : Row ApplicationAssignment) :
    w ∈ deduplicated no d g none db ↔ ∃ a, db.AppWinner no d g a w := by
  obtain ⟨l, heq, hmem, hr⟩ := deduplicated_eq no d g db
  rw [heq, Ranked.mem_keepFirst_sorted _ _ _ hr]
  refine exists_congr (fun a => ?_)
  simp only [First, Db.AppWinner, hmem]
  constructor
  · rintro ⟨ha, hw, -, hall⟩; exact ⟨⟨hw, ha⟩, hall⟩
  · rintro ⟨⟨hw, ha⟩, hall⟩; exact ⟨ha, hw, ha, hall⟩

theorem exists_appWinner (no : NullOrder) (d : Int) (g : Option Int) (db : Db) (a : Int)
    (r : Row ApplicationAssignment) (hr : db.AppApplies d g r) (ha : db.appOf r = some a) :
    ∃ w, db.AppWinner no d g a w := by
  obtain ⟨l, heq, hmem, -⟩ := deduplicated_eq no d g db
  obtain ⟨w, hw, hwa⟩ := Ranked.exists_keepFirst db.appOf a (l.insertionSort (no.readLe ApplicationAssignment.deviceId))
    [] List.not_mem_nil ⟨r, (List.mem_insertionSort _).2 ((hmem r).2 hr), ha⟩
  rw [← heq, mem_deduplicated] at hw
  obtain ⟨a', hw'⟩ := hw
  have haa : a' = a := Option.some.inj (hw'.1.2.symm.trans hwa)
  exact ⟨w, haa ▸ hw'⟩

theorem appWinner_unique (no : NullOrder) (d : Int) (g : Option Int) (db : Db) (a : Int)
    (w w' : Row ApplicationAssignment) (h : db.AppWinner no d g a w) (h' : db.AppWinner no d g a w') : w = w' := by
  have hr := no.reads ApplicationAssignment.deviceId db.applicationAssignments db.applicationAssignments.rows
    (fun _ hr => hr)
  exact hr.antisymm w h.1.1.1 w' h'.1.1.1 (h.2 w' h'.1.1 h'.1.2) (h'.2 w h.1.1 h.1.2)

/-- A page of 2^64 - 1 rows holds them all. -/
theorem listApplicationAssignmentsForDevice_full (no : NullOrder) (d : Int) (g c : Option Int) (db : Db) :
    (listApplicationAssignmentsForDevice no d g c 0 u64Max db).1 = deduplicated no d g c db := by
  unfold listApplicationAssignmentsForDevice
  have hlen : (deduplicated no d g c db).length ≤ u64Max.toNat := by
    unfold deduplicated
    obtain ⟨l, hrows, -, -, hle⟩ := rowsForDevice_eq no ApplicationAssignment.deviceId ApplicationAssignment.groupId d g
      (fun a => c.all (fun id => decide (a.applicationConfigId = id))) db.applicationAssignments
    simp only [hrows]
    refine (Ranked.keepFirst_sublist _ _ _).length_le.trans ?_
    rw [List.length_insertionSort]
    have := db.applicationAssignments.length_lt
    simp only [Versioned.idLimit, u64Max, UInt64.reduceToNat] at this ⊢
    omega
  simp only [UInt64.zero_mul, UInt64.toNat_zero, List.drop_zero]
  exact List.take_of_length_le hlen

/-- **A device is told the configs of the winners.** -/
theorem mem_appsGetAssigned (no : NullOrder) (d : Int) (g : Option Int) (db : Db) (c : Row ApplicationConfig) :
    c ∈ appsGetAssigned no d g db ↔
      ∃ a w, db.AppWinner no d g a w ∧ getApplicationConfig w.data.applicationConfigId db = some c := by
  unfold appsGetAssigned
  rw [listApplicationAssignmentsForDevice_full, List.mem_filterMap]
  simp only [mem_deduplicated]
  constructor
  · rintro ⟨w, ⟨a, hw⟩, hc⟩; exact ⟨a, w, hw, hc⟩
  · rintro ⟨a, w, hw, hc⟩; exact ⟨w, ⟨a, hw⟩, hc⟩

end Api
end ZeroDowntime
