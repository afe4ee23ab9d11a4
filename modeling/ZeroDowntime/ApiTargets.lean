import ZeroDowntime.ApiReads
/-!
# ApiTargets — the target set of a device, in whatever order its rows come

`apps_get_assigned` keeps the first assignment of every application among the rows the database returns.  Which row that is
depends on their order; the set of applications does not, and each has one config.
-/
namespace ZeroDowntime
namespace Api

open Versioned (Row Table)
open Ranked (keepFirst)

/-- `rows` are the assignments `list_application_assignments_for_device` queries for, in some order. -/
def Db.Returns (db : Db) (deviceId : Int) (groupId : Option Int) (rows : List (Row ApplicationAssignment)) : Prop :=
  rows.Perm (db.applicationAssignments.rows.filter (fun r =>
    r.active && appliesToDevice deviceId groupId r.data.deviceId r.data.groupId))

def deduplicatedOf (all : List (Row ApplicationAssignment)) (db : Db) : List (Row ApplicationAssignment) :=
  let appIds := configIdToAppId db (all.map (fun m => m.data.applicationConfigId))
  keepFirst (fun m => appIds.lookup m.data.applicationConfigId) [] all

def assignmentsPaged (all : List (Row ApplicationAssignment)) (page pageSize : UInt64) (db : Db) :
    List (Row ApplicationAssignment) × Nat :=
  let rows := deduplicatedOf all db
  ((rows.drop (page * pageSize).toNat).take pageSize.toNat, rows.length)

def appsAssigned (all : List (Row ApplicationAssignment)) (db : Db) : List (Row ApplicationConfig) :=
  (assignmentsPaged all 0 u64Max db).1.filterMap
    (fun assignment => getApplicationConfig assignment.data.applicationConfigId db)

/-- An active assignment of the device, or of its group, references the config. -/
def Db.Assigned (db : Db) (deviceId : Int) (groupId : Option Int) (c : Row ApplicationConfig) : Prop :=
  ∃ r ∈ db.applicationAssignments.rows, r.active = true ∧ r.data.applicationConfigId = c.id ∧
    (r.data.deviceId = some deviceId ∨ ∃ gid, groupId = some gid ∧ r.data.groupId = some gid)

variable {db : Db} {d : Int} {g : Option Int} {rows : List (Row ApplicationAssignment)}

theorem appliesToDevice_eq_true (d : Int) (g d' g' : Option Int) : appliesToDevice d g d' g' = true ↔
    d' = some d ∨ ∃ gid, g = some gid ∧ g' = some gid := by
  cases g <;> simp [appliesToDevice]

theorem Db.Returns.mem (h : db.Returns d g rows) (r : Row ApplicationAssignment) : r ∈ rows ↔
    r ∈ db.applicationAssignments.rows ∧ r.active = true ∧
      (r.data.deviceId = some d ∨ ∃ gid, g = some gid ∧ r.data.groupId = some gid) := by
  rw [h.mem_iff, List.mem_filter, Bool.and_eq_true, appliesToDevice_eq_true]

/-- The sorted rows are one order of them. -/
theorem returns_rowsForDevice (no : NullOrder) (d : Int) (g : Option Int) (db : Db) :
    db.Returns d g (rowsForDevice no ApplicationAssignment.deviceId ApplicationAssignment.groupId d g (fun _ => true)
      db.applicationAssignments) := by
  unfold rowsForDevice Db.Returns
  simp only [Bool.and_true]
  exact List.perm_insertionSort _ _

theorem appsGetAssigned_eq (no : NullOrder) (d : Int) (g : Option Int) (db : Db) :
    appsGetAssigned no d g db = appsAssigned (rowsForDevice no ApplicationAssignment.deviceId
      ApplicationAssignment.groupId d g (fun _ => true) db.applicationAssignments) db := rfl

theorem deduplicatedOf_eq (rows : List (Row ApplicationAssignment)) (db : Db) :
    deduplicatedOf rows db = keepFirst db.appOf [] rows :=
  Ranked.keepFirst_congr _ db.appOf _ _ (fun r h => configIdToAppId_lookup db _ _ (List.mem_map.2 ⟨r, h, rfl⟩))

/-- A page of 2^64 - 1 rows holds them all. -/
theorem assignmentsPaged_full (h : db.Returns d g rows) : (assignmentsPaged rows 0 u64Max db).1 = deduplicatedOf rows db := by
  have hlen : (deduplicatedOf rows db).length ≤ u64Max.toNat := by
    rw [deduplicatedOf_eq]
    have hle := (Ranked.keepFirst_sublist db.appOf rows []).length_le
    have hrows := h.length_eq.trans_le (List.length_filter_le _ _)
    have := db.applicationAssignments.length_lt
    simp only [Versioned.idLimit, u64Max, UInt64.reduceToNat] at this ⊢
    omega
  unfold assignmentsPaged
  simp only [UInt64.zero_mul, UInt64.toNat_zero, List.drop_zero]
  exact List.take_of_length_le hlen

theorem appsAssigned_eq (h : db.Returns d g rows) : appsAssigned rows db =
    (keepFirst db.appOf [] rows).filterMap (fun r => getApplicationConfig r.data.applicationConfigId db) := by
  rw [appsAssigned, assignmentsPaged_full h, deduplicatedOf_eq]

/-- The applications of the returned configs are those of the rows kept. -/
theorem map_appsAssigned (h : db.Returns d g rows) : (appsAssigned rows db).map (·.data.applicationId) =
    (keepFirst db.appOf [] rows).filterMap db.appOf := by
  rw [appsAssigned_eq h, List.map_filterMap]
  rfl

theorem mem_appsAssigned (h : db.Returns d g rows) {c : Row ApplicationConfig} (hc : c ∈ appsAssigned rows db) :
    c ∈ db.applicationConfigs.rows ∧ c.active = true ∧ db.Assigned d g c := by
  rw [appsAssigned_eq h] at hc
  obtain ⟨r, hr, hget⟩ := List.mem_filterMap.1 hc
  obtain ⟨hmem, hid, hact⟩ := (db.applicationConfigs.findActive_eq_some _ c).1 hget
  obtain ⟨hrow, hract, htarget⟩ := (h.mem r).1 ((Ranked.keepFirst_sublist _ _ _).subset hr)
  exact ⟨hmem, hact, r, hrow, hract, hid.symm, htarget⟩

/-- **In whatever order the rows are returned, the configs belong to distinct applications, exactly those with an active
config that an active assignment of the device or of its group references, and each is such a config.** -/
theorem target_set_exact (db : Db) (d : Int) (g : Option Int) (rows : List (Row ApplicationAssignment))
    (h : db.Returns d g rows) :
    ((appsAssigned rows db).map (·.data.applicationId)).Nodup ∧
    (∀ a, a ∈ (appsAssigned rows db).map (·.data.applicationId) ↔
      ∃ c ∈ db.applicationConfigs.rows, c.active = true ∧ c.data.applicationId = a ∧ db.Assigned d g c) ∧
    ∀ c ∈ appsAssigned rows db, c ∈ db.applicationConfigs.rows ∧ c.active = true ∧ db.Assigned d g c := by
  refine ⟨?_, fun a => ⟨fun ha => ?_, ?_⟩, fun c hc => mem_appsAssigned h hc⟩
  · rw [map_appsAssigned h]
    exact (Ranked.nodup_keepFirst db.appOf rows []).1
  · obtain ⟨c, hc, rfl⟩ := List.mem_map.1 ha
    obtain ⟨hmem, hact, hassigned⟩ := mem_appsAssigned h hc
    exact ⟨c, hmem, hact, rfl, hassigned⟩
  · rintro ⟨c, hmem, hact, rfl, r, hrow, hract, hid, htarget⟩
    -- the row has an application, so some row of that application is kept
    have hget : getApplicationConfig r.data.applicationConfigId db = some c :=
      (db.applicationConfigs.findActive_eq_some _ c).2 ⟨hmem, hid.symm, hact⟩
    have happ : db.appOf r = some c.data.applicationId := by
      rw [Db.appOf, hget]
      rfl
    obtain ⟨w, hw, hwa⟩ := Ranked.exists_keepFirst db.appOf c.data.applicationId rows [] List.not_mem_nil
      ⟨r, (h.mem r).2 ⟨hrow, hract, htarget⟩, happ⟩
    rw [map_appsAssigned h]
    exact List.mem_filterMap.2 ⟨w, hw, hwa⟩

/-- Application 1 has a config for group 1 and one for device 1, which is in the group. -/
def overridden : List Call :=
  [.base ⟨[1], [⟨1, some 1⟩], [1]⟩, .addApplicationConfig none (some 1) 1 "registry/app:1" none,
    .addApplicationConfig (some 1) none 1 "registry/app:2" none, .addApplicationAssignmentToGroup 1 1,
    .addApplicationAssignmentToDevice 2 1]

theorem target_set_overridden : ((appsGetAssigned Backend.sqlite.nullOrder 1 (some 1) (run .sqlite overridden)).map
    (·.data.applicationId)).Nodup := by
  rw [appsGetAssigned_eq]
  exact (target_set_exact _ 1 (some 1) _ (returns_rowsForDevice _ 1 (some 1) _)).1

end Api
end ZeroDowntime
