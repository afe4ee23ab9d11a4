import Mathlib
import ZeroDowntime.ApiIntegrity
import ZeroDowntime.ApiLogPages
import ZeroDowntime.ApiTriggers
import ZeroDowntime.StatementChanges
/-!
# ApiJournal — what the audit triggers write down of each call

On PostgreSQL the row triggers of the tracked tables run with every statement that is committed.  `writes` is the rows a
call changes, in the order of its statements; a call that is refused, and a transaction that is dropped, changes none.
What `to_jsonb` makes of a timestamp and `serde_json` of a configuration is a parameter.
-/
namespace ZeroDowntime
namespace Api

open Versioned (Row Table Entity)
open Journal (RowChange Fits applyAll)

/-- The tables that get a trigger by default. -/
inductive TableName
  | tenants
  | groups
  | devices
  | applications
  | applicationConfigs
  | applicationAssignments
  | osVersions
  | osAssignments
  | reportedApplicationAssignments
  | reportedOsAssignments
  | pings
  deriving DecidableEq, Repr

namespace TableName

def all : List TableName :=
  [tenants, groups, devices, applications, applicationConfigs, applicationAssignments, osVersions, osAssignments,
    reportedApplicationAssignments, reportedOsAssignments, pings]

/-- `TG_TABLE_NAME` -/
def name : TableName → String
  | tenants => "tenants"
  | groups => "groups"
  | devices => "devices"
  | applications => "applications"
  | applicationConfigs => "application_configs"
  | applicationAssignments => "application_assignments"
  | osVersions => "os_versions"
  | osAssignments => "os_assignments"
  | reportedApplicationAssignments => "reported_application_assignments"
  | reportedOsAssignments => "reported_os_assignments"
  | pings => "pings"

/-- The column that the trigger function of the table takes `record_id` from. -/
def pkCol : TableName → String
  | pings => "device_id"
  | _ => "id"

theorem name_injective {n m : TableName} (h : n.name = m.name) : n = m := by
  cases n <;> cases m <;> first | rfl | exact absurd h (by decide)

/-- The triggers of these tables are those of the default configuration. -/
example : all.map (fun n => (n.name, n.pkCol)) = defaultAuditTables := by decide

@[reducible] def Row : TableName → Type
  | tenants => TenantModel
  | groups => GroupModel
  | devices => DeviceModel
  | applications => ApplicationModel
  | applicationConfigs => Versioned.Row ApplicationConfig
  | applicationAssignments => Versioned.Row ApplicationAssignment
  | osVersions => Versioned.Row OsVersion
  | osAssignments => Versioned.Row OsAssignment
  | reportedApplicationAssignments => Reported
  | reportedOsAssignments => Reported
  | pings => PingModel

def key : (n : TableName) → n.Row → Int
  | tenants => TenantModel.id
  | groups => GroupModel.id
  | devices => DeviceModel.id
  | applications => ApplicationModel.id
  | applicationConfigs => Versioned.Row.id
  | applicationAssignments => Versioned.Row.id
  | osVersions => Versioned.Row.id
  | osAssignments => Versioned.Row.id
  | reportedApplicationAssignments => Reported.id
  | reportedOsAssignments => Reported.id
  | pings => PingModel.deviceId

/-- The tables whose rows are retired and never removed. -/
def versioned : TableName → Bool
  | applicationConfigs | applicationAssignments | osVersions | osAssignments => true
  | _ => false

/-- Whether a row of such a table is active. -/
def active : (n : TableName) → n.Row → Bool
  | applicationConfigs => Versioned.Row.active
  | applicationAssignments => Versioned.Row.active
  | osVersions => Versioned.Row.active
  | osAssignments => Versioned.Row.active
  | _ => fun _ => true

/-- A row comes into being active, or is retired. -/
def Once (n : TableName) (c : RowChange n.Row) : Prop :=
  (∃ r, c = .insert r ∧ n.active r = true) ∨ ∃ r r', c = .update r r' ∧ n.active r = true ∧ n.active r' = false

/-- The `device_id` of a row, where its table has the column and it is not NULL. -/
def deviceId : (n : TableName) → n.Row → Option Int
  | tenants, _ => none
  | groups, _ => none
  | devices, _ => none
  | applications, _ => none
  | applicationConfigs, r => r.data.deviceId
  | applicationAssignments, r => r.data.deviceId
  | osVersions, _ => none
  | osAssignments, r => r.data.deviceId
  | reportedApplicationAssignments, r => some r.deviceId
  | reportedOsAssignments, r => some r.deviceId
  | pings, r => some r.deviceId

end TableName

/-! ## `to_jsonb` -/

/-- What `to_jsonb` makes of a timestamp, and the text a configuration is stored as. -/
structure Texts where
  timestamp : Int → String
  config : ContainerConfigV1 → String

namespace Texts

variable (T : Texts)

def number (n : Int) : Value := .number (.int n)

def nullable {α : Type} (f : α → Value) (a : Option α) : Value := (a.map f).getD .null

def time (t : Int) : Value := .string (T.timestamp t)

def reported (column : String) (r : Reported) : Value :=
  .object [("id", number r.id), (column, number r.reported), ("device_id", number r.deviceId),
    ("updated_at", T.time r.updatedAt)]

/-- The two columns of a versioned row. -/
def marks {α : Type} (r : Versioned.Row α) : List (String × Value) :=
  [("deleted_at", nullable T.time r.deletedAt), ("superseded_by", nullable number r.supersededBy)]

/-- `to_jsonb(row)`: one member for each column. -/
def toJsonb : (n : TableName) → n.Row → Value
  | .tenants, r => .object [("id", number r.id), ("name", .string r.name), ("description", nullable .string r.description)]
  | .groups, r => .object [("id", number r.id), ("name", .string r.name)]
  | .devices, r =>
    .object [("id", number r.id), ("uuid", .string r.uuid), ("public_key", nullable .string r.publicKey),
      ("serial_number", .string r.serialNumber), ("tenant_id", number r.tenantId), ("group_id", nullable number r.groupId)]
  | .applications, r => .object [("id", number r.id), ("name", .string r.name), ("description", .string r.description)]
  | .applicationConfigs, r =>
    .object ([("id", number r.id), ("device_id", nullable number r.data.deviceId),
      ("group_id", nullable number r.data.groupId), ("application_id", number r.data.applicationId),
      ("image", .string r.data.image), ("config_version", number r.data.configVersion),
      ("config", nullable (fun c => .string (T.config c)) r.data.config), ("version", number r.data.version)] ++ T.marks r)
  | .applicationAssignments, r =>
    .object ([("id", number r.id), ("application_config_id", number r.data.applicationConfigId),
      ("device_id", nullable number r.data.deviceId), ("group_id", nullable number r.data.groupId)] ++ T.marks r)
  | .osVersions, r =>
    .object ([("id", number r.id), ("commit_hash", .string r.data.commitHash),
      ("orchestrator_version", .string r.data.orchestratorVersion),
      ("description", nullable .string r.data.description)] ++ T.marks r)
  | .osAssignments, r =>
    .object ([("id", number r.id), ("os_version_id", number r.data.osVersionId),
      ("device_id", nullable number r.data.deviceId), ("group_id", nullable number r.data.groupId),
      ("immediate", .bool r.data.immediate)] ++ T.marks r)
  | .reportedApplicationAssignments, r => T.reported "application_config_id" r
  | .reportedOsAssignments, r => T.reported "os_version_id" r
  | .pings, r =>
    .object [("device_id", number r.deviceId), ("reported_at", T.time r.reportedAt),
      ("uptime_secs", nullable number r.uptimeSecs)]

/-- `data->>'device_id'` is the column's value. -/
theorem fieldText_toJsonb : ∀ (n : TableName) (r : n.Row),
    (T.toJsonb n r).fieldText "device_id" = (n.deviceId r).map toString
  | .tenants, _ => rfl
  | .groups, _ => rfl
  | .devices, _ => rfl
  | .applications, _ => rfl
  | .applicationConfigs, r => by
    obtain ⟨id, del, sup, data⟩ := r
    show _ = data.deviceId.map toString
    cases hd : data.deviceId <;> simp [toJsonb, marks, Value.fieldText, Value.get, Value.named, nullable, number, hd]
  | .applicationAssignments, r => by
    obtain ⟨id, del, sup, data⟩ := r
    show _ = data.deviceId.map toString
    cases hd : data.deviceId <;> simp [toJsonb, marks, Value.fieldText, Value.get, Value.named, nullable, number, hd]
  | .osVersions, _ => rfl
  | .osAssignments, r => by
    obtain ⟨id, del, sup, data⟩ := r
    show _ = data.deviceId.map toString
    cases hd : data.deviceId <;> simp [toJsonb, marks, Value.fieldText, Value.get, Value.named, nullable, number, hd]
  | .reportedApplicationAssignments, _ => rfl
  | .reportedOsAssignments, _ => rfl
  | .pings, _ => rfl

end Texts

/-! ## The rows a call changes -/

section Statements

variable {α : Type}

def insertedRow : Except DbErr α → List (RowChange α)
  | .error _ => []
  | .ok new => [.insert new]

def updatedRow (old : Option α) : Except DbErr α → List (RowChange α)
  | .error _ => []
  | .ok new => old.toList.map (fun o => .update o new)

def deletedRow (old : Option α) : Except DbErr Nat → List (RowChange α)
  | .error _ => []
  | .ok _ => old.toList.map .delete

/-- INSERT … ON CONFLICT DO UPDATE: one trigger or the other. -/
def upsertedRow (old : Option α) (refresh : α → α) (new : α) : Except DbErr Unit → List (RowChange α)
  | .error _ => []
  | .ok _ =>
    match old with
    | some r => [.update r (refresh r)]
    | none => [.insert new]

end Statements

def reportedChanges (t : Serials.Table Reported Reported.id) (reported deviceId now : Int) (result : Except DbErr Unit) :
    List (RowChange Reported) :=
  upsertedRow (Upserts.lookup Reported.key (deviceId, reported) t.rows) (ReportedTable.refresh ⟨reported, now, none⟩)
    ⟨t.next, reported, deviceId, now⟩ result

namespace Store

/-- The table a call writes, and its changes.  An UPDATE that sets no column is not executed. -/
def writes (s : Store) : StoreCall → (n : TableName) × List (RowChange n.Row)
  | .addTenant n d => ⟨.tenants, insertedRow (s.addTenant n d).1⟩
  | .updateTenant id n d => ⟨.tenants, updatedRow (s.tenants.find id) (s.updateTenant id n d).1⟩
  | .deleteTenant id => ⟨.tenants, deletedRow (s.tenants.find id) (s.deleteTenant id).1⟩
  | .addGroup n => ⟨.groups, insertedRow (s.addGroup n).1⟩
  | .updateGroup id n => ⟨.groups, updatedRow (s.groups.find id) (s.updateGroup id n).1⟩
  | .deleteGroup id => ⟨.groups, deletedRow (s.groups.find id) (s.deleteGroup id).1⟩
  | .addApplication n d => ⟨.applications, insertedRow (s.addApplication n d).1⟩
  | .updateApplication id n d => ⟨.applications, updatedRow (s.applications.find id) (s.updateApplication id n d).1⟩
  | .deleteApplication id => ⟨.applications, deletedRow (s.applications.find id) (s.deleteApplication id).1⟩
  | .addDevice u k n t g => ⟨.devices, insertedRow (s.addDevice u k n t g).1⟩
  | .updateDevice id u k n t g => ⟨.devices, updatedRow (s.devices.getDevice id) (s.updateDevice id u k n t g).1⟩
  | .patchDevice id u k n t g =>
    ⟨.devices, if u.isNone && k.isNone && n.isNone && t.isNone && g.isNone then []
      else updatedRow (s.devices.getDevice id) (s.patchDevice id u k n t g).1⟩
  | .deleteDevice id => ⟨.devices, deletedRow (s.devices.getDevice id) (s.deleteDevice id).1⟩
  | .versioned (.base _) => ⟨.devices, []⟩
  | .versioned (.addOsVersion c o d) =>
    ⟨.osVersions, osVersion.insertChanges true (fun _ => .ok ()) s.osVersions ⟨c, o, d⟩⟩
  | .versioned (.updateOsVersion id c o d f) =>
    ⟨.osVersions, osVersion.replaceChanges true (fun _ => .ok ()) id (fun _ => ⟨c, o, d⟩) s.osVersions f⟩
  | .versioned (.deleteOsVersion now id) => ⟨.osVersions, osVersion.deleteChanges now id s.osVersions⟩
  | .versioned (.addOsAssignment v d g i) =>
    ⟨.osAssignments, osAssignment.addReplacingChanges true s.db.osAssignmentRefs
      (fun a => targetFilter d g a.deviceId a.groupId) (fun _ => ⟨v, d, g, some (i.getD false)⟩) s.osAssignments⟩
  | .versioned (.updateOsAssignment id v d g i f) =>
    ⟨.osAssignments,
      osAssignment.replaceChanges true s.db.osAssignmentRefs id (fun _ => ⟨v, d, g, i⟩) s.osAssignments f⟩
  | .versioned (.deleteOsAssignment now id) => ⟨.osAssignments, osAssignment.deleteChanges now id s.osAssignments⟩
  | .versioned (.addApplicationConfig d g a i c) =>
    ⟨.applicationConfigs, applicationConfig.addReplacingChanges true s.db.applicationConfigRefs
      (fun x => decide (x.applicationId = a) && targetFilter d g x.deviceId x.groupId)
      (fun existing =>
        { deviceId := d, groupId := g, applicationId := a, image := i
          configVersion := (existing.head?.map (·.data.configVersion)).getD 1
          config := c
          version := maxVersion existing + 1 }) s.applicationConfigs⟩
  | .versioned (.updateApplicationConfig id d g a i c f) =>
    ⟨.applicationConfigs, applicationConfig.replaceChanges true s.db.applicationConfigRefs id
      (fun current =>
        { deviceId := d, groupId := g, applicationId := a, image := i
          configVersion := current.data.configVersion
          config := c
          version := current.data.version + 1 }) s.applicationConfigs f⟩
  | .versioned (.deleteApplicationConfig now id) =>
    ⟨.applicationConfigs, applicationConfig.deleteChanges now id s.applicationConfigs⟩
  | .versioned (.addApplicationAssignmentToDevice c d) =>
    ⟨.applicationAssignments, applicationAssignment.addReplacingChanges true s.db.applicationAssignmentRefs
      (fun a => decide (a.applicationConfigId = c) && targetFilter (some d) none a.deviceId a.groupId)
      (fun _ => ⟨c, some d, none⟩) s.applicationAssignments⟩
  | .versioned (.addApplicationAssignmentToGroup c g) =>
    ⟨.applicationAssignments, applicationAssignment.addReplacingChanges true s.db.applicationAssignmentRefs
      (fun a => decide (a.applicationConfigId = c) && targetFilter none (some g) a.deviceId a.groupId)
      (fun _ => ⟨c, none, some g⟩) s.applicationAssignments⟩
  | .versioned (.updateApplicationAssignment id c d g f) =>
    ⟨.applicationAssignments, applicationAssignment.replaceChanges true s.db.applicationAssignmentRefs id
      (fun _ => ⟨c, d, g⟩) s.applicationAssignments f⟩
  | .versioned (.deleteApplicationAssignment now id) =>
    ⟨.applicationAssignments, applicationAssignment.deleteChanges now id s.applicationAssignments⟩
  | .addReportedApplicationAssignment c d now =>
    ⟨.reportedApplicationAssignments,
      reportedChanges s.reportedApplicationAssignments c d now (s.addReportedApplicationAssignment .postgres c d now).1⟩
  | .deleteReportedApplicationAssignment id =>
    ⟨.reportedApplicationAssignments,
      deletedRow (s.reportedApplicationAssignments.find id) (s.deleteReportedApplicationAssignment id).1⟩
  | .addReportedOsAssignment v d now =>
    ⟨.reportedOsAssignments, reportedChanges s.reportedOsAssignments v d now (s.addReportedOsAssignment .postgres v d now).1⟩
  | .deleteReportedOsAssignment id =>
    ⟨.reportedOsAssignments, deletedRow (s.reportedOsAssignments.find id) (s.deleteReportedOsAssignment id).1⟩
  | .upsertPing d now u =>
    ⟨.pings, upsertedRow (Upserts.lookup PingModel.deviceId d s.pings.rows) (refreshPing now u) ⟨d, now, u⟩
      (s.upsertPing d now u).1⟩

def rowsOf (s : Store) : (n : TableName) → List n.Row
  | .tenants => s.tenants.rows
  | .groups => s.groups.rows
  | .devices => s.devices.rows
  | .applications => s.applications.rows
  | .applicationConfigs => s.applicationConfigs.rows
  | .applicationAssignments => s.applicationAssignments.rows
  | .osVersions => s.osVersions.rows
  | .osAssignments => s.osAssignments.rows
  | .reportedApplicationAssignments => s.reportedApplicationAssignments.rows
  | .reportedOsAssignments => s.reportedOsAssignments.rows
  | .pings => s.pings.rows

theorem nodup_rowsOf (s : Store) : ∀ n : TableName, ((s.rowsOf n).map n.key).Nodup
  | .tenants => s.tenants.nodup_keys
  | .groups => s.groups.nodup_keys
  | .devices => s.devices.nodup_keys
  | .applications => s.applications.nodup_keys
  | .applicationConfigs => s.applicationConfigs.nodup_ids
  | .applicationAssignments => s.applicationAssignments.nodup_ids
  | .osVersions => s.osVersions.nodup_ids
  | .osAssignments => s.osAssignments.nodup_ids
  | .reportedApplicationAssignments => s.reportedApplicationAssignments.nodup_keys
  | .reportedOsAssignments => s.reportedOsAssignments.nodup_keys
  | .pings => s.pings.keys

end Store

/-! ## The changes are those of the call -/

/-- The changes fit the rows and lead to the rows there are afterwards. -/
structure Follows {α : Type} (key : α → Int) (rows rows' : List α) (cs : List (RowChange α)) : Prop where
  fits : Fits key rows cs
  rows : applyAll key rows cs = rows'

theorem Follows.nil {α : Type} (key : α → Int) (rows : List α) : Follows key rows rows [] := ⟨trivial, rfl⟩

theorem Follows.one {α : Type} {key : α → Int} {rows rows' : List α} {c : RowChange α} (hf : c.Fits key rows)
    (h : c.apply key rows = rows') : Follows key rows rows' [c] :=
  ⟨⟨hf, trivial⟩, h⟩

theorem Follows.trans {α : Type} {key : α → Int} {rows rows' rows'' : List α} {cs ds : List (RowChange α)}
    (h : Follows key rows rows' cs) (h' : Follows key rows' rows'' ds) : Follows key rows rows'' (cs ++ ds) := by
  obtain ⟨hf, rfl⟩ := h
  exact ⟨Journal.fits_append cs ds rows hf h'.fits, by rw [applyAll, List.foldl_append]; exact h'.rows⟩

theorem Entity.Trail.follows {α : Type} {t t' : Table α} {cs : List (RowChange (Row α))} (h : Entity.Trail t t' cs) :
    Follows Row.id t.rows t'.rows cs :=
  ⟨h.fits, h.rows⟩

section Serial

variable {α : Type} {id : α → Int} (t : Serials.Table α id)

theorem follows_insertRow (row : Int → α) (h : ∀ n, id (row n) = n) :
    Follows id t.rows (insertRow t row h).2.rows (insertedRow (insertRow t row h).1) := by
  unfold insertRow
  split
  · exact .nil _ _
  · refine .one (fun hin => ?_) rfl
    obtain ⟨r, hr, hid⟩ := List.mem_map.1 hin
    rw [h] at hid
    exact Int.ne_of_lt (t.below r hr) hid

theorem follows_updateRow (notFound : String) (i : Int) (set : α → α) (h : ∀ r, id (set r) = id r) :
    Follows id t.rows (updateRow t notFound i set h).2.rows (updatedRow (t.find i) (updateRow t notFound i set h).1) := by
  unfold updateRow
  cases hf : t.find i with
  | none => exact .nil _ _
  | some r =>
    obtain ⟨hr, rfl⟩ := (t.find_eq_some i r).1 hf
    refine .one ⟨hr, h r⟩ (List.map_congr_left (fun s hs => ?_))
    by_cases he : id s = id r
    · rw [if_pos he, if_pos he, t.eq_of_id s r hs hr he]
    · rw [if_neg he, if_neg he]

theorem follows_deleteRow (i : Int) (held : Except DbErr Unit) :
    Follows id t.rows (deleteRow t i held).2.rows (deletedRow (t.find i) (deleteRow t i held).1) := by
  unfold deleteRow
  split
  · rename_i hin
    cases held with
    | error e => exact .nil _ _
    | ok u =>
      obtain ⟨r, hr, rfl⟩ := (t.mem_keys i).1 hin
      rw [(t.find_eq_some (id r) r).2 ⟨hr, rfl⟩]
      exact .one hr rfl
  · rename_i hin
    rw [(t.find_eq_none i).2 hin]
    exact .nil _ _

end Serial

/-- An upsert on a key of its own, where the primary key of the new row is not taken. -/
theorem follows_upsert {α κ : Type} [DecidableEq κ] {id : α → Int} {key : α → κ} {refresh : α → α} {rows : List α}
    (new : α) (hid : ∀ r, id (refresh r) = id r) (hnd : (rows.map key).Nodup) (hids : (rows.map id).Nodup)
    (hnew : key new ∉ rows.map key → id new ∉ rows.map id) :
    Follows id rows (Upserts.upsert key refresh new rows)
      (upsertedRow (Upserts.lookup key (key new) rows) refresh new (.ok ())) := by
  unfold Upserts.upsert
  cases hl : Upserts.lookup key (key new) rows with
  | none =>
    have hn := (Upserts.lookup_eq_none _ _).1 hl
    rw [if_neg hn]
    exact .one (hnew hn) rfl
  | some r =>
    obtain ⟨hr, hk⟩ := (Upserts.lookup_eq_some _ hnd _ _).1 hl
    rw [if_pos (hk ▸ List.mem_map_of_mem hr)]
    refine .one ⟨hr, hid r⟩ (List.map_congr_left (fun s hs => ?_))
    by_cases he : id s = id r
    · obtain rfl : s = r := List.inj_on_of_nodup_map hids hs hr he
      rw [if_pos he, if_pos hk]
    · rw [if_neg he, if_neg (fun hks => he (congrArg id (List.inj_on_of_nodup_map hnd hs hr (hks.trans hk.symm))))]

theorem follows_addReported {be : Backend} {column : String} {reportable devices : List Int}
    (t : Serials.Table Reported Reported.id) (hnd : (t.rows.map Reported.key).Nodup) (reported deviceId now : Int) :
    Follows Reported.id t.rows (addReported be column reportable devices t reported deviceId now).2.rows
      (reportedChanges t reported deviceId now (addReported be column reportable devices t reported deviceId now).1) := by
  have hput : Follows Reported.id t.rows (putReported t deviceId ⟨reported, now, none⟩).rows
      (reportedChanges t reported deviceId now (.ok ())) := by
    rw [putReported_rows]
    refine follows_upsert ⟨t.next, reported, deviceId, now⟩ (ReportedTable.id_refresh _) hnd t.nodup_keys
      (fun _ hin => ?_)
    obtain ⟨r, hr, hid⟩ := List.mem_map.1 hin
    exact Int.ne_of_lt (t.below r hr) hid
  unfold addReported
  split
  · exact .nil _ _
  split
  · exact hput
  · split
    · rw [Backend.refused_rows]
      exact .nil _ _
    · exact hput

theorem follows_addPing (devices : List Int) (t : Keyed PingModel Int PingModel.deviceId) (d now : Int) (u : Option Int) :
    Follows PingModel.deviceId t.rows (addPing devices t d now u).2.rows
      (upsertedRow (Upserts.lookup PingModel.deviceId d t.rows) (refreshPing now u) ⟨d, now, u⟩
        (addPing devices t d now u).1) := by
  have hput := follows_upsert ⟨d, now, u⟩ (deviceId_refreshPing now u) t.keys t.keys (fun h => h)
  unfold addPing
  split
  · exact hput
  · split
    · exact .nil _ _
    · exact hput

namespace DeviceTable

variable (t : DeviceTable) (tenants groups : List Int)

theorem follows_addDevice (uuid : String) (publicKey : Option String) (serialNumber : String) (tenantId : Int)
    (groupId : Option Int) :
    Follows DeviceModel.id t.rows (t.addDevice tenants groups uuid publicKey serialNumber tenantId groupId).2.rows
      (insertedRow (t.addDevice tenants groups uuid publicKey serialNumber tenantId groupId).1) := by
  unfold addDevice
  split
  · exact .nil _ _
  · rename_i d t' h
    obtain ⟨rfl, hrows, -, -⟩ := t.addDevice_eq_ok t' tenants groups uuid publicKey serialNumber tenantId groupId d h
    refine .one (fun hin => ?_) hrows.symm
    obtain ⟨r, hr, hid⟩ := List.mem_map.1 hin
    exact Int.ne_of_lt (t.below r hr) hid

theorem follows_save (d old : DeviceModel) (hold : old ∈ t.rows) (hid : d.id = old.id) :
    Follows DeviceModel.id t.rows (t.save tenants groups d).2.rows (updatedRow (some old) (t.save tenants groups d).1) := by
  unfold save
  split
  · split
    · exact .nil _ _
    · refine .one ⟨hold, hid⟩ ?_
      show t.rows.map (fun r => if r.id = old.id then d else r) = t.rows.map (fun r => if r.id = d.id then d else r)
      rw [hid]
  · exact .nil _ _

theorem follows_updateDevice (id : Int) (uuid : String) (publicKey : Option String) (serialNumber : String)
    (tenantId : Int) (groupId : Option Int) :
    Follows DeviceModel.id t.rows (t.updateDevice tenants groups id uuid publicKey serialNumber tenantId groupId).2.rows
      (updatedRow (t.getDevice id) (t.updateDevice tenants groups id uuid publicKey serialNumber tenantId groupId).1) := by
  unfold updateDevice
  cases hf : t.getDevice id with
  | none => exact .nil _ _
  | some device => exact follows_save t tenants groups _ device ((t.getDevice_eq_some id device).1 hf).1 rfl

theorem follows_patchDevice (id : Int) (uuid publicKey serialNumber : Option String) (tenantId groupId : Option Int) :
    Follows DeviceModel.id t.rows (t.patchDevice tenants groups id uuid publicKey serialNumber tenantId groupId).2.rows
      (if uuid.isNone && publicKey.isNone && serialNumber.isNone && tenantId.isNone && groupId.isNone then []
        else updatedRow (t.getDevice id)
          (t.patchDevice tenants groups id uuid publicKey serialNumber tenantId groupId).1) := by
  unfold patchDevice
  generalize (uuid.isNone && publicKey.isNone && serialNumber.isNone && tenantId.isNone && groupId.isNone) = nothing
  cases hf : t.getDevice id with
  | none => cases nothing <;> exact .nil _ _
  | some device =>
    cases nothing with
    | true => exact .nil _ _
    | false => exact follows_save t tenants groups _ device ((t.getDevice_eq_some id device).1 hf).1 rfl

theorem follows_deleteDevice (id : Int) (held : Except DbErr Unit) :
    Follows DeviceModel.id t.rows (t.deleteDevice id held).2.rows (deletedRow (t.getDevice id) (t.deleteDevice id held).1) := by
  unfold deleteDevice
  split
  · rename_i hin
    cases held with
    | error e => exact .nil _ _
    | ok u =>
      obtain ⟨r, hr, rfl⟩ := List.mem_map.1 hin
      rw [(t.getDevice_eq_some r.id r).2 ⟨hr, rfl⟩]
      exact .one hr rfl
  · rename_i hin
    rw [(t.getDevice_eq_none id).2 hin]
    exact .nil _ _

end DeviceTable

namespace Store

/-- The table a call writes goes the way of its changes, and the others stay as they are. -/
structure Writes (s s' : Store) (n : TableName) (cs : List (RowChange n.Row)) : Prop where
  follows : Follows n.key (s.rowsOf n) (s'.rowsOf n) cs
  frame : ∀ m, m ≠ n → s'.rowsOf m = s.rowsOf m
  once : n.versioned = true → ∀ c ∈ cs, n.Once c

section Frame

variable {s : Store}

theorem writes_tenants {t : Serials.Table TenantModel TenantModel.id} {cs : List (RowChange TenantModel)}
    (h : Follows TenantModel.id s.tenants.rows t.rows cs) : Writes s { s with tenants := t } .tenants cs :=
  ⟨h, fun m hm => by cases m <;> first | rfl | exact absurd rfl hm, fun hv => absurd hv Bool.false_ne_true⟩

theorem writes_groups {t : Serials.Table GroupModel GroupModel.id} {cs : List (RowChange GroupModel)}
    (h : Follows GroupModel.id s.groups.rows t.rows cs) : Writes s { s with groups := t } .groups cs :=
  ⟨h, fun m hm => by cases m <;> first | rfl | exact absurd rfl hm, fun hv => absurd hv Bool.false_ne_true⟩

theorem writes_applications {t : Serials.Table ApplicationModel ApplicationModel.id}
    {cs : List (RowChange ApplicationModel)} (h : Follows ApplicationModel.id s.applications.rows t.rows cs) :
    Writes s { s with applications := t } .applications cs :=
  ⟨h, fun m hm => by cases m <;> first | rfl | exact absurd rfl hm, fun hv => absurd hv Bool.false_ne_true⟩

theorem writes_devices {t : DeviceTable} {cs : List (RowChange DeviceModel)}
    (h : Follows DeviceModel.id s.devices.rows t.rows cs) : Writes s { s with devices := t } .devices cs :=
  ⟨h, fun m hm => by cases m <;> first | rfl | exact absurd rfl hm, fun hv => absurd hv Bool.false_ne_true⟩

theorem writes_osVersions {t : Table OsVersion} {cs : List (RowChange (Row OsVersion))}
    (h : Entity.Trail s.osVersions t cs) : Writes s { s with osVersions := t } .osVersions cs :=
  ⟨Entity.Trail.follows h, fun m hm => by cases m <;> first | rfl | exact absurd rfl hm, fun _ => h.once⟩

theorem writes_osAssignments {t : Table OsAssignment} {cs : List (RowChange (Row OsAssignment))}
    (h : Entity.Trail s.osAssignments t cs) : Writes s { s with osAssignments := t } .osAssignments cs :=
  ⟨Entity.Trail.follows h, fun m hm => by cases m <;> first | rfl | exact absurd rfl hm, fun _ => h.once⟩

theorem writes_applicationConfigs {t : Table ApplicationConfig} {cs : List (RowChange (Row ApplicationConfig))}
    (h : Entity.Trail s.applicationConfigs t cs) : Writes s { s with applicationConfigs := t } .applicationConfigs cs :=
  ⟨Entity.Trail.follows h, fun m hm => by cases m <;> first | rfl | exact absurd rfl hm, fun _ => h.once⟩

theorem writes_applicationAssignments {t : Table ApplicationAssignment}
    {cs : List (RowChange (Row ApplicationAssignment))} (h : Entity.Trail s.applicationAssignments t cs) :
    Writes s { s with applicationAssignments := t } .applicationAssignments cs :=
  ⟨Entity.Trail.follows h, fun m hm => by cases m <;> first | rfl | exact absurd rfl hm, fun _ => h.once⟩

theorem writes_reportedApplications {t : Serials.Table Reported Reported.id} {cs : List (RowChange Reported)}
    (h : Follows Reported.id s.reportedApplicationAssignments.rows t.rows cs) :
    Writes s { s with reportedApplicationAssignments := t } .reportedApplicationAssignments cs :=
  ⟨h, fun m hm => by cases m <;> first | rfl | exact absurd rfl hm, fun hv => absurd hv Bool.false_ne_true⟩

theorem writes_reportedOs {t : Serials.Table Reported Reported.id} {cs : List (RowChange Reported)}
    (h : Follows Reported.id s.reportedOsAssignments.rows t.rows cs) :
    Writes s { s with reportedOsAssignments := t } .reportedOsAssignments cs :=
  ⟨h, fun m hm => by cases m <;> first | rfl | exact absurd rfl hm, fun hv => absurd hv Bool.false_ne_true⟩

theorem writes_pings {t : Keyed PingModel Int PingModel.deviceId} {cs : List (RowChange PingModel)}
    (h : Follows PingModel.deviceId s.pings.rows t.rows cs) : Writes s { s with pings := t } .pings cs :=
  ⟨h, fun m hm => by cases m <;> first | rfl | exact absurd rfl hm, fun hv => absurd hv Bool.false_ne_true⟩

end Frame

/-- **The changes of a call are what it does to the tables.** -/
theorem exec_writes (s : Store) (hi : s.Integral) (hs : s.db.Sound) (c : StoreCall) :
    Writes s (s.exec .postgres c) (s.writes c).1 (s.writes c).2 := by
  cases c with
  | addTenant n d => exact writes_tenants (follows_insertRow ..)
  | updateTenant id n d => exact writes_tenants (follows_updateRow ..)
  | deleteTenant id => exact writes_tenants (follows_deleteRow ..)
  | addGroup n => exact writes_groups (follows_insertRow ..)
  | updateGroup id n => exact writes_groups (follows_updateRow ..)
  | deleteGroup id => exact writes_groups (follows_deleteRow ..)
  | addApplication n d => exact writes_applications (follows_insertRow ..)
  | updateApplication id n d => exact writes_applications (follows_updateRow ..)
  | deleteApplication id => exact writes_applications (follows_deleteRow ..)
  | addDevice u k n t g => exact writes_devices (DeviceTable.follows_addDevice ..)
  | updateDevice id u k n t g => exact writes_devices (DeviceTable.follows_updateDevice ..)
  | patchDevice id u k n t g => exact writes_devices (DeviceTable.follows_patchDevice ..)
  | deleteDevice id => exact writes_devices (DeviceTable.follows_deleteDevice ..)
  | versioned c =>
    cases c with
    | base b => exact ⟨.nil _ _, fun _ _ => rfl, fun hv => absurd hv Bool.false_ne_true⟩
    | addOsVersion c o d => exact writes_osVersions (Entity.trail_insert ..)
    | updateOsVersion id c o d f => exact writes_osVersions (Entity.trail_replace _ _ _ _ _ _ _ _ hs.osVersions)
    | deleteOsVersion now id => exact writes_osVersions (Entity.trail_delete ..)
    | addOsAssignment v d g i => exact writes_osAssignments (Entity.trail_addReplacing _ _ _ _ _ _ hs.osAssignments)
    | updateOsAssignment id v d g i f => exact writes_osAssignments (Entity.trail_replace _ _ _ _ _ _ _ _ hs.osAssignments)
    | deleteOsAssignment now id => exact writes_osAssignments (Entity.trail_delete ..)
    | addApplicationConfig d g a i c =>
      exact writes_applicationConfigs (Entity.trail_addReplacing _ _ _ _ _ _ hs.applicationConfigs)
    | updateApplicationConfig id d g a i c f =>
      exact writes_applicationConfigs (Entity.trail_replace _ _ _ _ _ _ _ _ hs.applicationConfigs)
    | deleteApplicationConfig now id => exact writes_applicationConfigs (Entity.trail_delete ..)
    | addApplicationAssignmentToDevice c d =>
      exact writes_applicationAssignments (Entity.trail_addReplacing _ _ _ _ _ _ hs.applicationAssignments)
    | addApplicationAssignmentToGroup c g =>
      exact writes_applicationAssignments (Entity.trail_addReplacing _ _ _ _ _ _ hs.applicationAssignments)
    | updateApplicationAssignment id c d g f =>
      exact writes_applicationAssignments (Entity.trail_replace _ _ _ _ _ _ _ _ hs.applicationAssignments)
    | deleteApplicationAssignment now id => exact writes_applicationAssignments (Entity.trail_delete ..)
  | addReportedApplicationAssignment c d now =>
    exact writes_reportedApplications (follows_addReported _ hi.reportedApplicationKeys ..)
  | deleteReportedApplicationAssignment id => exact writes_reportedApplications (follows_deleteRow ..)
  | addReportedOsAssignment v d now => exact writes_reportedOs (follows_addReported _ hi.reportedOsKeys ..)
  | deleteReportedOsAssignment id => exact writes_reportedOs (follows_deleteRow ..)
  | upsertPing d now u => exact writes_pings (follows_addPing ..)

end Store

end Api
end ZeroDowntime
