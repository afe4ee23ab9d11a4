import ZeroDowntime.ApiHistory
import ZeroDowntime.ApiSummaries
import ZeroDowntime.Serials
/-!
# ApiStore — every table of the API server, and every call that writes one

The versioned tables are those of `Db`; the tables its foreign keys point into have their rows here, and so have the
tables that point into it.  A DELETE is refused while a foreign key refers to the row (ON DELETE NO ACTION, on both
backends).  A call whose statement fails for a reason that is not in the tables leaves them as they are.
-/
namespace ZeroDowntime
namespace Api

open Versioned (Row Table)

structure GroupModel where
  id : Int
  name : String
  deriving DecidableEq, Repr

/-- A row of `pings`, whose primary key is `device_id`. -/
structure PingModel where
  deviceId : Int
  reportedAt : Int
  uptimeSecs : Option Int
  deriving DecidableEq, Repr

theorem Devices.refs_of_checks {tenants groups : List Int} {tenantId : Int} {groupId : Option Int}
    (h : checks [refers "tenant_id" tenants tenantId, refersOpt "group_id" groups groupId] = .ok ()) :
    tenantId ∈ tenants ∧ ∀ g, groupId = some g → g ∈ groups := by
  simp only [checks_eq_ok, List.forall_mem_cons, refers, refersOpt, List.contains_iff_mem] at h
  refine ⟨h.1, ?_⟩
  rintro g rfl
  simpa using h.2.1

theorem Devices.addDevice_refs (t t' : Devices) (tenants groups : List Int) (uuid : String) (publicKey : Option String)
    (serialNumber : String) (tenantId : Int) (groupId : Option Int) (d : DeviceModel)
    (h : t.addDevice tenants groups uuid publicKey serialNumber tenantId groupId = .ok (d, t')) :
    tenantId ∈ tenants ∧ ∀ g, groupId = some g → g ∈ groups := by
  unfold addDevice at h
  dsimp only at h
  split at h
  · cases h
  split at h
  · split at h
    · cases h
    · exact refs_of_checks ‹_›
  · cases h

/-- `devices`, its ids in the order they were handed out in. -/
structure DeviceTable extends Devices where
  ids : rows.Pairwise (fun a b => a.id < b.id)

namespace DeviceTable

def empty : DeviceTable := ⟨Devices.empty, List.Pairwise.nil⟩

def keys (t : DeviceTable) : List Int := t.rows.map DeviceModel.id

theorem nodup_keys (t : DeviceTable) : t.keys.Nodup := List.pairwise_map.2 (t.ids.imp (fun h => Int.ne_of_lt h))

/-- `find_by_id(id)` -/
def getDevice (t : DeviceTable) (id : Int) : Option DeviceModel := t.rows.find? (fun r => decide (r.id = id))

theorem getDevice_eq_some (t : DeviceTable) (id : Int) (d : DeviceModel) :
    t.getDevice id = some d ↔ d ∈ t.rows ∧ d.id = id :=
  Upserts.lookup_eq_some t.rows t.nodup_keys id d

theorem mem_keys_of_getDevice (t : DeviceTable) {id : Int} {d : DeviceModel} (h : t.getDevice id = some d) :
    d.id ∈ t.keys :=
  List.mem_map_of_mem ((t.getDevice_eq_some id d).1 h).1

theorem getDevice_eq_none (t : DeviceTable) (id : Int) : t.getDevice id = none ↔ id ∉ t.keys :=
  Upserts.lookup_eq_none id t.rows

def addDevice (t : DeviceTable) (tenants groups : List Int) (uuid : String) (publicKey : Option String)
    (serialNumber : String) (tenantId : Int) (groupId : Option Int) : Except DbErr DeviceModel × DeviceTable :=
  match h : t.toDevices.addDevice tenants groups uuid publicKey serialNumber tenantId groupId with
  | .error e => (.error e, t)
  | .ok (d, t') =>
    (.ok d,
      { t' with
        ids := by
          obtain ⟨rfl, hrows, -, -⟩ := t.addDevice_eq_ok t' tenants groups uuid publicKey serialNumber tenantId groupId d h
          rw [hrows]
          refine List.pairwise_append.2 ⟨t.ids, List.pairwise_singleton _ _, fun r hr b hb => ?_⟩
          rw [List.mem_singleton.1 hb]
          exact t.below r hr })

def uuidTaken (t : DeviceTable) (d : DeviceModel) : Bool :=
  t.rows.any (fun r => decide (r.id ≠ d.id) && decide (r.uuid = d.uuid))

theorem uuidTaken_eq_false (t : DeviceTable) (d : DeviceModel) :
    t.uuidTaken d = false ↔ ∀ r ∈ t.rows, r.uuid = d.uuid → r.id = d.id := by
  unfold uuidTaken
  rw [List.any_eq_false]
  simp only [Bool.and_eq_true, decide_eq_true_eq, not_and, ne_eq]
  exact forall₂_congr fun r _ => ⟨fun h hu => Decidable.byContradiction fun hne => h hne hu, fun h hne hu => hne (h hu)⟩

/-- The rows with `d` in the place of the row of its id. -/
def put (t : DeviceTable) (d : DeviceModel) (h : t.uuidTaken d = false) : DeviceTable where
  rows := t.rows.map (fun r => if r.id = d.id then d else r)
  next := t.next
  below := by
    intro r hr
    obtain ⟨r₀, h₀, rfl⟩ := List.mem_map.1 hr
    split
    · rename_i he
      exact he ▸ t.below r₀ h₀
    · exact t.below r₀ h₀
  uuids := by
    rw [List.map_map]
    refine List.pairwise_map.2 ((t.ids.and (List.pairwise_map.1 t.uuids)).imp_of_mem ?_)
    intro a b ha hb hab
    have hfree := (t.uuidTaken_eq_false d).1 h
    simp only [Function.comp_apply]
    split <;> split
    · omega
    · exact fun he => absurd (hfree b hb he.symm) ‹_›
    · exact fun he => absurd (hfree a ha he) ‹_›
    · exact hab.2
  ids := by
    rw [List.pairwise_map]
    refine t.ids.imp (fun {a b} hab => ?_)
    split <;> split <;> omega

/-- UPDATE devices SET … WHERE id = `d.id`: the unique index on `uuid`, then the foreign keys. -/
def save (t : DeviceTable) (tenants groups : List Int) (d : DeviceModel) : Except DbErr DeviceModel × DeviceTable :=
  if h : t.uuidTaken d = false then
    match checks [refers "tenant_id" tenants d.tenantId, refersOpt "group_id" groups d.groupId] with
    | .error e => (.error e, t)
    | .ok () => (.ok d, t.put d h)
  else (.error (.uniqueViolation "uuid"), t)

def updateDevice (t : DeviceTable) (tenants groups : List Int) (id : Int) (uuid : String) (publicKey : Option String)
    (serialNumber : String) (tenantId : Int) (groupId : Option Int) : Except DbErr DeviceModel × DeviceTable :=
  match t.getDevice id with
  | none => (.error (.recordNotFound "Device not found"), t)
  | some device => t.save tenants groups { device with uuid, publicKey, serialNumber, tenantId, groupId }

/-- A patch sets the columns it is given; without any it executes no UPDATE. -/
def patchDevice (t : DeviceTable) (tenants groups : List Int) (id : Int) (uuid publicKey serialNumber : Option String)
    (tenantId groupId : Option Int) : Except DbErr DeviceModel × DeviceTable :=
  match t.getDevice id with
  | none => (.error (.recordNotFound "Device not found"), t)
  | some device =>
    if uuid.isNone && publicKey.isNone && serialNumber.isNone && tenantId.isNone && groupId.isNone then (.ok device, t)
    else
      t.save tenants groups
        { device with
          uuid := uuid.getD device.uuid
          publicKey := publicKey.or device.publicKey
          serialNumber := serialNumber.getD device.serialNumber
          tenantId := tenantId.getD device.tenantId
          groupId := groupId.or device.groupId }

def remove (t : DeviceTable) (id : Int) : DeviceTable where
  rows := t.rows.filter (fun r => decide (r.id ≠ id))
  next := t.next
  below := fun r hr => t.below r (List.mem_filter.1 hr).1
  uuids := t.uuids.sublist (List.filter_sublist.map _)
  ids := t.ids.filter _

def deleteDevice (t : DeviceTable) (id : Int) (held : Except DbErr Unit) : Except DbErr Nat × DeviceTable :=
  if id ∈ t.keys then
    match held with
    | .error e => (.error e, t)
    | .ok () => (.ok 1, t.remove id)
  else (.ok 0, t)

/-- The devices stay, and each is as it was or refers to what is there. -/
structure Kept (tenants groups : List Int) (t t' : DeviceTable) : Prop where
  keys : ∀ i ∈ t.keys, i ∈ t'.keys
  rows : ∀ r ∈ t'.rows, r ∈ t.rows ∨ (r.tenantId ∈ tenants ∧ ∀ g, r.groupId = some g → g ∈ groups)

theorem Kept.refl {tenants groups : List Int} (t : DeviceTable) : Kept tenants groups t t :=
  ⟨fun _ h => h, fun _ h => .inl h⟩

theorem kept_addDevice (t : DeviceTable) (tenants groups : List Int) (uuid : String) (publicKey : Option String)
    (serialNumber : String) (tenantId : Int) (groupId : Option Int) :
    Kept tenants groups t (t.addDevice tenants groups uuid publicKey serialNumber tenantId groupId).2 := by
  unfold addDevice
  split
  · exact .refl t
  · rename_i d t' h
    obtain ⟨rfl, hrows, -, -⟩ := t.addDevice_eq_ok t' tenants groups uuid publicKey serialNumber tenantId groupId d h
    refine ⟨fun i hi => ?_, fun r hr => ?_⟩
    · rw [keys, hrows, List.map_append]
      exact List.mem_append_left _ hi
    · rw [hrows] at hr
      refine (List.mem_append.1 hr).imp_right (fun hr => ?_)
      rw [List.mem_singleton.1 hr]
      exact t.addDevice_refs t' tenants groups uuid publicKey serialNumber tenantId groupId _ h

theorem mem_put (t : DeviceTable) (d : DeviceModel) (h : t.uuidTaken d = false) (hd : d.id ∈ t.keys) (r : DeviceModel) :
    r ∈ (t.put d h).rows ↔ (r ∈ t.rows ∧ r.id ≠ d.id) ∨ r = d := by
  constructor
  · intro hr
    obtain ⟨r₀, h₀, rfl⟩ := List.mem_map.1 hr
    by_cases he : r₀.id = d.id
    · rw [if_pos he]
      exact .inr rfl
    · rw [if_neg he]
      exact .inl ⟨h₀, he⟩
  · rintro (⟨hr, hne⟩ | rfl)
    · exact List.mem_map.2 ⟨r, hr, if_neg hne⟩
    · obtain ⟨r₀, h₀, he⟩ := List.mem_map.1 hd
      exact List.mem_map.2 ⟨r₀, h₀, if_pos he⟩

theorem keys_put (t : DeviceTable) (d : DeviceModel) (h : t.uuidTaken d = false) : (t.put d h).keys = t.keys := by
  unfold keys put
  rw [List.map_map]
  refine List.map_congr_left (fun r _ => ?_)
  simp only [Function.comp_apply]
  split
  · exact Eq.symm ‹_›
  · rfl

theorem kept_save (t : DeviceTable) (tenants groups : List Int) (d : DeviceModel) (hd : d.id ∈ t.keys) :
    Kept tenants groups t (t.save tenants groups d).2 := by
  unfold save
  split
  · rename_i h
    split
    · exact .refl t
    · rename_i hc
      refine ⟨fun i hi => by rwa [keys_put], fun r hr => ?_⟩
      rcases (t.mem_put d h hd r).1 hr with ⟨hr, -⟩ | rfl
      · exact .inl hr
      · exact .inr (Devices.refs_of_checks hc)
  · exact .refl t

theorem kept_updateDevice (t : DeviceTable) (tenants groups : List Int) (id : Int) (uuid : String)
    (publicKey : Option String) (serialNumber : String) (tenantId : Int) (groupId : Option Int) :
    Kept tenants groups t (t.updateDevice tenants groups id uuid publicKey serialNumber tenantId groupId).2 := by
  unfold updateDevice
  split
  · exact .refl t
  · rename_i device hf
    have hd : device.id ∈ t.keys := t.mem_keys_of_getDevice hf
    exact kept_save t _ _ _ hd

theorem kept_patchDevice (t : DeviceTable) (tenants groups : List Int) (id : Int)
    (uuid publicKey serialNumber : Option String) (tenantId groupId : Option Int) :
    Kept tenants groups t (t.patchDevice tenants groups id uuid publicKey serialNumber tenantId groupId).2 := by
  unfold patchDevice
  split
  · exact .refl t
  · rename_i device hf
    split
    · exact .refl t
    · have hd : device.id ∈ t.keys := t.mem_keys_of_getDevice hf
      exact kept_save t _ _ _ hd

theorem mem_keys_remove (t : DeviceTable) (id j : Int) : j ∈ (t.remove id).keys ↔ j ∈ t.keys ∧ j ≠ id := by
  simp only [keys, remove, List.mem_map, List.mem_filter, decide_eq_true_eq]
  constructor
  · rintro ⟨r, ⟨hr, hne⟩, rfl⟩
    exact ⟨⟨r, hr, rfl⟩, hne⟩
  · rintro ⟨⟨r, hr, rfl⟩, hne⟩
    exact ⟨r, ⟨hr, hne⟩, rfl⟩

end DeviceTable

/-! ## The store -/

structure Store where
  tenants : Serials.Table TenantModel TenantModel.id
  groups : Serials.Table GroupModel GroupModel.id
  devices : DeviceTable
  applications : Serials.Table ApplicationModel ApplicationModel.id
  applicationConfigs : Table ApplicationConfig
  applicationAssignments : Table ApplicationAssignment
  osVersions : Table OsVersion
  osAssignments : Table OsAssignment
  reportedApplicationAssignments : Serials.Table Reported Reported.id
  reportedOsAssignments : Serials.Table Reported Reported.id
  pings : Keyed PingModel Int PingModel.deviceId

/-- A call that writes.  `versioned` is one of the calls on the versioned tables. -/
inductive StoreCall
  | addTenant (name : String) (description : Option String)
  | updateTenant (id : Int) (name : String) (description : Option String)
  | deleteTenant (id : Int)
  | addGroup (name : String)
  | updateGroup (id : Int) (name : String)
  | deleteGroup (id : Int)
  | addApplication (name description : String)
  | updateApplication (id : Int) (name description : String)
  | deleteApplication (id : Int)
  | addDevice (uuid : String) (publicKey : Option String) (serialNumber : String) (tenantId : Int) (groupId : Option Int)
  | updateDevice (id : Int) (uuid : String) (publicKey : Option String) (serialNumber : String) (tenantId : Int)
      (groupId : Option Int)
  | patchDevice (id : Int) (uuid publicKey serialNumber : Option String) (tenantId groupId : Option Int)
  | deleteDevice (id : Int)
  | versioned (call : Call)
  | addReportedApplicationAssignment (applicationConfigId deviceId now : Int)
  | deleteReportedApplicationAssignment (id : Int)
  | addReportedOsAssignment (osVersionId deviceId now : Int)
  | deleteReportedOsAssignment (id : Int)
  | upsertPing (deviceId now : Int) (uptimeSecs : Option Int)
  deriving DecidableEq, Repr

/-! ## Statements on one table -/

/-- `insert(db)` of a row that refers to nothing. -/
def insertRow {α : Type} {id : α → Int} (t : Serials.Table α id) (row : Int → α) (h : ∀ n, id (row n) = n) :
    Except DbErr α × Serials.Table α id :=
  if Versioned.idLimit ≤ t.next then (.error .sequenceExhausted, t)
  else (.ok (row t.next), t.push (row t.next) (h t.next))

/-- `find_by_id(id)`, then UPDATE. -/
def updateRow {α : Type} {id : α → Int} (t : Serials.Table α id) (notFound : String) (i : Int) (set : α → α)
    (h : ∀ r, id (set r) = id r) : Except DbErr α × Serials.Table α id :=
  match t.find i with
  | none => (.error (.recordNotFound notFound), t)
  | some r => (.ok (set r), t.modify i set h)

/-- `delete_by_id(id).exec(db)`, where `held` is what the foreign keys into the table say. -/
def deleteRow {α : Type} {id : α → Int} (t : Serials.Table α id) (i : Int) (held : Except DbErr Unit) :
    Except DbErr Nat × Serials.Table α id :=
  if i ∈ t.keys then
    match held with
    | .error e => (.error e, t)
    | .ok () => (.ok 1, t.remove i)
  else (.ok 0, t)

theorem ReportedTable.id_refresh (u : Report) (r : Reported) : (ReportedTable.refresh u r).id = r.id := rfl

def putReported (t : Serials.Table Reported Reported.id) (deviceId : Int) (u : Report) :
    Serials.Table Reported Reported.id :=
  t.upsert Reported.key (ReportedTable.refresh u) ⟨t.next, u.reported, deviceId, u.now⟩ (ReportedTable.id_refresh u) rfl

theorem putReported_rows (t : Serials.Table Reported Reported.id) (deviceId : Int) (u : Report) :
    (putReported t deviceId u).rows =
      Upserts.upsert Reported.key (ReportedTable.refresh u) ⟨t.next, u.reported, deviceId, u.now⟩ t.rows :=
  t.upsert_rows _ _ _ _ _

/-- The ids after a row that a foreign key refuses: PostgreSQL does not give its id back. -/
def Backend.refused {α : Type} {id : α → Int} (be : Backend) (t : Serials.Table α id) : Serials.Table α id :=
  match be with
  | .postgres => t.draw
  | .sqlite => t

@[simp] theorem Backend.refused_rows {α : Type} {id : α → Int} (be : Backend) (t : Serials.Table α id) :
    (be.refused t).rows = t.rows := by
  cases be <;> rfl

/-- `Entity::insert(..).on_conflict(..).exec(db)` on either table of reports.  It draws an id, also where the row is there. -/
def addReported (be : Backend) (column : String) (reportable devices : List Int)
    (t : Serials.Table Reported Reported.id) (reported deviceId now : Int) :
    Except DbErr Unit × Serials.Table Reported Reported.id :=
  if Versioned.idLimit ≤ t.next then (.error .sequenceExhausted, t)
  else if ∃ r ∈ t.rows, r.key = (deviceId, reported) then (.ok (), putReported t deviceId ⟨reported, now, none⟩)
  else
    match checks [refers column reportable reported, refers "device_id" devices deviceId] with
    | .error e => (.error e, be.refused t)
    | .ok () => (.ok (), putReported t deviceId ⟨reported, now, none⟩)

def refreshPing (now : Int) (uptimeSecs : Option Int) (p : PingModel) : PingModel :=
  { p with reportedAt := now, uptimeSecs }

theorem deviceId_refreshPing (now : Int) (uptimeSecs : Option Int) (p : PingModel) :
    (refreshPing now uptimeSecs p).deviceId = p.deviceId := rfl

def putPing (t : Keyed PingModel Int PingModel.deviceId) (deviceId now : Int) (uptimeSecs : Option Int) :
    Keyed PingModel Int PingModel.deviceId where
  rows := Upserts.upsert PingModel.deviceId (refreshPing now uptimeSecs) ⟨deviceId, now, uptimeSecs⟩ t.rows
  keys := Upserts.nodup_upsert (deviceId_refreshPing now uptimeSecs) _ _ t.keys

/-- `Entity::insert(..).on_conflict(..).exec(db)` on `pings`. -/
def addPing (devices : List Int) (t : Keyed PingModel Int PingModel.deviceId) (deviceId now : Int)
    (uptimeSecs : Option Int) : Except DbErr Unit × Keyed PingModel Int PingModel.deviceId :=
  if deviceId ∈ t.rows.map PingModel.deviceId then (.ok (), putPing t deviceId now uptimeSecs)
  else
    match checks [refers "device_id" devices deviceId] with
    | .error e => (.error e, t)
    | .ok () => (.ok (), putPing t deviceId now uptimeSecs)

namespace Store

def empty : Store where
  tenants := .empty _ _
  groups := .empty _ _
  devices := .empty
  applications := .empty _ _
  applicationConfigs := .empty _
  applicationAssignments := .empty _
  osVersions := .empty _
  osAssignments := .empty _
  reportedApplicationAssignments := .empty _ _
  reportedOsAssignments := .empty _ _
  pings := ⟨[], List.nodup_nil⟩

/-- The tables that the foreign keys of the versioned tables point into. -/
def base (s : Store) : Base where
  groups := s.groups.keys
  devices := s.devices.rows.map (fun d => ⟨d.id, d.groupId⟩)
  applications := s.applications.keys

def db (s : Store) : Db where
  base := s.base
  osVersions := s.osVersions
  osAssignments := s.osAssignments
  applicationConfigs := s.applicationConfigs
  applicationAssignments := s.applicationAssignments

/-- The versioned tables of `db`. -/
def withDb (s : Store) (db : Db) : Store :=
  { s with
    osVersions := db.osVersions
    osAssignments := db.osAssignments
    applicationConfigs := db.applicationConfigs
    applicationAssignments := db.applicationAssignments }

def configIds (s : Store) : List Int := s.applicationConfigs.rows.map Row.id

def osVersionIds (s : Store) : List Int := s.osVersions.rows.map Row.id

/-! ## The foreign keys into a table, at a DELETE -/

def free (column : String) (referred : Bool) : Bool × DbErr := (!referred, .foreignKeyViolation column)

def heldTenant (s : Store) (id : Int) : Except DbErr Unit :=
  checks [free "tenant_id" (s.devices.rows.any (fun d => decide (d.tenantId = id)))]

def heldGroup (s : Store) (id : Int) : Except DbErr Unit :=
  checks [free "group_id" (s.devices.rows.any (fun d => decide (d.groupId = some id))),
    free "group_id" (s.applicationConfigs.rows.any (fun r => decide (r.data.groupId = some id))),
    free "group_id" (s.applicationAssignments.rows.any (fun r => decide (r.data.groupId = some id))),
    free "group_id" (s.osAssignments.rows.any (fun r => decide (r.data.groupId = some id)))]

def heldApplication (s : Store) (id : Int) : Except DbErr Unit :=
  checks [free "application_id" (s.applicationConfigs.rows.any (fun r => decide (r.data.applicationId = id)))]

def heldDevice (s : Store) (id : Int) : Except DbErr Unit :=
  checks [free "device_id" (s.applicationConfigs.rows.any (fun r => decide (r.data.deviceId = some id))),
    free "device_id" (s.applicationAssignments.rows.any (fun r => decide (r.data.deviceId = some id))),
    free "device_id" (s.osAssignments.rows.any (fun r => decide (r.data.deviceId = some id))),
    free "device_id" (s.reportedApplicationAssignments.rows.any (fun r => decide (r.deviceId = id))),
    free "device_id" (s.reportedOsAssignments.rows.any (fun r => decide (r.deviceId = id))),
    free "device_id" (s.pings.rows.any (fun p => decide (p.deviceId = id)))]

/-! ## The calls -/

def addTenant (name : String) (description : Option String) (s : Store) : Except DbErr TenantModel × Store :=
  let r := insertRow s.tenants (fun id => ⟨id, name, description⟩) (fun _ => rfl)
  (r.1, { s with tenants := r.2 })

def updateTenant (id : Int) (name : String) (description : Option String) (s : Store) :
    Except DbErr TenantModel × Store :=
  let r := updateRow s.tenants "Tenant not found" id (fun t => { t with name, description }) (fun _ => rfl)
  (r.1, { s with tenants := r.2 })

def deleteTenant (id : Int) (s : Store) : Except DbErr Nat × Store :=
  let r := deleteRow s.tenants id (s.heldTenant id)
  (r.1, { s with tenants := r.2 })

def addGroup (name : String) (s : Store) : Except DbErr GroupModel × Store :=
  let r := insertRow s.groups (fun id => ⟨id, name⟩) (fun _ => rfl)
  (r.1, { s with groups := r.2 })

def updateGroup (id : Int) (name : String) (s : Store) : Except DbErr GroupModel × Store :=
  let r := updateRow s.groups "Group not found" id (fun g => { g with name }) (fun _ => rfl)
  (r.1, { s with groups := r.2 })

def deleteGroup (id : Int) (s : Store) : Except DbErr Nat × Store :=
  let r := deleteRow s.groups id (s.heldGroup id)
  (r.1, { s with groups := r.2 })

def addApplication (name description : String) (s : Store) : Except DbErr ApplicationModel × Store :=
  let r := insertRow s.applications (fun id => ⟨id, name, description⟩) (fun _ => rfl)
  (r.1, { s with applications := r.2 })

def updateApplication (id : Int) (name description : String) (s : Store) : Except DbErr ApplicationModel × Store :=
  let r := updateRow s.applications "Application not found" id (fun a => { a with name, description }) (fun _ => rfl)
  (r.1, { s with applications := r.2 })

def deleteApplication (id : Int) (s : Store) : Except DbErr Nat × Store :=
  let r := deleteRow s.applications id (s.heldApplication id)
  (r.1, { s with applications := r.2 })

def addDevice (uuid : String) (publicKey : Option String) (serialNumber : String) (tenantId : Int)
    (groupId : Option Int) (s : Store) : Except DbErr DeviceModel × Store :=
  let r := s.devices.addDevice s.tenants.keys s.groups.keys uuid publicKey serialNumber tenantId groupId
  (r.1, { s with devices := r.2 })

def updateDevice (id : Int) (uuid : String) (publicKey : Option String) (serialNumber : String) (tenantId : Int)
    (groupId : Option Int) (s : Store) : Except DbErr DeviceModel × Store :=
  let r := s.devices.updateDevice s.tenants.keys s.groups.keys id uuid publicKey serialNumber tenantId groupId
  (r.1, { s with devices := r.2 })

def patchDevice (id : Int) (uuid publicKey serialNumber : Option String) (tenantId groupId : Option Int) (s : Store) :
    Except DbErr DeviceModel × Store :=
  let r := s.devices.patchDevice s.tenants.keys s.groups.keys id uuid publicKey serialNumber tenantId groupId
  (r.1, { s with devices := r.2 })

def deleteDevice (id : Int) (s : Store) : Except DbErr Nat × Store :=
  let r := s.devices.deleteDevice id (s.heldDevice id)
  (r.1, { s with devices := r.2 })

def addReportedApplicationAssignment (be : Backend) (applicationConfigId deviceId now : Int) (s : Store) :
    Except DbErr Unit × Store :=
  let r := addReported be "application_config_id" s.configIds s.devices.keys s.reportedApplicationAssignments
    applicationConfigId deviceId now
  (r.1, { s with reportedApplicationAssignments := r.2 })

def deleteReportedApplicationAssignment (id : Int) (s : Store) : Except DbErr Nat × Store :=
  let r := deleteRow s.reportedApplicationAssignments id (.ok ())
  (r.1, { s with reportedApplicationAssignments := r.2 })

def addReportedOsAssignment (be : Backend) (osVersionId deviceId now : Int) (s : Store) : Except DbErr Unit × Store :=
  let r := addReported be "os_version_id" s.osVersionIds s.devices.keys s.reportedOsAssignments osVersionId deviceId now
  (r.1, { s with reportedOsAssignments := r.2 })

def deleteReportedOsAssignment (id : Int) (s : Store) : Except DbErr Nat × Store :=
  let r := deleteRow s.reportedOsAssignments id (.ok ())
  (r.1, { s with reportedOsAssignments := r.2 })

def upsertPing (deviceId now : Int) (uptimeSecs : Option Int) (s : Store) : Except DbErr Unit × Store :=
  let r := addPing s.devices.keys s.pings deviceId now uptimeSecs
  (r.1, { s with pings := r.2 })

/-- The tables after a call.  `Call.base` is no call. -/
def exec (be : Backend) (s : Store) : StoreCall → Store
  | .addTenant n d => (s.addTenant n d).2
  | .updateTenant id n d => (s.updateTenant id n d).2
  | .deleteTenant id => (s.deleteTenant id).2
  | .addGroup n => (s.addGroup n).2
  | .updateGroup id n => (s.updateGroup id n).2
  | .deleteGroup id => (s.deleteGroup id).2
  | .addApplication n d => (s.addApplication n d).2
  | .updateApplication id n d => (s.updateApplication id n d).2
  | .deleteApplication id => (s.deleteApplication id).2
  | .addDevice u k n t g => (s.addDevice u k n t g).2
  | .updateDevice id u k n t g => (s.updateDevice id u k n t g).2
  | .patchDevice id u k n t g => (s.patchDevice id u k n t g).2
  | .deleteDevice id => (s.deleteDevice id).2
  | .versioned (.base _) => s
  | .versioned c => s.withDb (Api.exec be s.db c)
  | .addReportedApplicationAssignment c d now => (s.addReportedApplicationAssignment be c d now).2
  | .deleteReportedApplicationAssignment id => (s.deleteReportedApplicationAssignment id).2
  | .addReportedOsAssignment v d now => (s.addReportedOsAssignment be v d now).2
  | .deleteReportedOsAssignment id => (s.deleteReportedOsAssignment id).2
  | .upsertPing d now u => (s.upsertPing d now u).2

def run (be : Backend) (calls : List StoreCall) (s : Store) : Store := calls.foldl (exec be) s

end Store

end Api
end ZeroDowntime
