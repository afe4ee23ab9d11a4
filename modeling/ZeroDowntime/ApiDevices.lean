import ZeroDowntime.ApiSchema
/-!
# ApiDevices — the `devices` table and the answers of the handlers

`uuid` is the only unique column: `public_key` and `serial_number` may repeat.
-/
namespace ZeroDowntime
namespace Api

inductive StatusCode
  | created
  | badRequest
  | unauthorized
  | imATeapot
  | internalServerError
  deriving DecidableEq, Repr

/-- The rows of a table, no two with the same primary key. -/
structure Keyed (α κ : Type) (key : α → κ) where
  rows : List α
  keys : (rows.map key).Nodup

/-- The filter of an optional parameter. -/
def eqIfGiven {β : Type} [DecidableEq β] (given : Option β) (b : β) : Bool := given.all (fun a => decide (b = a))

/-- A row of `devices`. -/
structure DeviceModel where
  id : Int
  uuid : String
  publicKey : Option String
  serialNumber : String
  tenantId : Int
  groupId : Option Int
  deriving DecidableEq, Repr

structure Devices where
  rows : List DeviceModel
  next : Int
  below : ∀ r ∈ rows, r.id < next
  uuids : (rows.map DeviceModel.uuid).Nodup

namespace Devices

def empty : Devices := ⟨[], 1, fun _ h => (List.not_mem_nil h).elim, List.nodup_nil⟩

/-- `Entity::find().filter(Uuid.eq(uuid)).one(db)` -/
def getDeviceByUuid (t : Devices) (uuid : String) : Option DeviceModel :=
  t.rows.find? (fun r => decide (r.uuid = uuid))

theorem getDeviceByUuid_eq_some (t : Devices) (uuid : String) (d : DeviceModel)
    (h : t.getDeviceByUuid uuid = some d) : d ∈ t.rows ∧ d.uuid = uuid :=
  ⟨List.mem_of_find?_eq_some h, by simpa using List.find?_some h⟩

def uuidFree (t : Devices) (uuid : String) : Bool := t.rows.all (fun r => decide (r.uuid ≠ uuid))

theorem uuidFree_eq_true (t : Devices) (uuid : String) :
    t.uuidFree uuid = true ↔ uuid ∉ t.rows.map DeviceModel.uuid := by
  simp [uuidFree]

def push (t : Devices) (d : DeviceModel) (hid : d.id = t.next) (huuid : d.uuid ∉ t.rows.map DeviceModel.uuid) :
    Devices where
  rows := t.rows ++ [d]
  next := t.next + 1
  below := by
    intro r hr
    rcases List.mem_append.1 hr with h | h
    · have := t.below r h
      omega
    · obtain rfl := List.mem_singleton.1 h
      omega
  uuids := by
    rw [List.map_append]
    refine List.nodup_append.2 ⟨t.uuids, by simp, ?_⟩
    rintro a ha b hb rfl
    simp only [List.map_cons, List.map_nil, List.mem_singleton] at hb
    exact huuid (hb ▸ ha)

/-- `ActiveModel.insert(db)`: the unique index on `uuid`, then the foreign keys. -/
def addDevice (t : Devices) (tenants groups : List Int) (uuid : String) (publicKey : Option String)
    (serialNumber : String) (tenantId : Int) (groupId : Option Int) : Except DbErr (DeviceModel × Devices) :=
  let device : DeviceModel := ⟨t.next, uuid, publicKey, serialNumber, tenantId, groupId⟩
  if Versioned.idLimit ≤ t.next then .error .sequenceExhausted
  else if h : t.uuidFree uuid = true then
    match checks [refers "tenant_id" tenants tenantId, refersOpt "group_id" groups groupId] with
    | .error e => .error e
    | .ok _ => .ok (device, t.push device rfl ((t.uuidFree_eq_true uuid).1 h))
  else .error (.uniqueViolation "uuid")

/-- **What an accepted INSERT stores**: a row with a new id and the values it was given, behind the rows of before. -/
theorem addDevice_eq_ok (t t' : Devices) (tenants groups : List Int) (uuid : String) (publicKey : Option String)
    (serialNumber : String) (tenantId : Int) (groupId : Option Int) (d : DeviceModel)
    (h : t.addDevice tenants groups uuid publicKey serialNumber tenantId groupId = .ok (d, t')) :
    d = ⟨t.next, uuid, publicKey, serialNumber, tenantId, groupId⟩ ∧ t'.rows = t.rows ++ [d] ∧
      t'.next = t.next + 1 ∧ tenantId ∈ tenants := by
  unfold addDevice at h
  dsimp only at h
  split at h
  · cases h
  split at h
  · split at h
    · cases h
    · rename_i hc
      obtain ⟨rfl, rfl⟩ := Prod.mk.inj (Except.ok.inj h)
      have hall := (checks_eq_ok _).1 hc
      exact ⟨rfl, rfl, rfl, by simpa [refers] using hall _ (List.mem_cons_self ..)⟩
  · cases h

end Devices

end Api
end ZeroDowntime
