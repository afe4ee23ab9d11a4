import ZeroDowntime.Common
import ZeroDowntime.Statements
/-!
# ApiSchema — the versioned tables of the API server, their hooks, indexes and foreign keys

The four tables that carry `deleted_at` and `superseded_by`, over the base tables they refer to.  A table's
`before_save` hook is run for every INSERT and UPDATE.  The partial unique indexes of the last migration exist on
PostgreSQL only; there they are checked at every INSERT.
-/
namespace ZeroDowntime
namespace Api

open Versioned (Row Table Entity PartialIndex)

inductive Backend
  | sqlite
  | postgres
  deriving DecidableEq, Repr

inductive DbErr
  | custom (msg : String)
  | recordNotFound (msg : String)
  | notNullViolation (column : String)
  | uniqueViolation (index : String)
  | foreignKeyViolation (column : String)
  | sequenceExhausted
  | exec (msg : String)
  deriving DecidableEq, Repr

/-! ## Rows -/

structure OsVersion where
  commitHash : String
  orchestratorVersion : String
  description : Option String
  deriving DecidableEq, Repr

structure OsAssignment where
  osVersionId : Int
  deviceId : Option Int
  groupId : Option Int
  immediate : Bool
  deriving DecidableEq, Repr

structure OsAssignment.ActiveModel where
  osVersionId : Int
  deviceId : Option Int
  groupId : Option Int
  immediate : Option Bool
  deriving DecidableEq, Repr

/-- The `config` column holds the JSON text of `config`, which reading a row parses back. -/
structure ApplicationConfig where
  deviceId : Option Int
  groupId : Option Int
  applicationId : Int
  image : String
  configVersion : Int
  config : Option ContainerConfigV1
  version : Int
  deriving DecidableEq, Repr

structure ApplicationAssignment where
  applicationConfigId : Int
  deviceId : Option Int
  groupId : Option Int
  deriving DecidableEq, Repr

structure Device where
  id : Int
  groupId : Option Int
  deriving DecidableEq, Repr

/-- The unversioned tables the foreign keys point into. -/
structure Base where
  groups : List Int
  devices : List Device
  applications : List Int
  deriving DecidableEq, Repr

structure Db where
  base : Base
  osVersions : Table OsVersion
  osAssignments : Table OsAssignment
  applicationConfigs : Table ApplicationConfig
  applicationAssignments : Table ApplicationAssignment
  deriving DecidableEq

def Db.empty : Db where
  base := ⟨[], [], []⟩
  osVersions := Table.empty _
  osAssignments := Table.empty _
  applicationConfigs := Table.empty _
  applicationAssignments := Table.empty _

/-! ## Checks -/

/-- The first check that fails decides the error. -/
def checks : List (Bool × DbErr) → Except DbErr Unit
  | [] => .ok ()
  | (c, e) :: rest => if c then checks rest else .error e

@[simp] theorem checks_eq_ok : ∀ (l : List (Bool × DbErr)), checks l = .ok () ↔ ∀ p ∈ l, p.1 = true
  | [] => by simp [checks]
  | (c, e) :: rest => by
    rw [checks, List.forall_mem_cons]
    cases c
    · simp
    · simp [checks_eq_ok rest]

def targetSet : DbErr := .custom "Either device_id or group_id must be set"

def targetSingle : DbErr := .custom "Only one of device_id or group_id may be set, not both"

/-- `before_save` where exactly one of the device and the group has to be set. -/
def exactlyOneTarget (deviceId groupId : Option Int) : Except DbErr Unit :=
  checks [(deviceId.isSome || groupId.isSome, targetSet), (!(deviceId.isSome && groupId.isSome), targetSingle)]

/-- `before_save` of an application assignment: it refuses a row without a target, but not one with two. -/
def atLeastOneTarget (deviceId groupId : Option Int) : Except DbErr Unit :=
  checks [(deviceId.isSome || groupId.isSome, targetSet)]

def refers (column : String) (ids : List Int) (id : Int) : Bool × DbErr :=
  (ids.contains id, .foreignKeyViolation column)

def refersOpt (column : String) (ids : List Int) (id : Option Int) : Bool × DbErr :=
  (id.all ids.contains, .foreignKeyViolation column)

def Base.deviceIds (b : Base) : List Int := b.devices.map Device.id

def Db.osAssignmentRefs (db : Db) (a : OsAssignment) : Except DbErr Unit :=
  checks [refers "os_version_id" (db.osVersions.rows.map Row.id) a.osVersionId,
    refersOpt "device_id" db.base.deviceIds a.deviceId, refersOpt "group_id" db.base.groups a.groupId]

def Db.applicationConfigRefs (db : Db) (a : ApplicationConfig) : Except DbErr Unit :=
  checks [refersOpt "device_id" db.base.deviceIds a.deviceId, refersOpt "group_id" db.base.groups a.groupId,
    refers "application_id" db.base.applications a.applicationId]

def Db.applicationAssignmentRefs (db : Db) (a : ApplicationAssignment) : Except DbErr Unit :=
  checks [refers "application_config_id" (db.applicationConfigs.rows.map Row.id) a.applicationConfigId,
    refersOpt "device_id" db.base.deviceIds a.deviceId, refersOpt "group_id" db.base.groups a.groupId]

/-! ## Entities -/

def Backend.enforced (be : Backend) : Bool := decide (be = .postgres)

def uqOsAssignmentsActiveDevice : PartialIndex OsAssignment where
  name := "uq_os_assignments_active_device"
  key := fun a => a.deviceId.map (fun d => [d])

def uqOsAssignmentsActiveGroup : PartialIndex OsAssignment where
  name := "uq_os_assignments_active_group"
  key := fun a => a.groupId.map (fun g => [g])

def uqAppConfigsActiveDevice : PartialIndex ApplicationConfig where
  name := "uq_app_configs_active_device"
  key := fun a => a.deviceId.map (fun d => [a.applicationId, d])

def uqAppConfigsActiveGroup : PartialIndex ApplicationConfig where
  name := "uq_app_configs_active_group"
  key := fun a => a.groupId.map (fun g => [a.applicationId, g])

def uqAppAssignmentsActiveDevice : PartialIndex ApplicationAssignment where
  name := "uq_app_assignments_active_device"
  key := fun a => a.deviceId.map (fun d => [a.applicationConfigId, d])

def uqAppAssignmentsActiveGroup : PartialIndex ApplicationAssignment where
  name := "uq_app_assignments_active_group"
  key := fun a => a.groupId.map (fun g => [a.applicationConfigId, g])

def osVersion : Entity DbErr OsVersion OsVersion where
  beforeInsert := fun _ => .ok ()
  complete := .ok
  beforeUpdate := fun _ => .ok ()
  indexes := []
  duplicate := .uniqueViolation
  exhausted := .sequenceExhausted

/-- `immediate` is NOT NULL and has no default: an INSERT that leaves it unset is refused. -/
def OsAssignment.ActiveModel.complete (m : OsAssignment.ActiveModel) : Except DbErr OsAssignment :=
  match m.immediate with
  | some v => .ok ⟨m.osVersionId, m.deviceId, m.groupId, v⟩
  | none => .error (.notNullViolation "immediate")

def osAssignment : Entity DbErr OsAssignment.ActiveModel OsAssignment where
  beforeInsert := fun m => exactlyOneTarget m.deviceId m.groupId
  complete := OsAssignment.ActiveModel.complete
  beforeUpdate := fun a => exactlyOneTarget a.deviceId a.groupId
  indexes := [uqOsAssignmentsActiveDevice, uqOsAssignmentsActiveGroup]
  duplicate := .uniqueViolation
  exhausted := .sequenceExhausted

/-- The hook lets an UPDATE pass that leaves device and group as they were. -/
def applicationConfig : Entity DbErr ApplicationConfig ApplicationConfig where
  beforeInsert := fun m => exactlyOneTarget m.deviceId m.groupId
  complete := .ok
  beforeUpdate := fun _ => .ok ()
  indexes := [uqAppConfigsActiveDevice, uqAppConfigsActiveGroup]
  duplicate := .uniqueViolation
  exhausted := .sequenceExhausted

def applicationAssignment : Entity DbErr ApplicationAssignment ApplicationAssignment where
  beforeInsert := fun m => atLeastOneTarget m.deviceId m.groupId
  complete := .ok
  beforeUpdate := fun a => atLeastOneTarget a.deviceId a.groupId
  indexes := [uqAppAssignmentsActiveDevice, uqAppAssignmentsActiveGroup]
  duplicate := .uniqueViolation
  exhausted := .sequenceExhausted

theorem osVersion_coherent : osVersion.Coherent := fun _ _ _ _ => rfl

theorem osAssignment_coherent : osAssignment.Coherent := by
  intro m a hb hc
  simp only [osAssignment, OsAssignment.ActiveModel.complete] at hb hc ⊢
  cases hi : m.immediate with
  | none => rw [hi] at hc; cases hc
  | some v =>
    rw [hi] at hc
    simp only [Except.ok.injEq] at hc
    subst hc
    exact hb

theorem applicationConfig_coherent : applicationConfig.Coherent := fun _ _ _ _ => rfl

theorem applicationAssignment_coherent : applicationAssignment.Coherent := by
  intro m a hb hc
  simp only [applicationAssignment, Except.ok.injEq] at hb hc ⊢
  subst hc
  exact hb

end Api
end ZeroDowntime
