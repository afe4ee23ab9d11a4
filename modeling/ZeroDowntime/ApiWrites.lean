import ZeroDowntime.ApiSchema
/-!
# ApiWrites — `add_*`, `update_*` and `delete_*`, and the databases their runs reach

`add_*` reads the active rows of the new row's target, inserts, then supersedes what it read, all in one transaction.
`update_*` inserts and then supersedes the row it was given, as two statements.  `run` is the database after a sequence
of calls.  A call that fails leaves the database as it was, but for an `update_*` whose second statement fails: the row of
the first one stays.
-/
namespace ZeroDowntime
namespace Api

open Versioned (Row Table Entity)

/-- The filter `add_*` puts on the rows it is going to supersede: the device if one is given, else the group. -/
def targetFilter (deviceId groupId d g : Option Int) : Bool :=
  match deviceId, groupId with
  | some did, _ => decide (d = some did)
  | none, some gid => decide (g = some gid)
  | none, none => true

structure Slot (α : Type) where
  get : Db → Table α
  set : Db → Table α → Db
  get_set : ∀ db t, get (set db t) = t

def Slot.lift {α β : Type} (s : Slot α) (db : Db) (r : Except DbErr β × Table α) : Except DbErr β × Db :=
  (r.1, s.set db r.2)

theorem Slot.lift_eq_iff {α β : Type} (s : Slot α) (db : Db) (r : Except DbErr β × Table α) (e : Except DbErr β)
    (t : Table α) : s.lift db r = (e, s.set db t) ↔ r = (e, t) := by
  unfold Slot.lift
  constructor
  · intro h
    obtain ⟨h1, h2⟩ := Prod.mk.inj h
    have ht := congrArg s.get h2
    rw [s.get_set, s.get_set] at ht
    exact Prod.ext h1 ht
  · rintro rfl; rfl

theorem Slot.lift_eq_ok {α β : Type} (s : Slot α) (db db' : Db) (r : Except DbErr β × Table α) (b : β)
    (h : s.lift db r = (.ok b, db')) : ∃ t', r = (.ok b, t') ∧ db' = s.set db t' := by
  obtain ⟨h1, h2⟩ := Prod.mk.inj h
  exact ⟨r.2, Prod.ext h1 rfl, h2.symm⟩

def osVersions : Slot OsVersion := ⟨Db.osVersions, fun db t => { db with osVersions := t }, fun _ _ => rfl⟩

def osAssignments : Slot OsAssignment :=
  ⟨Db.osAssignments, fun db t => { db with osAssignments := t }, fun _ _ => rfl⟩

def applicationConfigs : Slot ApplicationConfig :=
  ⟨Db.applicationConfigs, fun db t => { db with applicationConfigs := t }, fun _ _ => rfl⟩

def applicationAssignments : Slot ApplicationAssignment :=
  ⟨Db.applicationAssignments, fun db t => { db with applicationAssignments := t }, fun _ _ => rfl⟩

/-! ## `os_versions` -/

def addOsVersion (be : Backend) (commitHash orchestratorVersion : String) (description : Option String) (db : Db) :
    Except DbErr (Row OsVersion) × Db :=
  osVersions.lift db (osVersion.insert be.enforced (fun _ => .ok ()) db.osVersions
    ⟨commitHash, orchestratorVersion, description⟩)

/-- `failure` is the error of the UPDATE, if the database answers it with one; so in every `update_*`. -/
def updateOsVersion (be : Backend) (id : Int) (commitHash orchestratorVersion : String) (description : Option String)
    (db : Db) (failure : Option DbErr := none) : Except DbErr (Row OsVersion) × Db :=
  osVersions.lift db (osVersion.replace be.enforced (fun _ => .ok ()) (.recordNotFound "OsVersion not found") id
    (fun _ => ⟨commitHash, orchestratorVersion, description⟩) db.osVersions failure)

def deleteOsVersion (now id : Int) (db : Db) : Except DbErr Nat × Db :=
  osVersions.lift db (osVersion.delete now id db.osVersions)

/-! ## `os_assignments` -/

def addOsAssignment (be : Backend) (osVersionId : Int) (deviceId groupId : Option Int) (immediate : Option Bool)
    (db : Db) : Except DbErr (Row OsAssignment) × Db :=
  osAssignments.lift db (osAssignment.addReplacing be.enforced db.osAssignmentRefs
    (fun a => targetFilter deviceId groupId a.deviceId a.groupId)
    (fun _ => ⟨osVersionId, deviceId, groupId, some (immediate.getD false)⟩) db.osAssignments)

def updateOsAssignment (be : Backend) (id osVersionId : Int) (deviceId groupId : Option Int) (immediate : Option Bool)
    (db : Db) (failure : Option DbErr := none) : Except DbErr (Row OsAssignment) × Db :=
  osAssignments.lift db (osAssignment.replace be.enforced db.osAssignmentRefs
    (.recordNotFound "OsAssignment not found") id
    (fun _ => ⟨osVersionId, deviceId, groupId, immediate⟩) db.osAssignments failure)

def deleteOsAssignment (now id : Int) (db : Db) : Except DbErr Nat × Db :=
  osAssignments.lift db (osAssignment.delete now id db.osAssignments)

/-! ## `application_configs` -/

def maxVersion (existing : List (Row ApplicationConfig)) : Int :=
  ((existing.map (·.data.version)).max?).getD 0

def addApplicationConfig (be : Backend) (deviceId groupId : Option Int) (applicationId : Int) (image : String)
    (config : Option ContainerConfigV1) (db : Db) : Except DbErr (Row ApplicationConfig) × Db :=
  applicationConfigs.lift db (applicationConfig.addReplacing be.enforced db.applicationConfigRefs
    (fun a => decide (a.applicationId = applicationId) && targetFilter deviceId groupId a.deviceId a.groupId)
    (fun existing =>
      { deviceId, groupId, applicationId, image
        configVersion := (existing.head?.map (·.data.configVersion)).getD 1
        config
        version := maxVersion existing + 1 }) db.applicationConfigs)

def updateApplicationConfig (be : Backend) (id : Int) (deviceId groupId : Option Int) (applicationId : Int)
    (image : String) (config : Option ContainerConfigV1) (db : Db) (failure : Option DbErr := none) :
    Except DbErr (Row ApplicationConfig) × Db :=
  applicationConfigs.lift db (applicationConfig.replace be.enforced db.applicationConfigRefs
    (.recordNotFound "ApplicationConfig not found") id
    (fun current =>
      { deviceId, groupId, applicationId, image
        configVersion := current.data.configVersion
        config
        version := current.data.version + 1 }) db.applicationConfigs failure)

def deleteApplicationConfig (now id : Int) (db : Db) : Except DbErr Nat × Db :=
  applicationConfigs.lift db (applicationConfig.delete now id db.applicationConfigs)

/-! ## `application_assignments` -/

def addApplicationAssignment (be : Backend) (appConfigId : Int) (deviceId groupId : Option Int) (db : Db) :
    Except DbErr (Row ApplicationAssignment) × Db :=
  applicationAssignments.lift db (applicationAssignment.addReplacing be.enforced db.applicationAssignmentRefs
    (fun a => decide (a.applicationConfigId = appConfigId) && targetFilter deviceId groupId a.deviceId a.groupId)
    (fun _ => ⟨appConfigId, deviceId, groupId⟩) db.applicationAssignments)

def addApplicationAssignmentToDevice (be : Backend) (appConfigId deviceId : Int) (db : Db) :
    Except DbErr (Row ApplicationAssignment) × Db :=
  addApplicationAssignment be appConfigId (some deviceId) none db

def addApplicationAssignmentToGroup (be : Backend) (appConfigId groupId : Int) (db : Db) :
    Except DbErr (Row ApplicationAssignment) × Db :=
  addApplicationAssignment be appConfigId none (some groupId) db

def updateApplicationAssignment (be : Backend) (id appConfigId : Int) (deviceId groupId : Option Int) (db : Db)
    (failure : Option DbErr := none) : Except DbErr (Row ApplicationAssignment) × Db :=
  applicationAssignments.lift db (applicationAssignment.replace be.enforced db.applicationAssignmentRefs
    (.recordNotFound "ApplicationAssignment not found") id
    (fun _ => ⟨appConfigId, deviceId, groupId⟩) db.applicationAssignments failure)

def deleteApplicationAssignment (now id : Int) (db : Db) : Except DbErr Nat × Db :=
  applicationAssignments.lift db (applicationAssignment.delete now id db.applicationAssignments)

/-! ## Runs -/

def Db.refsHold (db : Db) : Bool :=
  db.osAssignments.rows.all (fun r => decide (db.osAssignmentRefs r.data = .ok ())) &&
  db.applicationConfigs.rows.all (fun r => decide (db.applicationConfigRefs r.data = .ok ())) &&
  db.applicationAssignments.rows.all (fun r => decide (db.applicationAssignmentRefs r.data = .ok ()))

/-- One call.  `base` is any sequence of statements on the unversioned tables: the foreign keys refuse it if a reference
would dangle. -/
inductive Call
  | base (b : Base)
  | addOsVersion (commitHash orchestratorVersion : String) (description : Option String)
  | updateOsVersion (id : Int) (commitHash orchestratorVersion : String) (description : Option String)
      (failure : Option DbErr)
  | deleteOsVersion (now id : Int)
  | addOsAssignment (osVersionId : Int) (deviceId groupId : Option Int) (immediate : Option Bool)
  | updateOsAssignment (id osVersionId : Int) (deviceId groupId : Option Int) (immediate : Option Bool)
      (failure : Option DbErr)
  | deleteOsAssignment (now id : Int)
  | addApplicationConfig (deviceId groupId : Option Int) (applicationId : Int) (image : String)
      (config : Option ContainerConfigV1)
  | updateApplicationConfig (id : Int) (deviceId groupId : Option Int) (applicationId : Int) (image : String)
      (config : Option ContainerConfigV1) (failure : Option DbErr)
  | deleteApplicationConfig (now id : Int)
  | addApplicationAssignmentToDevice (appConfigId deviceId : Int)
  | addApplicationAssignmentToGroup (appConfigId groupId : Int)
  | updateApplicationAssignment (id appConfigId : Int) (deviceId groupId : Option Int) (failure : Option DbErr)
  | deleteApplicationAssignment (now id : Int)
  deriving DecidableEq, Repr

def exec (be : Backend) (db : Db) : Call → Db
  | .base b => if ({ db with base := b } : Db).refsHold then { db with base := b } else db
  | .addOsVersion c o d => (addOsVersion be c o d db).2
  | .updateOsVersion id c o d f => (updateOsVersion be id c o d db f).2
  | .deleteOsVersion now id => (deleteOsVersion now id db).2
  | .addOsAssignment v d g i => (addOsAssignment be v d g i db).2
  | .updateOsAssignment id v d g i f => (updateOsAssignment be id v d g i db f).2
  | .deleteOsAssignment now id => (deleteOsAssignment now id db).2
  | .addApplicationConfig d g a i c => (addApplicationConfig be d g a i c db).2
  | .updateApplicationConfig id d g a i c f => (updateApplicationConfig be id d g a i c db f).2
  | .deleteApplicationConfig now id => (deleteApplicationConfig now id db).2
  | .addApplicationAssignmentToDevice c d => (addApplicationAssignmentToDevice be c d db).2
  | .addApplicationAssignmentToGroup c g => (addApplicationAssignmentToGroup be c g db).2
  | .updateApplicationAssignment id c d g f => (updateApplicationAssignment be id c d g db f).2
  | .deleteApplicationAssignment now id => (deleteApplicationAssignment now id db).2

def run (be : Backend) (calls : List Call) : Db := calls.foldl (exec be) Db.empty

/-- **What holds of the empty database and is kept by every call holds after every run.** -/
theorem run_induction (be : Backend) (P : Db → Prop) (h0 : P Db.empty) (hstep : ∀ db c, P db → P (exec be db c))
    (calls : List Call) : P (run be calls) := by
  unfold run
  suffices ∀ (l : List Call) (db : Db), P db → P (l.foldl (exec be) db) from this calls Db.empty h0
  intro l
  induction l with
  | nil => intro db h; exact h
  | cons c l ih => intro db h; exact ih _ (hstep db c h)

/-- **Every call changes each versioned table by at most one statement's worth.** -/
structure Stepped (be : Backend) (db db' : Db) : Prop where
  osVersions : osVersion.Change be.enforced (fun _ => .ok ()) db.osVersions db'.osVersions
  osAssignments : osAssignment.Change be.enforced db.osAssignmentRefs db.osAssignments db'.osAssignments
  applicationConfigs :
    applicationConfig.Change be.enforced db.applicationConfigRefs db.applicationConfigs db'.applicationConfigs
  applicationAssignments : applicationAssignment.Change be.enforced db.applicationAssignmentRefs
    db.applicationAssignments db'.applicationAssignments

structure Db.Sound (db : Db) : Prop where
  osVersions : osVersion.Sound db.osVersions
  osAssignments : osAssignment.Sound db.osAssignments
  applicationConfigs : applicationConfig.Sound db.applicationConfigs
  applicationAssignments : applicationAssignment.Sound db.applicationAssignments

theorem exec_stepped (be : Backend) (db : Db) (hs : db.Sound) (c : Call) : Stepped be db (exec be db c) := by
  cases c with
  | base b =>
    simp only [exec]
    split
    · exact ⟨.same, .same, .same, .same⟩
    · exact ⟨.same, .same, .same, .same⟩
  | addOsVersion c o d => exact ⟨Entity.change_insert _ _ _ _ _, .same, .same, .same⟩
  | updateOsVersion id c o d f => exact ⟨Entity.change_replace _ _ _ _ _ _ _ _ hs.osVersions, .same, .same, .same⟩
  | deleteOsVersion now id => exact ⟨Entity.change_delete _ _ _ _ _ _, .same, .same, .same⟩
  | addOsAssignment v d g i =>
    exact ⟨.same, Entity.change_addReplacing _ _ _ _ _ _ hs.osAssignments, .same, .same⟩
  | updateOsAssignment id v d g i f =>
    exact ⟨.same, Entity.change_replace _ _ _ _ _ _ _ _ hs.osAssignments, .same, .same⟩
  | deleteOsAssignment now id => exact ⟨.same, Entity.change_delete _ _ _ _ _ _, .same, .same⟩
  | addApplicationConfig d g a i c =>
    exact ⟨.same, .same, Entity.change_addReplacing _ _ _ _ _ _ hs.applicationConfigs, .same⟩
  | updateApplicationConfig id d g a i c f =>
    exact ⟨.same, .same, Entity.change_replace _ _ _ _ _ _ _ _ hs.applicationConfigs, .same⟩
  | deleteApplicationConfig now id => exact ⟨.same, .same, Entity.change_delete _ _ _ _ _ _, .same⟩
  | addApplicationAssignmentToDevice c d =>
    exact ⟨.same, .same, .same, Entity.change_addReplacing _ _ _ _ _ _ hs.applicationAssignments⟩
  | addApplicationAssignmentToGroup c g =>
    exact ⟨.same, .same, .same, Entity.change_addReplacing _ _ _ _ _ _ hs.applicationAssignments⟩
  | updateApplicationAssignment id c d g f =>
    exact ⟨.same, .same, .same, Entity.change_replace _ _ _ _ _ _ _ _ hs.applicationAssignments⟩
  | deleteApplicationAssignment now id => exact ⟨.same, .same, .same, Entity.change_delete _ _ _ _ _ _⟩

theorem empty_sound : Db.empty.Sound :=
  ⟨fun _ h => absurd h List.not_mem_nil, fun _ h => absurd h List.not_mem_nil, fun _ h => absurd h List.not_mem_nil,
    fun _ h => absurd h List.not_mem_nil⟩

theorem exec_sound (be : Backend) (db : Db) (hs : db.Sound) (c : Call) : (exec be db c).Sound :=
  have h := exec_stepped be db hs c
  ⟨Entity.sound_change _ osVersion_coherent _ _ _ _ hs.osVersions h.osVersions,
    Entity.sound_change _ osAssignment_coherent _ _ _ _ hs.osAssignments h.osAssignments,
    Entity.sound_change _ applicationConfig_coherent _ _ _ _ hs.applicationConfigs h.applicationConfigs,
    Entity.sound_change _ applicationAssignment_coherent _ _ _ _ hs.applicationAssignments h.applicationAssignments⟩

/-- **Every row a run stores passes the hook of its own UPDATE.** -/
theorem run_sound (be : Backend) (calls : List Call) : (run be calls).Sound :=
  run_induction be Db.Sound empty_sound (fun db c hs => exec_sound be db hs c) calls

end Api
end ZeroDowntime
