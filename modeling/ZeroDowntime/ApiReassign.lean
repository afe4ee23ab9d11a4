import ZeroDowntime.ApiWrites
/-!
# ApiReassign — when a new row takes its target over

An `add_*` call inserts before it supersedes.  On PostgreSQL the partial unique indexes are checked at the INSERT, while
the row it is about to supersede is still active, so the call commits exactly when its key is vacant
(`reassign_commits_iff`).  An `update_*` call supersedes only the row it was given (`replace_succeeds_iff`).
-/
namespace ZeroDowntime
namespace Api

open Versioned (Row Table Entity PartialIndex)

/-- What a row is assigned to: exactly one device or group. -/
inductive Target
  | device (id : Int)
  | group (id : Int)
  deriving DecidableEq, Repr

def Target.deviceId : Target → Option Int
  | .device d => some d
  | .group _ => none

def Target.groupId : Target → Option Int
  | .device _ => none
  | .group g => some g

def Target.holds (tgt : Target) (deviceId groupId : Option Int) : Bool :=
  match tgt with
  | .device d => decide (deviceId = some d)
  | .group g => decide (groupId = some g)

def Target.stored (tgt : Target) (b : Base) : Prop :=
  match tgt with
  | .device d => d ∈ b.deviceIds
  | .group g => g ∈ b.groups

@[simp] theorem targetFilter_target (tgt : Target) (d g : Option Int) :
    targetFilter tgt.deviceId tgt.groupId d g = tgt.holds d g := by cases tgt <;> rfl

@[simp] theorem Target.holds_self (tgt : Target) : tgt.holds tgt.deviceId tgt.groupId = true := by
  cases tgt <;> simp [Target.holds, Target.deviceId, Target.groupId]

@[simp] theorem exactlyOneTarget_target (tgt : Target) : exactlyOneTarget tgt.deviceId tgt.groupId = .ok () := by
  cases tgt <;> rfl

@[simp] theorem atLeastOneTarget_target (tgt : Target) : atLeastOneTarget tgt.deviceId tgt.groupId = .ok () := by
  cases tgt <;> rfl

theorem Target.stored_iff (tgt : Target) (b : Base) :
    tgt.stored b ↔ (refersOpt "device_id" b.deviceIds tgt.deviceId).1 = true ∧
      (refersOpt "group_id" b.groups tgt.groupId).1 = true := by
  cases tgt <;> simp [Target.stored, Target.deviceId, Target.groupId, refersOpt]

/-! ## The keys of the unique indexes -/

def osKey (tgt : Target) (a : OsAssignment) : Bool := tgt.holds a.deviceId a.groupId

def configKey (applicationId : Int) (tgt : Target) (a : ApplicationConfig) : Bool :=
  decide (a.applicationId = applicationId) && tgt.holds a.deviceId a.groupId

def assignmentKey (appConfigId : Int) (tgt : Target) (a : ApplicationAssignment) : Bool :=
  decide (a.applicationConfigId = appConfigId) && tgt.holds a.deviceId a.groupId

def Vacant {α : Type} (key : α → Bool) (t : Table α) : Prop := ∀ r ∈ t.rows, r.active = true → key r.data = false

theorem untaken_iff {α : Type} (ix : PartialIndex α) (cols : α → List Int) (col : α → Option Int)
    (hix : ∀ a, ix.key a = (col a).map (fun x => cols a ++ [x])) (t : Table α) (a : α) :
    ix.taken t a = false ↔
      ∀ x, col a = some x → ∀ r ∈ t.rows, r.active = true → ¬ (cols r.data = cols a ∧ col r.data = some x) := by
  have hkey : ∀ (b : α) (x : Int), ix.key b = some (cols a ++ [x]) ↔ cols b = cols a ∧ col b = some x := by
    intro b x
    rw [hix b]
    cases col b with
    | none => simp
    | some y =>
      simp only [Option.map_some, Option.some.injEq]
      constructor
      · intro h; exact ⟨List.append_inj_left' h rfl, List.singleton_inj.1 (List.append_inj_right' h rfl)⟩
      · rintro ⟨h1, h2⟩; rw [h1, h2]
  rw [PartialIndex.taken_eq_false]
  constructor
  · intro h x hx r hr hact hc
    exact h (cols a ++ [x]) ((hkey a x).2 ⟨rfl, hx⟩) r hr hact ((hkey r.data x).2 hc)
  · intro h k hk r hr hact hc
    cases hcol : col a with
    | none => rw [hix a, hcol] at hk; cases hk
    | some x =>
      have hka := (hkey a x).2 ⟨rfl, hcol⟩
      rw [hk, Option.some.injEq] at hka
      rw [hka] at hc
      exact h x hcol r hr hact ((hkey r.data x).1 hc)

/-- **A pair of indexes, one on the device and one on the group, refuses exactly the keys that are not vacant.** -/
theorem untaken_iff_vacant {α : Type} (dev grp : PartialIndex α) (cols : α → List Int) (deviceId groupId : α → Option Int)
    (hdev : ∀ a, dev.key a = (deviceId a).map (fun d => cols a ++ [d]))
    (hgrp : ∀ a, grp.key a = (groupId a).map (fun g => cols a ++ [g])) (t : Table α) (tgt : Target) (a : α)
    (hd : deviceId a = tgt.deviceId) (hg : groupId a = tgt.groupId) :
    (∀ ix ∈ [dev, grp], ix.taken t a = false) ↔
      Vacant (fun b => decide (cols b = cols a) && tgt.holds (deviceId b) (groupId b)) t := by
  simp only [List.forall_mem_cons, untaken_iff dev cols deviceId hdev, untaken_iff grp cols groupId hgrp, hd, hg]
  cases tgt with
  | device d => simp [Target.deviceId, Target.groupId, Target.holds, Vacant]
  | group g => simp [Target.deviceId, Target.groupId, Target.holds, Vacant]

theorem osAssignment_untaken_iff (t : Table OsAssignment) (tgt : Target) (a : OsAssignment)
    (hd : a.deviceId = tgt.deviceId) (hg : a.groupId = tgt.groupId) :
    (∀ ix ∈ osAssignment.indexes, ix.taken t a = false) ↔ Vacant (osKey tgt) t := by
  have h := untaken_iff_vacant uqOsAssignmentsActiveDevice uqOsAssignmentsActiveGroup (fun _ => [])
    OsAssignment.deviceId OsAssignment.groupId (fun _ => rfl) (fun _ => rfl) t tgt a hd hg
  simp only [decide_true, Bool.true_and] at h
  exact h

theorem applicationConfig_untaken_iff (t : Table ApplicationConfig) (tgt : Target) (a : ApplicationConfig)
    (hd : a.deviceId = tgt.deviceId) (hg : a.groupId = tgt.groupId) :
    (∀ ix ∈ applicationConfig.indexes, ix.taken t a = false) ↔ Vacant (configKey a.applicationId tgt) t := by
  have h := untaken_iff_vacant uqAppConfigsActiveDevice uqAppConfigsActiveGroup (fun b => [b.applicationId])
    ApplicationConfig.deviceId ApplicationConfig.groupId (fun _ => rfl) (fun _ => rfl) t tgt a hd hg
  simp only [List.cons.injEq, and_true] at h
  exact h

theorem applicationAssignment_untaken_iff (t : Table ApplicationAssignment) (tgt : Target) (a : ApplicationAssignment)
    (hd : a.deviceId = tgt.deviceId) (hg : a.groupId = tgt.groupId) :
    (∀ ix ∈ applicationAssignment.indexes, ix.taken t a = false) ↔
      Vacant (assignmentKey a.applicationConfigId tgt) t := by
  have h := untaken_iff_vacant uqAppAssignmentsActiveDevice uqAppAssignmentsActiveGroup
    (fun b => [b.applicationConfigId]) ApplicationAssignment.deviceId ApplicationAssignment.groupId
    (fun _ => rfl) (fun _ => rfl) t tgt a hd hg
  simp only [List.cons.injEq, and_true] at h
  exact h

/-! ## When an INSERT for a target is accepted -/

theorem Target.refersOpt_iff (tgt : Target) (b : Base) (p : Prop) :
    (p ∧ (refersOpt "device_id" b.deviceIds tgt.deviceId).1 = true ∧
      (refersOpt "group_id" b.groups tgt.groupId).1 = true) ↔ p ∧ tgt.stored b :=
  and_congr_right (fun _ => (tgt.stored_iff b).symm)

theorem osAssignmentRefs_iff (db : Db) (v : Int) (tgt : Target) (i : Bool) :
    db.osAssignmentRefs ⟨v, tgt.deviceId, tgt.groupId, i⟩ = .ok () ↔
      v ∈ db.osVersions.rows.map Row.id ∧ tgt.stored db.base := by
  rw [← tgt.refersOpt_iff]
  simp [Db.osAssignmentRefs, refers]

theorem applicationConfigRefs_iff (db : Db) (tgt : Target) (a : ApplicationConfig) (hd : a.deviceId = tgt.deviceId)
    (hg : a.groupId = tgt.groupId) :
    db.applicationConfigRefs a = .ok () ↔ a.applicationId ∈ db.base.applications ∧ tgt.stored db.base := by
  rw [← tgt.refersOpt_iff]
  simp only [Db.applicationConfigRefs, hd, hg, checks_eq_ok, refers, List.forall_mem_cons, List.contains_iff_mem]
  simp only [List.not_mem_nil, false_implies, implies_true, and_true]
  constructor
  · rintro ⟨h1, h2, h3⟩; exact ⟨h3, h1, h2⟩
  · rintro ⟨h3, h1, h2⟩; exact ⟨h1, h2, h3⟩

theorem applicationAssignmentRefs_iff (db : Db) (c : Int) (tgt : Target) :
    db.applicationAssignmentRefs ⟨c, tgt.deviceId, tgt.groupId⟩ = .ok () ↔
      c ∈ db.applicationConfigs.rows.map Row.id ∧ tgt.stored db.base := by
  rw [← tgt.refersOpt_iff]
  simp [Db.applicationAssignmentRefs, refers]

theorem osAssignment_accepts_iff (be : Backend) (db : Db) (v : Int) (tgt : Target) (i : Option Bool) :
    (∃ a, osAssignment.accept be.enforced db.osAssignmentRefs db.osAssignments
        ⟨v, tgt.deviceId, tgt.groupId, i⟩ = .ok a) ↔
      i.isSome = true ∧ (v ∈ db.osVersions.rows.map Row.id ∧ tgt.stored db.base) ∧
        db.osAssignments.next < Versioned.idLimit ∧ (be = .postgres → Vacant (osKey tgt) db.osAssignments) := by
  simp only [Entity.accept_eq_ok]
  cases i with
  | none => simp [osAssignment, OsAssignment.ActiveModel.complete]
  | some i =>
    simp only [osAssignment, OsAssignment.ActiveModel.complete, exactlyOneTarget_target, Except.ok.injEq, true_and,
      exists_eq_left', Backend.enforced, decide_eq_true_eq, Option.isSome_some]
    rw [osAssignmentRefs_iff, ← osAssignment_untaken_iff db.osAssignments tgt ⟨v, tgt.deviceId, tgt.groupId, i⟩ rfl rfl]
    constructor
    · rintro ⟨h1, h2, h3⟩; exact ⟨h3, h1, h2⟩
    · rintro ⟨h3, h1, h2⟩; exact ⟨h1, h2, h3⟩

theorem applicationConfig_accepts_iff (be : Backend) (db : Db) (tgt : Target) (applicationId : Int)
    (m : ApplicationConfig) (hd : m.deviceId = tgt.deviceId) (hg : m.groupId = tgt.groupId)
    (ha : m.applicationId = applicationId) :
    (∃ a, applicationConfig.accept be.enforced db.applicationConfigRefs db.applicationConfigs m = .ok a) ↔
      (applicationId ∈ db.base.applications ∧ tgt.stored db.base) ∧
        db.applicationConfigs.next < Versioned.idLimit ∧
        (be = .postgres → Vacant (configKey applicationId tgt) db.applicationConfigs) := by
  subst ha
  simp only [Entity.accept_eq_ok]
  simp only [applicationConfig, hd, hg, exactlyOneTarget_target, Except.ok.injEq, true_and, exists_eq_left',
    Backend.enforced, decide_eq_true_eq]
  rw [applicationConfigRefs_iff db tgt m hd hg, ← applicationConfig_untaken_iff db.applicationConfigs tgt m hd hg]
  constructor
  · rintro ⟨h1, h2, h3⟩; exact ⟨h3, h1, h2⟩
  · rintro ⟨h3, h1, h2⟩; exact ⟨h1, h2, h3⟩

theorem applicationAssignment_accepts_iff (be : Backend) (db : Db) (c : Int) (tgt : Target) :
    (∃ a, applicationAssignment.accept be.enforced db.applicationAssignmentRefs db.applicationAssignments
        ⟨c, tgt.deviceId, tgt.groupId⟩ = .ok a) ↔
      (c ∈ db.applicationConfigs.rows.map Row.id ∧ tgt.stored db.base) ∧
        db.applicationAssignments.next < Versioned.idLimit ∧
        (be = .postgres → Vacant (assignmentKey c tgt) db.applicationAssignments) := by
  simp only [Entity.accept_eq_ok]
  simp only [applicationAssignment, atLeastOneTarget_target, Except.ok.injEq, true_and, exists_eq_left',
    Backend.enforced, decide_eq_true_eq]
  rw [applicationAssignmentRefs_iff,
    ← applicationAssignment_untaken_iff db.applicationAssignments tgt ⟨c, tgt.deviceId, tgt.groupId⟩ rfl rfl]
  constructor
  · rintro ⟨h1, h2, h3⟩; exact ⟨h3, h1, h2⟩
  · rintro ⟨h3, h1, h2⟩; exact ⟨h1, h2, h3⟩

/-! ## `add_*`: the key has to be vacant -/

inductive AddCall
  | osAssignment (osVersionId : Int) (tgt : Target) (immediate : Option Bool)
  | applicationConfig (tgt : Target) (applicationId : Int) (image : String) (config : Option ContainerConfigV1)
  | assignmentToDevice (appConfigId deviceId : Int)
  | assignmentToGroup (appConfigId groupId : Int)
  deriving DecidableEq, Repr

def AddCall.RefsHold (db : Db) : AddCall → Prop
  | .osAssignment v tgt _ => v ∈ db.osVersions.rows.map Row.id ∧ tgt.stored db.base
  | .applicationConfig tgt a _ _ => a ∈ db.base.applications ∧ tgt.stored db.base
  | .assignmentToDevice c d => c ∈ db.applicationConfigs.rows.map Row.id ∧ (Target.device d).stored db.base
  | .assignmentToGroup c g => c ∈ db.applicationConfigs.rows.map Row.id ∧ (Target.group g).stored db.base

/-- The outcome commits a new row that takes its key over, in one table and nowhere else. -/
def TakesOver {α : Type} (s : Slot α) (key : α → Bool) (db : Db) (out : Except DbErr (Row α) × Db) : Prop :=
  ∃ new t', out = (.ok new, s.set db t') ∧ Table.Reassigned key (s.get db) t' new

def AddCall.Commits (be : Backend) (db : Db) : AddCall → Prop
  | .osAssignment v tgt i =>
    TakesOver osAssignments (osKey tgt) db (addOsAssignment be v tgt.deviceId tgt.groupId i db)
  | .applicationConfig tgt a img c =>
    TakesOver applicationConfigs (configKey a tgt) db (addApplicationConfig be tgt.deviceId tgt.groupId a img c db)
  | .assignmentToDevice c d =>
    TakesOver applicationAssignments (assignmentKey c (.device d)) db (addApplicationAssignmentToDevice be c d db)
  | .assignmentToGroup c g =>
    TakesOver applicationAssignments (assignmentKey c (.group g)) db (addApplicationAssignmentToGroup be c g db)

/-- The table has an id left, and on PostgreSQL no active row has the key. -/
def Free {α : Type} (be : Backend) (key : α → Bool) (t : Table α) : Prop :=
  t.next < Versioned.idLimit ∧ (be = .postgres → Vacant key t)

def AddCall.Free (be : Backend) (db : Db) : AddCall → Prop
  | .osAssignment _ tgt _ => Api.Free be (osKey tgt) db.osAssignments
  | .applicationConfig tgt a _ _ => Api.Free be (configKey a tgt) db.applicationConfigs
  | .assignmentToDevice c d => Api.Free be (assignmentKey c (.device d)) db.applicationAssignments
  | .assignmentToGroup c g => Api.Free be (assignmentKey c (.group g)) db.applicationAssignments

theorem takesOver_iff {A α : Type} (s : Slot α) (E : Entity DbErr A α) (be : Backend) (db : Db)
    (fk : α → Except DbErr Unit) (key : α → Bool) (m : List (Row α) → A) (hs : E.Sound (s.get db))
    (hk : ∀ olds a, E.complete (m olds) = .ok a → key a = true) :
    TakesOver s key db (s.lift db (E.addReplacing be.enforced fk key m (s.get db))) ↔
      ∃ a, E.accept be.enforced fk (s.get db) (m ((s.get db).rows.filter (fun r => r.active && key r.data))) = .ok a := by
  unfold TakesOver
  simp only [Slot.lift_eq_iff]
  exact E.addReplacing_reassigns_iff be.enforced fk key m (s.get db) hs hk

theorem assignment_takesOver_iff (be : Backend) (db : Db) (hs : db.Sound) (c : Int) (tgt : Target) :
    TakesOver applicationAssignments (assignmentKey c tgt) db
        (addApplicationAssignment be c tgt.deviceId tgt.groupId db) ↔
      (c ∈ db.applicationConfigs.rows.map Row.id ∧ tgt.stored db.base) ∧
        Free be (assignmentKey c tgt) db.applicationAssignments := by
  unfold addApplicationAssignment
  simp only [targetFilter_target]
  refine (takesOver_iff applicationAssignments _ be db _ (assignmentKey c tgt) _ hs.applicationAssignments ?_).trans
    (applicationAssignment_accepts_iff be db c tgt)
  intro _ a ha
  simp only [applicationAssignment, Except.ok.injEq] at ha
  subst ha
  simp [assignmentKey]

theorem AddCall.commits_iff (be : Backend) (db : Db) (hs : db.Sound) (c : AddCall) (h : c.RefsHold db) :
    c.Commits be db ↔ c.Free be db := by
  cases c with
  | osAssignment v tgt i =>
    simp only [AddCall.Commits, AddCall.Free, addOsAssignment, targetFilter_target]
    refine ((takesOver_iff osAssignments _ be db _ (osKey tgt) _ hs.osAssignments ?_).trans
      (osAssignment_accepts_iff be db v tgt _)).trans ?_
    · intro _ a ha
      simp only [Api.osAssignment, OsAssignment.ActiveModel.complete, Except.ok.injEq] at ha
      subst ha
      simp [osKey]
    · exact ⟨fun h' => h'.2.2, fun h' => ⟨rfl, h, h'⟩⟩
  | applicationConfig tgt a img cfg =>
    simp only [AddCall.Commits, AddCall.Free, addApplicationConfig, targetFilter_target]
    refine ((takesOver_iff applicationConfigs _ be db _ (configKey a tgt) _ hs.applicationConfigs ?_).trans
      (applicationConfig_accepts_iff be db tgt a _ rfl rfl rfl)).trans ?_
    · intro _ a' ha
      simp only [Api.applicationConfig, Except.ok.injEq] at ha
      subst ha
      simp [configKey]
    · exact ⟨fun h' => h'.2, fun h' => ⟨h, h'⟩⟩
  | assignmentToDevice cfg d =>
    exact (assignment_takesOver_iff be db hs cfg (.device d)).trans ⟨fun h' => h'.2, fun h' => ⟨h, h'⟩⟩
  | assignmentToGroup cfg g =>
    exact (assignment_takesOver_iff be db hs cfg (.group g)).trans ⟨fun h' => h'.2, fun h' => ⟨h, h'⟩⟩

/-- **On PostgreSQL, after every run, an `add_*` call commits and takes its key over exactly when no row is active for
that key** and an id is left. -/
theorem reassign_commits_iff (calls : List Call) (c : AddCall) (h : c.RefsHold (run .postgres calls)) :
    c.Commits .postgres (run .postgres calls) ↔ c.Free .postgres (run .postgres calls) :=
  c.commits_iff .postgres _ (run_sound .postgres calls) h

def assignedOnce : List Call :=
  [.base ⟨[], [⟨1, none⟩], []⟩, .addOsVersion "aabbccdd" "1.0.0" none, .addOsAssignment 1 (some 1) none none]

theorem reassign_commits_first :
    (AddCall.osAssignment 1 (.device 1) none).Commits .postgres (run .postgres (assignedOnce.take 2)) :=
  (reassign_commits_iff (assignedOnce.take 2) (.osAssignment 1 (.device 1) none)
    ⟨by decide, by simp [Target.stored]; decide⟩).2 ⟨by decide, fun _ => by unfold Vacant; decide⟩

/-- **The second assignment of a device is refused**: its INSERT meets the index while the first row is active. -/
theorem reassign_refused :
    (AddCall.osAssignment 1 (.device 1) none).RefsHold (run .postgres assignedOnce) ∧
      ¬ (AddCall.osAssignment 1 (.device 1) none).Commits .postgres (run .postgres assignedOnce) := by
  refine ⟨⟨by decide, by simp [Target.stored]; decide⟩, ?_⟩
  rintro ⟨new, t', h, -⟩
  have hrefused : (addOsAssignment .postgres 1 (some 1) none none (run .postgres assignedOnce)).1
      = .error (.uniqueViolation "uq_os_assignments_active_device") := by decide
  rw [show addOsAssignment .postgres 1 (some 1) none none (run .postgres assignedOnce) = _ from h] at hrefused
  cases hrefused

/-! ## `update_*`: only the given row is superseded -/

inductive UpdateCall
  | osAssignment (id osVersionId : Int) (tgt : Target) (immediate : Option Bool)
  | applicationConfig (id : Int) (tgt : Target) (applicationId : Int) (image : String)
      (config : Option ContainerConfigV1)
  | applicationAssignment (id appConfigId : Int) (tgt : Target)
  deriving DecidableEq, Repr

/-- The call names an active row and a stored target. -/
def UpdateCall.Applies (db : Db) : UpdateCall → Prop
  | .osAssignment id _ tgt _ => (db.osAssignments.findActive id).isSome = true ∧ tgt.stored db.base
  | .applicationConfig id tgt _ _ _ => (db.applicationConfigs.findActive id).isSome = true ∧ tgt.stored db.base
  | .applicationAssignment id _ tgt => (db.applicationAssignments.findActive id).isSome = true ∧ tgt.stored db.base

/-- The outcome supersedes row `id` by a new row that is alone on its key. -/
def Replaces {α : Type} (s : Slot α) (key : α → Bool) (id : Int) (db : Db) (out : Except DbErr (Row α) × Db) : Prop :=
  ∃ current ∈ (s.get db).findActive id, ∃ new t', out = (.ok new, s.set db t') ∧
    current.supersede new.id ∈ t'.rows ∧ t'.OnlyActive key new

def UpdateCall.Succeeds (be : Backend) (db : Db) : UpdateCall → Prop
  | .osAssignment id v tgt i =>
    Replaces osAssignments (osKey tgt) id db (updateOsAssignment be id v tgt.deviceId tgt.groupId i db)
  | .applicationConfig id tgt a img c =>
    Replaces applicationConfigs (configKey a tgt) id db
      (updateApplicationConfig be id tgt.deviceId tgt.groupId a img c db)
  | .applicationAssignment id c tgt =>
    Replaces applicationAssignments (assignmentKey c tgt) id db
      (updateApplicationAssignment be id c tgt.deviceId tgt.groupId db)

/-- The key is free for the successor of row `id`: no other row is active for it, and on PostgreSQL not even row `id`
itself. -/
def FreeFor {α : Type} (be : Backend) (key : α → Bool) (id : Int) (t : Table α) : Prop :=
  Free be key t ∧ ∀ r ∈ t.rows, r.active = true → key r.data = true → r.id = id

def UpdateCall.Clear (be : Backend) (db : Db) : UpdateCall → Prop
  | .osAssignment id v tgt i =>
    v ∈ db.osVersions.rows.map Row.id ∧ i.isSome = true ∧ FreeFor be (osKey tgt) id db.osAssignments
  | .applicationConfig id tgt a _ _ =>
    a ∈ db.base.applications ∧ FreeFor be (configKey a tgt) id db.applicationConfigs
  | .applicationAssignment id c tgt =>
    c ∈ db.applicationConfigs.rows.map Row.id ∧ FreeFor be (assignmentKey c tgt) id db.applicationAssignments

theorem replaces_iff {A α : Type} (s : Slot α) (E : Entity DbErr A α) (be : Backend) (db : Db)
    (fk : α → Except DbErr Unit) (key : α → Bool) (notFound : DbErr) (id : Int) (m : Row α → A)
    (hs : E.Sound (s.get db)) (hk : ∀ old a, E.complete (m old) = .ok a → key a = true) (p : Prop)
    (hsome : ((s.get db).findActive id).isSome = true)
    (hp : ∀ current, (∃ a, E.accept be.enforced fk (s.get db) (m current) = .ok a) ↔ p) :
    Replaces s key id db (s.lift db (E.replace be.enforced fk notFound id m (s.get db))) ↔
      p ∧ ∀ r ∈ (s.get db).rows, r.active = true → key r.data = true → r.id = id := by
  obtain ⟨current, hf⟩ := Option.isSome_iff_exists.1 hsome
  have h := E.replace_onlyActive_iff be.enforced fk notFound id m (s.get db) key current hs hf (hk current)
  rw [hp current] at h
  refine Iff.trans ?_ h
  unfold Replaces
  simp only [hf, Option.mem_def, Option.some.injEq, exists_eq_left', Slot.lift_eq_iff]

theorem UpdateCall.succeeds_iff (be : Backend) (db : Db) (hs : db.Sound) (c : UpdateCall) (h : c.Applies db) :
    c.Succeeds be db ↔ c.Clear be db := by
  cases c with
  | osAssignment id v tgt i =>
    obtain ⟨hact, htgt⟩ := h
    refine (replaces_iff osAssignments _ be db _ (osKey tgt) _ id _ hs.osAssignments ?_ _ hact
      (fun _ => osAssignment_accepts_iff be db v tgt i)).trans ?_
    · intro _ a ha
      cases i with
      | none => cases ha
      | some i =>
        simp only [Api.osAssignment, OsAssignment.ActiveModel.complete, Except.ok.injEq] at ha
        subst ha
        simp [osKey]
    · constructor
      · rintro ⟨⟨hi, ⟨hv, -⟩, hfree⟩, hown⟩; exact ⟨hv, hi, hfree, hown⟩
      · rintro ⟨hv, hi, hfree, hown⟩; exact ⟨⟨hi, ⟨hv, htgt⟩, hfree⟩, hown⟩
  | applicationConfig id tgt a img cfg =>
    obtain ⟨hact, htgt⟩ := h
    refine (replaces_iff applicationConfigs _ be db _ (configKey a tgt) _ id _ hs.applicationConfigs ?_ _ hact
      (fun current => applicationConfig_accepts_iff be db tgt a ⟨tgt.deviceId, tgt.groupId, a, img,
        current.data.configVersion, cfg, current.data.version + 1⟩ rfl rfl rfl)).trans ?_
    · intro _ a' ha
      simp only [Api.applicationConfig, Except.ok.injEq] at ha
      subst ha
      simp [configKey]
    · constructor
      · rintro ⟨⟨⟨ha, -⟩, hfree⟩, hown⟩; exact ⟨ha, hfree, hown⟩
      · rintro ⟨ha, hfree, hown⟩; exact ⟨⟨⟨ha, htgt⟩, hfree⟩, hown⟩
  | applicationAssignment id cfg tgt =>
    obtain ⟨hact, htgt⟩ := h
    refine (replaces_iff applicationAssignments _ be db _ (assignmentKey cfg tgt) _ id _ hs.applicationAssignments ?_ _
      hact (fun _ => applicationAssignment_accepts_iff be db cfg tgt)).trans ?_
    · intro _ a ha
      simp only [Api.applicationAssignment, Except.ok.injEq] at ha
      subst ha
      simp [assignmentKey]
    · constructor
      · rintro ⟨⟨⟨hc, -⟩, hfree⟩, hown⟩; exact ⟨hc, hfree, hown⟩
      · rintro ⟨hc, hfree, hown⟩; exact ⟨⟨⟨hc, htgt⟩, hfree⟩, hown⟩

/-- **On either backend, after every run, an `update_*` call leaves one active row for its key exactly when the key is
free for it**, what the row refers to is stored, and an OS assignment is given its `immediate`. -/
theorem replace_succeeds_iff (be : Backend) (calls : List Call) (c : UpdateCall) (h : c.Applies (run be calls)) :
    c.Succeeds be (run be calls) ↔ c.Clear be (run be calls) :=
  c.succeeds_iff be _ (run_sound be calls) h

def assignedBoth : List Call :=
  [.base ⟨[], [⟨1, none⟩, ⟨2, none⟩], []⟩, .addOsVersion "aabbccdd" "1.0.0" none,
    .addOsAssignment 1 (some 1) none none, .addOsAssignment 1 (some 2) none none]

theorem replace_succeeds_in_place :
    (UpdateCall.osAssignment 1 1 (.device 1) (some true)).Succeeds .sqlite (run .sqlite assignedBoth) :=
  (replace_succeeds_iff .sqlite assignedBoth (.osAssignment 1 1 (.device 1) (some true))
    ⟨by decide, by simp [Target.stored]; decide⟩).2
    ⟨by decide, rfl, ⟨by decide, fun h => by cases h⟩, by decide⟩

/-- **A row is refused its own target on PostgreSQL, loses it without `immediate`, and joins another active row on
SQLite.** -/
theorem replace_fails :
    ((UpdateCall.osAssignment 1 1 (.device 1) (some false)).Applies (run .postgres assignedBoth) ∧
        ¬ (UpdateCall.osAssignment 1 1 (.device 1) (some false)).Succeeds .postgres (run .postgres assignedBoth)) ∧
      ((UpdateCall.osAssignment 1 1 (.device 1) none).Applies (run .sqlite assignedBoth) ∧
        ¬ (UpdateCall.osAssignment 1 1 (.device 1) none).Succeeds .sqlite (run .sqlite assignedBoth)) ∧
      ((UpdateCall.osAssignment 1 1 (.device 2) (some false)).Applies (run .sqlite assignedBoth) ∧
        ¬ (UpdateCall.osAssignment 1 1 (.device 2) (some false)).Succeeds .sqlite (run .sqlite assignedBoth)) := by
  refine ⟨⟨⟨by decide, by simp [Target.stored]; decide⟩, ?_⟩, ⟨⟨by decide, by simp [Target.stored]; decide⟩, ?_⟩,
    ⟨⟨by decide, by simp [Target.stored]; decide⟩, ?_⟩⟩
  · rintro ⟨_, _, new, t', h, -⟩
    have hrefused : (updateOsAssignment .postgres 1 1 (some 1) none (some false) (run .postgres assignedBoth)).1
        = .error (.uniqueViolation "uq_os_assignments_active_device") := by decide
    rw [show updateOsAssignment .postgres 1 1 (some 1) none (some false) (run .postgres assignedBoth) = _ from h]
      at hrefused
    cases hrefused
  · rintro ⟨_, _, new, t', h, -⟩
    have hrefused : (updateOsAssignment .sqlite 1 1 (some 1) none none (run .sqlite assignedBoth)).1
        = .error (.notNullViolation "immediate") := by decide
    rw [show updateOsAssignment .sqlite 1 1 (some 1) none none (run .sqlite assignedBoth) = _ from h] at hrefused
    cases hrefused
  · rintro ⟨_, _, new, t', h, -, -, honly⟩
    have hrows : (updateOsAssignment .sqlite 1 1 (some 2) none (some false) (run .sqlite assignedBoth)).2.osAssignments.rows
        = [⟨1, none, some 3, ⟨1, some 1, none, false⟩⟩, ⟨2, none, none, ⟨1, some 2, none, false⟩⟩,
          ⟨3, none, none, ⟨1, some 2, none, false⟩⟩] := by decide
    rw [show updateOsAssignment .sqlite 1 1 (some 2) none (some false) (run .sqlite assignedBoth) = _ from h] at hrows
    change t'.rows = _ at hrows
    rw [hrows] at honly
    have h2 := (honly ⟨2, none, none, ⟨1, some 2, none, false⟩⟩ (by simp)).1 ⟨rfl, rfl⟩
    have h3 := (honly ⟨3, none, none, ⟨1, some 2, none, false⟩⟩ (by simp)).1 ⟨rfl, rfl⟩
    rw [← h2] at h3
    cases h3

end Api
end ZeroDowntime
