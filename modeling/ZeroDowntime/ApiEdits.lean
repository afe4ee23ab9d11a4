import ZeroDowntime.Edits
import ZeroDowntime.ApiWrites
/-!
# ApiEdits — two edits of one row at the same time

`update_*` and `delete_*` run their statements outside any transaction.  Two of them on one row that are under way
together leave what no order of the two leaves, unless one is an update that is refused as it would have been alone
(`edits_linearizable_iff`).
-/
namespace ZeroDowntime
namespace Api

open Versioned (Row Table Entity Edit Answer Pair Site)

/-- A table whose rows are edited, with what its `update_*` and `delete_*` use. -/
structure EditedTable (A α : Type) where
  slot : Slot α
  entity : Entity DbErr A α
  refs : Db → α → Except DbErr Unit
  notFound : String
  set_set : ∀ db t t', slot.set (slot.set db t) t' = slot.set db t'
  refs_set : ∀ db t, refs (slot.set db t) = refs db
  sound : ∀ db, db.Sound → entity.Sound (slot.get db)
  found : ∀ enforced db t m, entity.accept enforced (refs db) t m ≠ .error (.recordNotFound notFound)

def EditedTable.site {A α : Type} (T : EditedTable A α) (be : Backend) (db : Db) (id : Int) : Site DbErr A α :=
  ⟨T.entity, be.enforced, T.refs db, .recordNotFound T.notFound, id⟩

/-- A call of `update_*` or `delete_*`: its statements, one after the other, are the call. -/
structure EditRequest {A α : Type} (T : EditedTable A α) (be : Backend) (id : Int) where
  edit : Edit A α
  call : Db → Answer DbErr α × Db
  statements : ∀ db, call db = (((T.site be db id).alone edit (T.slot.get db)).1,
    T.slot.set db ((T.site be db id).alone edit (T.slot.get db)).2)

def updating {α : Type} (call : Db → Except DbErr (Row α) × Db) (db : Db) : Answer DbErr α × Db :=
  (.updated (call db).1, (call db).2)

def deleting {α : Type} (call : Db → Except DbErr Nat × Db) (db : Db) : Answer DbErr α × Db :=
  (.deleted (call db).1, (call db).2)

/-! ## The tables -/

theorem checks_ne_error (e : DbErr) : ∀ l : List (Bool × DbErr), (∀ p ∈ l, p.2 ≠ e) → checks l ≠ .error e
  | [], _, h => nomatch h
  | (c, e') :: rest, hl, h => by
    rw [checks] at h
    split at h
    · exact checks_ne_error e rest (fun p hp => hl p (List.mem_cons_of_mem _ hp)) h
    · exact hl _ List.mem_cons_self (Except.error.inj h)

def osVersionsTable : EditedTable OsVersion OsVersion where
  slot := osVersions
  entity := osVersion
  refs := fun _ _ => .ok ()
  notFound := "OsVersion not found"
  set_set := fun _ _ _ => rfl
  refs_set := fun _ _ => rfl
  sound := fun _ h => h.osVersions
  found := fun _ _ _ _ => Entity.accept_ne_error _ _ _ _ _ _ nofun nofun (fun _ => nofun) (fun _ => nofun) nofun

def osAssignmentsTable : EditedTable OsAssignment.ActiveModel OsAssignment where
  slot := osAssignments
  entity := osAssignment
  refs := Db.osAssignmentRefs
  notFound := "OsAssignment not found"
  set_set := fun _ _ _ => rfl
  refs_set := fun _ _ => rfl
  sound := fun _ h => h.osAssignments
  found := fun _ _ _ m => by
    refine Entity.accept_ne_error _ _ _ _ _ _ ?_ ?_ (fun _ => nofun) (fun _ => ?_) nofun
    · exact checks_ne_error _ _ (by simp [targetSet, targetSingle])
    · show m.complete ≠ _
      unfold OsAssignment.ActiveModel.complete
      split <;> simp
    · exact checks_ne_error _ _ (by simp [refers, refersOpt])

def applicationConfigsTable : EditedTable ApplicationConfig ApplicationConfig where
  slot := applicationConfigs
  entity := applicationConfig
  refs := Db.applicationConfigRefs
  notFound := "ApplicationConfig not found"
  set_set := fun _ _ _ => rfl
  refs_set := fun _ _ => rfl
  sound := fun _ h => h.applicationConfigs
  found := fun _ _ _ _ => by
    refine Entity.accept_ne_error _ _ _ _ _ _ ?_ nofun (fun _ => nofun) (fun _ => ?_) nofun
    · exact checks_ne_error _ _ (by simp [targetSet, targetSingle])
    · exact checks_ne_error _ _ (by simp [refers, refersOpt])

def applicationAssignmentsTable : EditedTable ApplicationAssignment ApplicationAssignment where
  slot := applicationAssignments
  entity := applicationAssignment
  refs := Db.applicationAssignmentRefs
  notFound := "ApplicationAssignment not found"
  set_set := fun _ _ _ => rfl
  refs_set := fun _ _ => rfl
  sound := fun _ h => h.applicationAssignments
  found := fun _ _ _ _ => by
    refine Entity.accept_ne_error _ _ _ _ _ _ ?_ nofun (fun _ => nofun) (fun _ => ?_) nofun
    · exact checks_ne_error _ _ (by simp [targetSet])
    · exact checks_ne_error _ _ (by simp [refers, refersOpt])

/-! ## The requests -/

variable (be : Backend) (id : Int)

def updateOsVersion.request (commitHash orchestratorVersion : String) (description : Option String) :
    EditRequest osVersionsTable be id where
  edit := .update (fun _ => ⟨commitHash, orchestratorVersion, description⟩)
  call := updating (fun db => updateOsVersion be id commitHash orchestratorVersion description db)
  statements := fun _ => rfl

def deleteOsVersion.request (now : Int) : EditRequest osVersionsTable be id where
  edit := .delete now
  call := deleting (deleteOsVersion now id)
  statements := fun _ => rfl

def updateOsAssignment.request (osVersionId : Int) (deviceId groupId : Option Int) (immediate : Option Bool) :
    EditRequest osAssignmentsTable be id where
  edit := .update (fun _ => ⟨osVersionId, deviceId, groupId, immediate⟩)
  call := updating (fun db => updateOsAssignment be id osVersionId deviceId groupId immediate db)
  statements := fun _ => rfl

def deleteOsAssignment.request (now : Int) : EditRequest osAssignmentsTable be id where
  edit := .delete now
  call := deleting (deleteOsAssignment now id)
  statements := fun _ => rfl

def updateApplicationConfig.request (deviceId groupId : Option Int) (applicationId : Int) (image : String)
    (config : Option ContainerConfigV1) : EditRequest applicationConfigsTable be id where
  edit := .update (fun current =>
    { deviceId, groupId, applicationId, image
      configVersion := current.data.configVersion
      config
      version := current.data.version + 1 })
  call := updating (fun db => updateApplicationConfig be id deviceId groupId applicationId image config db)
  statements := fun _ => rfl

def deleteApplicationConfig.request (now : Int) : EditRequest applicationConfigsTable be id where
  edit := .delete now
  call := deleting (deleteApplicationConfig now id)
  statements := fun _ => rfl

def updateApplicationAssignment.request (appConfigId : Int) (deviceId groupId : Option Int) :
    EditRequest applicationAssignmentsTable be id where
  edit := .update (fun _ => ⟨appConfigId, deviceId, groupId⟩)
  call := updating (fun db => updateApplicationAssignment be id appConfigId deviceId groupId db)
  statements := fun _ => rfl

def deleteApplicationAssignment.request (now : Int) : EditRequest applicationAssignmentsTable be id where
  edit := .delete now
  call := deleting (deleteApplicationAssignment now id)
  statements := fun _ => rfl

/-! ## Two at the same time -/

section

variable {A α : Type} {T : EditedTable A α} {be id}

/-- The statements of the two requests, in the order of the schedule. -/
def interleaved (requests : Bool → EditRequest T be id) (db : Db) (schedule : List Bool) : Pair DbErr α :=
  (T.site be db id).interleave (fun s => (requests s).edit) (.start (T.slot.get db)) schedule

/-- The answers and the database are those of the call `s`, and then of the other. -/
structure OneAfterTheOther (requests : Bool → EditRequest T be id) (db : Db) (p : Pair DbErr α) (s : Bool) : Prop where
  first : p.stages s = .done ((requests s).call db).1
  second : p.stages (!s) = .done ((requests (!s)).call ((requests s).call db).2).1
  database : T.slot.set db p.table = ((requests (!s)).call ((requests s).call db).2).2

theorem oneAfterTheOther_iff (requests : Bool → EditRequest T be id) (db : Db) (p : Pair DbErr α) (s : Bool) :
    OneAfterTheOther requests db p s ↔
      (T.site be db id).Sequential (fun s => (requests s).edit) (T.slot.get db) s p := by
  have hsecond : ∀ t, T.site be (T.slot.set db t) id = T.site be db id := fun t => by
    rw [EditedTable.site, T.refs_set]
    rfl
  constructor
  · rintro ⟨hf, hs, hd⟩
    rw [(requests s).statements] at hf hs hd
    rw [(requests !s).statements, hsecond, T.slot.get_set] at hs hd
    rw [T.set_set] at hd
    refine ⟨hf, hs, ?_⟩
    have htable := congrArg T.slot.get hd
    rw [T.slot.get_set, T.slot.get_set] at htable
    exact htable
  · rintro ⟨hf, hs, ht⟩
    have hcall := (requests (!s)).statements ((requests s).call db).2
    rw [(requests s).statements, hsecond, T.slot.get_set, T.set_set] at hcall
    refine ⟨by rw [(requests s).statements]; exact hf, ?_, ?_⟩
    · rw [(requests s).statements, hcall]
      exact hs
    · rw [(requests s).statements, hcall, ht]

end

/-- **Two edits of one row that run at the same time answer and leave what one after the other does, exactly if they are
never under way together, or one of them is an update whose INSERT is refused as it is before both**: in each of the
tables, on either backend, after every run. -/
theorem edits_linearizable_iff {A α : Type} (T : EditedTable A α) (be : Backend) (calls : List Call) (id : Int)
    (requests : Bool → EditRequest T be id) (schedule : List Bool)
    (hfin : (interleaved requests (run be calls) schedule).Finished) :
    (∃ s, OneAfterTheOther requests (run be calls) (interleaved requests (run be calls) schedule) s) ↔
      ¬ (T.site be (run be calls) id).Overlap (fun s => (requests s).edit) (T.slot.get (run be calls)) schedule ∨
      ∃ s, (T.site be (run be calls) id).RefusedAlike (fun s => (requests s).edit) (T.slot.get (run be calls)) schedule
        s := by
  have hsound : (T.site be (run be calls) id).entity.Sound (T.slot.get (run be calls)) := T.sound _ (run_sound be calls)
  have hfound : (T.site be (run be calls) id).NeverNotFound := T.found _ _
  exact (exists_congr fun s => oneAfterTheOther_iff requests _ _ s).trans
    (Site.linearizable_iff hsound hfound schedule hfin)

def oneAssignment : List Call := [.base ⟨[], [⟨1, none⟩], []⟩, .addOsVersion "abc" "1.0" none,
  .addOsAssignment 1 (some 1) none none]

/-- An update that leaves `immediate` unset, and a delete. -/
def refusedAndDeleted (be : Backend) : Bool → EditRequest osAssignmentsTable be 1
  | true => updateOsAssignment.request be 1 1 (some 1) none none
  | false => deleteOsAssignment.request be 1 5

theorem edits_linearizable_refused : ∃ s, OneAfterTheOther (refusedAndDeleted .postgres) (run .postgres oneAssignment)
    (interleaved (refusedAndDeleted .postgres) (run .postgres oneAssignment) [true, false, false, true]) s :=
  (edits_linearizable_iff osAssignmentsTable .postgres oneAssignment 1 (refusedAndDeleted .postgres)
    [true, false, false, true] (by rintro (_ | _) <;> exact ⟨_, rfl⟩)).2
    (.inr ⟨true, [true, false, false], [], _, _, _, rfl, rfl, rfl, rfl, rfl⟩)

def oneVersion : List Call := [.addOsVersion "abc" "1.0" none]

def twoUpdates : Bool → EditRequest osVersionsTable .sqlite 1
  | true => updateOsVersion.request .sqlite 1 "def" "1.1" none
  | false => updateOsVersion.request .sqlite 1 "ghi" "1.2" none

def updateAndDelete : Bool → EditRequest osVersionsTable .postgres 1
  | true => updateOsVersion.request .postgres 1 "def" "1.1" none
  | false => deleteOsVersion.request .postgres 1 5

/-- **Two updates under way together both succeed and leave two active successors; a delete under way with an update
reports 1 and leaves one.** -/
theorem concurrent_edits_fork :
    (∃ p, interleaved twoUpdates (run .sqlite oneVersion) [true, false, true, false, true, false] = p ∧ p.Finished ∧
      p.table.rows.map (fun r => (r.id, r.active)) = [(1, false), (2, true), (3, true)] ∧
      ¬ ∃ s, OneAfterTheOther twoUpdates (run .sqlite oneVersion) p s) ∧
    ∃ p, interleaved updateAndDelete (run .postgres oneVersion) [true, false, true, false, true] = p ∧ p.Finished ∧
      p.stages false = .done (.deleted (.ok 1)) ∧
      p.table.rows.map (fun r => (r.id, r.active)) = [(1, false), (2, true)] ∧
      ¬ ∃ s, OneAfterTheOther updateAndDelete (run .postgres oneVersion) p s := by
  refine ⟨⟨_, rfl, ?_, rfl, ?_⟩, _, rfl, ?_, rfl, rfl, ?_⟩
  · rintro (_ | _) <;> exact ⟨_, rfl⟩
  · rintro ⟨_ | _, h⟩
    · exact absurd h.second (by decide)
    · exact absurd h.second (by decide)
  · rintro (_ | _) <;> exact ⟨_, rfl⟩
  · rintro ⟨_ | _, h⟩
    · exact absurd h.second (by decide)
    · exact absurd h.second (by decide)

end Api
end ZeroDowntime
