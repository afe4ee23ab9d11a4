import ZeroDowntime.ApiReads
/-!
# ApiDeployed — what a write changes for the devices

A device's own assignment is meant to win over its group's, an edited version or config to stay deployed, and a new
assignment to take effect.  Each is stated over the queries a device is answered with, with the condition under which it
holds.
-/
namespace ZeroDowntime
namespace Api

open Versioned (Row Table Entity)

/-! ## A device's own assignment against its group's -/

/-- Among the rows `S` that apply to device `d`, one is the device's own. -/
def HasOwn {α : Type} (colD : α → Option Int) (d : Int) (S : Row α → Prop) : Prop :=
  ∃ r, S r ∧ colD r.data = some d

/-- No row of `S` is read before the device's own rows. -/
def OwnFirst {α : Type} (no : NullOrder) (colD : α → Option Int) (d : Int) (S : Row α → Prop) : Prop :=
  ∀ r, S r → no.descLt (colD r.data) (some d) = false

/-- Every row of `S` names a device, and none a later one than `d`. -/
def NoneAbove {α : Type} (colD : α → Option Int) (d : Int) (S : Row α → Prop) : Prop :=
  ∀ r, S r → ∃ x, colD r.data = some x ∧ x ≤ d

theorem ownFirst_postgres {α : Type} (colD : α → Option Int) (d : Int) (S : Row α → Prop) :
    OwnFirst Backend.postgres.nullOrder colD d S ↔ NoneAbove colD d S := by
  refine forall_congr' (fun r => forall_congr' (fun _ => ?_))
  cases colD r.data with
  | none => simp [NullOrder.descLt, Backend.nullOrder]
  | some x => simp [NullOrder.descLt]

theorem winner_own_iff {α : Type} (no : NullOrder) (colD : α → Option Int) (d : Int) (S : Row α → Prop) (w : Row α)
    (hw : S w) (hfirst : ∀ r, S r → no.readLe colD w r) (hown : HasOwn colD d S) :
    colD w.data = some d ↔ OwnFirst no colD d S := by
  constructor
  · intro hd r hr
    rcases hfirst r hr with h | ⟨h, -⟩
    · rw [hd] at h; exact no.descLt_asymm _ _ h
    · rw [← h, hd]; exact no.descLt_self _
  · intro h
    obtain ⟨r, hr, hrd⟩ := hown
    rcases hfirst r hr with hlt | ⟨heq, -⟩
    · rw [hrd, h w hw] at hlt; cases hlt
    · rw [heq, hrd]

/-- The device's own OS assignment, where it has one, is the one returned. -/
def DeviceWinsOs (no : NullOrder) (d : Int) (g : Option Int) (db : Db) : Prop :=
  HasOwn OsAssignment.deviceId d (db.OsApplies d g) → ∀ page pageSize, ∃ w,
    listOsAssignmentsForDevice no d g none page pageSize db = ([w], 1) ∧ w.data.deviceId = some d

/-- The assignments that stand for application `a`. -/
def Db.StandsFor (db : Db) (d : Int) (g : Option Int) (a : Int) (r : Row ApplicationAssignment) : Prop :=
  db.AppApplies d g r ∧ db.appOf r = some a

/-- The device's own assignment of application `a`, where it has one, is the one returned for `a`. -/
def DeviceWinsApp (no : NullOrder) (d : Int) (g : Option Int) (a : Int) (db : Db) : Prop :=
  HasOwn ApplicationAssignment.deviceId d (db.StandsFor d g a) →
    (∃ w ∈ (listApplicationAssignmentsForDevice no d g none 0 u64Max db).1, db.appOf w = some a) ∧
    ∀ page pageSize, ∀ w ∈ (listApplicationAssignmentsForDevice no d g none page pageSize db).1, db.appOf w = some a →
      w.data.deviceId = some d

theorem deviceWinsOs_iff (no : NullOrder) (d : Int) (g : Option Int) (db : Db) :
    DeviceWinsOs no d g db ↔ (HasOwn OsAssignment.deviceId d (db.OsApplies d g) →
      OwnFirst no OsAssignment.deviceId d (db.OsApplies d g)) := by
  refine forall_congr' (fun hown => ?_)
  constructor
  · intro h
    obtain ⟨w, hw, hd⟩ := h 0 0
    rcases listOsAssignmentsForDevice_spec no d g 0 0 db with ⟨w', hw', ha, hfirst⟩ | ⟨hn, -⟩
    · rw [hw] at hw'
      obtain rfl : w = w' := by simpa using hw'
      exact (winner_own_iff no _ d _ w ha hfirst hown).1 hd
    · rw [hw] at hn; cases hn
  · intro h page pageSize
    rcases listOsAssignmentsForDevice_spec no d g page pageSize db with ⟨w, hw, ha, hfirst⟩ | ⟨-, hno⟩
    · exact ⟨w, hw, (winner_own_iff no _ d _ w ha hfirst hown).2 h⟩
    · obtain ⟨r, hr, -⟩ := hown
      exact absurd hr (hno r)

theorem deviceWinsApp_iff (no : NullOrder) (d : Int) (g : Option Int) (a : Int) (db : Db) :
    DeviceWinsApp no d g a db ↔ (HasOwn ApplicationAssignment.deviceId d (db.StandsFor d g a) →
      OwnFirst no ApplicationAssignment.deviceId d (db.StandsFor d g a)) := by
  refine forall_congr' (fun hown => ?_)
  obtain ⟨w, hw⟩ : ∃ w, db.AppWinner no d g a w := by
    obtain ⟨r, ⟨hr, hra⟩, -⟩ := hown
    exact exists_appWinner no d g db a r hr hra
  have hiff := winner_own_iff no ApplicationAssignment.deviceId d (db.StandsFor d g a) w hw.1
    (fun r hr => hw.2 r hr.1 hr.2) hown
  have hwm : w ∈ deduplicated no d g none db := (mem_deduplicated no d g db w).2 ⟨a, hw⟩
  constructor
  · rintro ⟨-, hall⟩
    exact hiff.1 (hall 0 u64Max w (by rw [listApplicationAssignmentsForDevice_full]; exact hwm) hw.1.2)
  · intro h
    refine ⟨⟨w, by rw [listApplicationAssignmentsForDevice_full]; exact hwm, hw.1.2⟩, fun page pageSize v hv hva => ?_⟩
    -- every page holds winners only
    obtain ⟨a', hv'⟩ := (mem_deduplicated no d g db v).1 (List.mem_of_mem_drop (List.mem_of_mem_take hv))
    obtain rfl : a' = a := Option.some.inj (hv'.1.2.symm.trans hva)
    rw [appWinner_unique no d g db a' v w hv' hw]
    exact hiff.2 h

/-- **On PostgreSQL a device's own assignment wins exactly when no active row that names no device competes with it**
(nor one that names a device with a larger id). -/
theorem device_wins_iff (db : Db) (d : Int) (g : Option Int) :
    (DeviceWinsOs Backend.postgres.nullOrder d g db ↔ (HasOwn OsAssignment.deviceId d (db.OsApplies d g) →
        NoneAbove OsAssignment.deviceId d (db.OsApplies d g))) ∧
      ∀ a, DeviceWinsApp Backend.postgres.nullOrder d g a db ↔
        (HasOwn ApplicationAssignment.deviceId d (db.StandsFor d g a) →
          NoneAbove ApplicationAssignment.deviceId d (db.StandsFor d g a)) := by
  refine ⟨?_, fun a => ?_⟩
  · rw [deviceWinsOs_iff, ownFirst_postgres]
  · rw [deviceWinsApp_iff, ownFirst_postgres]

def assignedTwice : List Call :=
  [.base ⟨[1], [⟨1, some 1⟩], [1]⟩, .addOsVersion "aabbccdd" "1.0.0" none,
    .addOsAssignment 1 none (some 1) none, .addOsAssignment 1 (some 1) none none,
    .addApplicationConfig none (some 1) 1 "registry/app:1" none,
    .addApplicationConfig (some 1) none 1 "registry/app:2" none,
    .addApplicationAssignmentToGroup 1 1, .addApplicationAssignmentToDevice 2 1]

/-- **The group's assignment is returned on PostgreSQL, the device's on SQLite.** -/
theorem group_wins_on_postgres :
    ¬ (DeviceWinsOs Backend.postgres.nullOrder 1 (some 1) (run .postgres assignedTwice)) ∧
      ¬ (DeviceWinsApp Backend.postgres.nullOrder 1 (some 1) 1 (run .postgres assignedTwice)) := by
  have hos : listOsAssignmentsForDevice Backend.postgres.nullOrder 1 (some 1) none 0 0 (run .postgres assignedTwice)
      = ([⟨1, none, none, ⟨1, none, some 1, false⟩⟩], 1) := by decide
  have happ : (listApplicationAssignmentsForDevice Backend.postgres.nullOrder 1 (some 1) none 0 u64Max
      (run .postgres assignedTwice)).1 = [⟨1, none, none, ⟨1, none, some 1⟩⟩] := by decide
  refine ⟨fun h => ?_, fun h => ?_⟩
  · obtain ⟨w, hw, hd⟩ := h ⟨⟨2, none, none, ⟨1, some 1, none, false⟩⟩, ⟨by decide, rfl, by decide⟩, rfl⟩ 0 0
    rw [hos] at hw
    obtain rfl : _ = w := by simpa using hw
    cases hd
  · have hd := (h ⟨⟨2, none, none, ⟨2, some 1, none⟩⟩, ⟨⟨by decide, rfl, by decide⟩, by decide⟩, rfl⟩).2 0 u64Max
      ⟨1, none, none, ⟨1, none, some 1⟩⟩ (by rw [happ]; exact List.mem_singleton_self _) (by decide)
    cases hd

/-! ## An edited version or config -/

/-- Every assignment names a config whose id has been handed out. -/
def Db.NamesStored (db : Db) : Prop :=
  ∀ r ∈ db.applicationAssignments.rows, r.data.applicationConfigId < db.applicationConfigs.next

theorem exec_namesStored (be : Backend) (db : Db) (hs : db.Sound) (h : db.NamesStored) (c : Call) :
    (exec be db c).NamesStored := by
  have hstep := exec_stepped be db hs c
  intro r hr
  refine Int.lt_of_lt_of_le ?_ (Entity.change_next_le _ _ _ _ _ hstep.applicationConfigs)
  rcases Entity.change_rows _ _ _ _ _ hstep.applicationAssignments r hr with ⟨r₀, h₀, hd⟩ | hfk
  · rw [← hd]; exact h r₀ h₀
  · simp only [Db.applicationAssignmentRefs, checks_eq_ok, List.forall_mem_cons, refers, List.contains_iff_mem] at hfk
    obtain ⟨cfg, hcfg, hid⟩ := List.mem_map.1 hfk.1
    rw [← hid]
    exact db.applicationConfigs.id_lt_next cfg hcfg

theorem run_namesStored (be : Backend) (calls : List Call) : (run be calls).NamesStored :=
  (run_induction be (fun db => db.Sound ∧ db.NamesStored) ⟨empty_sound, fun _ h => absurd h List.not_mem_nil⟩
    (fun db c h => ⟨exec_sound be db h.1 c, exec_namesStored be db h.1 h.2 c⟩) calls).2

/-- Device `d` is told to run OS version `ver`. -/
def RunsOs (no : NullOrder) (d : Int) (g : Option Int) (ver : Row OsVersion) (db : Db) : Prop :=
  ∃ immediate, osGetAssigned no d g db = .ok (ver, immediate)

/-- Device `d` is told to run config `c`, and no other config of its application. -/
def RunsConfig (no : NullOrder) (d : Int) (g : Option Int) (c : Row ApplicationConfig) (db : Db) : Prop :=
  c ∈ appsGetAssigned no d g db ∧
    ∀ c' ∈ appsGetAssigned no d g db, c'.data.applicationId = c.data.applicationId → c' = c

theorem osGetAssigned_after_update (be : Backend) (no : NullOrder) (db db' : Db) (hs : db.Sound) (d : Int)
    (g : Option Int) (ver new : Row OsVersion) (commitHash orchestratorVersion : String) (description : Option String)
    (h : RunsOs no d g ver db)
    (hup : updateOsVersion be ver.id commitHash orchestratorVersion description db = (.ok new, db')) :
    osGetAssigned no d g db' = .error (.recordNotFound "OsVersion") := by
  obtain ⟨t', hrep, rfl⟩ := osVersions.lift_eq_ok _ _ _ _ hup
  obtain ⟨-, hgone⟩ := osVersion.replace_eq_ok _ _ _ _ _ _ _ _ hs.osVersions hrep
  obtain ⟨immediate, hbefore⟩ := h
  obtain ⟨w, rest, hl, hv, -⟩ := (osGetAssigned_eq_ok no d g db ver immediate).1 hbefore
  have hid : ver.id = w.data.osVersionId := ((db.osVersions.findActive_eq_some _ ver).1 hv).2.1
  -- the assignments are as before, and the winner still names the old id
  have hl' : (listOsAssignmentsForDevice no d g none 0 u64Max (osVersions.set db t')).1 = w :: rest := hl
  have hv' : getOsVersion w.data.osVersionId (osVersions.set db t') = none := hid ▸ hgone
  unfold osGetAssigned
  rw [hl']
  simp only [hv']

theorem appsGetAssigned_after_update (be : Backend) (no : NullOrder) (db db' : Db) (hs : db.Sound) (hn : db.NamesStored)
    (d : Int) (g : Option Int) (id : Int) (deviceId groupId : Option Int) (applicationId : Int) (image : String)
    (config : Option ContainerConfigV1) (new : Row ApplicationConfig)
    (hup : updateApplicationConfig be id deviceId groupId applicationId image config db = (.ok new, db')) :
    new ∉ appsGetAssigned no d g db' := by
  obtain ⟨t', hrep, rfl⟩ := applicationConfigs.lift_eq_ok _ _ _ _ hup
  obtain ⟨hid, -⟩ := applicationConfig.replace_eq_ok _ _ _ _ _ _ _ _ hs.applicationConfigs hrep
  rw [mem_appsGetAssigned]
  rintro ⟨a, w, hw, hc⟩
  have hnew := ((Table.findActive_eq_some _ _ new).1 hc).2.1
  have hlt : w.data.applicationConfigId < db.applicationConfigs.next := hn w hw.1.1.1
  omega

/-- **An edit undeploys.**  After an OS version that a device runs is edited, the device is told that there is none; after
a config is edited, no device is told the new one. -/
theorem edit_undeploys (be : Backend) (no : NullOrder) (calls : List Call) (d : Int) (g : Option Int) :
    (∀ ver new commitHash orchestratorVersion description db', RunsOs no d g ver (run be calls) →
      updateOsVersion be ver.id commitHash orchestratorVersion description (run be calls) = (.ok new, db') →
      ¬ RunsOs no d g new db') ∧
    (∀ c new image config db', c ∈ appsGetAssigned no d g (run be calls) →
      updateApplicationConfig be c.id c.data.deviceId c.data.groupId c.data.applicationId image config (run be calls)
        = (.ok new, db') →
      ¬ RunsConfig no d g new db') := by
  have hs := run_sound be calls
  constructor
  · rintro ver new commitHash orchestratorVersion description db' hruns hup ⟨immediate, hafter⟩
    rw [osGetAssigned_after_update be no _ db' hs d g ver new commitHash orchestratorVersion description hruns hup]
      at hafter
    cases hafter
  · rintro c new image config db' - hup ⟨hmem, -⟩
    exact appsGetAssigned_after_update be no _ db' hs (run_namesStored be calls) d g c.id _ _ _ image config new hup hmem

def deployed : List Call :=
  [.base ⟨[], [⟨1, none⟩], [1]⟩, .addOsVersion "aabbccdd" "1.0.0" none, .addOsAssignment 1 (some 1) none none,
    .addApplicationConfig (some 1) none 1 "registry/app:1" none, .addApplicationAssignmentToDevice 1 1]

def deployedOs : Row OsVersion := ⟨1, none, none, ⟨"aabbccdd", "1.0.0", none⟩⟩

def deployedConfig : Row ApplicationConfig := ⟨1, none, none, ⟨some 1, none, 1, "registry/app:1", 1, none, 1⟩⟩

theorem edit_undeploys_device :
    (¬ RunsOs .last 1 none ⟨2, none, none, ⟨"eeff0011", "1.0.0", none⟩⟩
        (updateOsVersion .sqlite 1 "eeff0011" "1.0.0" none (run .sqlite deployed)).2) ∧
      ¬ RunsConfig .last 1 none ⟨2, none, none, ⟨some 1, none, 1, "registry/app:2", 1, none, 2⟩⟩
        (updateApplicationConfig .sqlite 1 (some 1) none 1 "registry/app:2" none (run .sqlite deployed)).2 :=
  ⟨(edit_undeploys .sqlite .last deployed 1 none).1 deployedOs _ "eeff0011" "1.0.0" none _ ⟨false, by decide⟩
      (by decide),
    (edit_undeploys .sqlite .last deployed 1 none).2 deployedConfig _ "registry/app:2" none _ (by decide) (by decide)⟩

/-- **The device runs both before the edits, and neither successor after them.** -/
theorem edit_drops_both :
    osGetAssigned .last 1 none (run .sqlite deployed) = .ok (deployedOs, false) ∧
      (updateOsVersion .sqlite 1 "eeff0011" "1.0.0" none (run .sqlite deployed)).1
        = .ok ⟨2, none, none, ⟨"eeff0011", "1.0.0", none⟩⟩ ∧
      osGetAssigned .last 1 none (updateOsVersion .sqlite 1 "eeff0011" "1.0.0" none (run .sqlite deployed)).2
        = .error (.recordNotFound "OsVersion") ∧
      appsGetAssigned .last 1 none (run .sqlite deployed) = [deployedConfig] ∧
      (updateApplicationConfig .sqlite 1 (some 1) none 1 "registry/app:2" none (run .sqlite deployed)).1
        = .ok ⟨2, none, none, ⟨some 1, none, 1, "registry/app:2", 1, none, 2⟩⟩ ∧
      appsGetAssigned .last 1 none
        (updateApplicationConfig .sqlite 1 (some 1) none 1 "registry/app:2" none (run .sqlite deployed)).2 = [] := by
  decide

/-! ## A new application assignment -/

/-- Device `d` is told config `c` and no other config of application `a`. -/
def TakesEffect (no : NullOrder) (d : Int) (g : Option Int) (c a : Int) (db : Db) : Prop :=
  (∃ cfg ∈ appsGetAssigned no d g db, cfg.id = c) ∧
    ∀ cfg ∈ appsGetAssigned no d g db, cfg.data.applicationId = a → cfg.id = c

theorem takesEffect_iff (no : NullOrder) (d : Int) (g : Option Int) (c a : Int) (db : Db)
    (cfg : Row ApplicationConfig) (hc : getApplicationConfig c db = some cfg) (ha : cfg.data.applicationId = a)
    (w : Row ApplicationAssignment) (hw : db.AppWinner no d g a w) :
    TakesEffect no d g c a db ↔ w.data.applicationConfigId = c := by
  obtain ⟨wcfg, hwcfg, hwa⟩ := Option.map_eq_some_iff.1 hw.1.2
  have hwid := ((Table.findActive_eq_some _ _ wcfg).1 hwcfg).2.1
  constructor
  · rintro ⟨-, hall⟩
    rw [← hwid]
    exact hall wcfg ((mem_appsGetAssigned no d g db wcfg).2 ⟨a, w, hw, hwcfg⟩) hwa
  · intro hwc
    have hcfg : wcfg = cfg := by rw [hwc, hc] at hwcfg; exact (Option.some.inj hwcfg).symm
    refine ⟨⟨wcfg, (mem_appsGetAssigned no d g db wcfg).2 ⟨a, w, hw, hwcfg⟩, hwid.trans hwc⟩, fun cfg' hm happ => ?_⟩
    obtain ⟨a', w', hw', hcfg'⟩ := (mem_appsGetAssigned no d g db cfg').1 hm
    have haa : a' = a := by
      have := hw'.1.2
      rw [Db.appOf, hcfg', Option.map_some, Option.some.injEq] at this
      omega
    subst haa
    rw [appWinner_unique no d g db a' w' w hw' hw, hwcfg, Option.some.injEq] at hcfg'
    rw [← hcfg', hwid, hwc]

/-- The assignment `y` of another config of the application names the device or a later one, and no assignment of config
`c` that stays is read before it. -/
def Outranks (db : Db) (d : Int) (g : Option Int) (c a : Int) (y : Row ApplicationAssignment) : Prop :=
  db.StandsFor d g a y ∧ y.data.applicationConfigId ≠ c ∧ (∃ x, y.data.deviceId = some x ∧ d ≤ x) ∧
    ∀ z, db.AppApplies d g z → z.data.applicationConfigId = c → z.data.deviceId ≠ some d →
      ¬ NullOrder.last.readLe ApplicationAssignment.deviceId z y

/-- **After an assignment of a device, the rows that apply are the new one and those of before that it did not
supersede.** -/
theorem appApplies_after_add (be : Backend) (db db' : Db) (hs : db.Sound) (c d : Int) (g : Option Int)
    (new : Row ApplicationAssignment) (h : addApplicationAssignmentToDevice be c d db = (.ok new, db')) :
    new = db.applicationAssignments.newRow ⟨c, some d, none⟩ ∧ db'.applicationConfigs = db.applicationConfigs ∧
      ∀ r, db'.AppApplies d g r ↔
        r = new ∨ (db.AppApplies d g r ∧ ¬ (r.data.applicationConfigId = c ∧ r.data.deviceId = some d)) := by
  obtain ⟨t', hadd, rfl⟩ := applicationAssignments.lift_eq_ok _ _ _ _ h
  obtain ⟨a, ha, rfl, rfl⟩ := applicationAssignment.addReplacing_eq_ok _ _ _ _ _ _ _ hs.applicationAssignments hadd
  have hn := Entity.accept_next _ _ _ _ _ _ ha
  obtain rfl : (⟨c, some d, none⟩ : ApplicationAssignment) = a := by
    have := ((Entity.accept_eq_ok _ _ _ _ _ _).1 ha).2.1
    simpa [applicationAssignment] using this
  refine ⟨rfl, rfl, fun r => ?_⟩
  simp only [Db.AppApplies, Applies, applicationAssignments, Table.mem_replaceWhere _ _ _ hn]
  constructor
  · rintro ⟨⟨r₀, h₀, rfl⟩ | rfl, hact, happ⟩
    · split at hact
      · rw [Row.supersede_active] at hact; cases hact
      · rename_i hgone
        rw [if_neg hgone] at happ ⊢
        refine Or.inr ⟨⟨h₀, hact, happ⟩, fun hboth => hgone ?_⟩
        simp [hact, hboth.1, hboth.2, targetFilter]
    · exact Or.inl rfl
  · rintro (rfl | ⟨⟨hm, hact, happ⟩, hno⟩)
    · exact ⟨Or.inr rfl, rfl, appliesToDevice_own d g none⟩
    · refine ⟨Or.inl ⟨r, hm, ?_⟩, hact, happ⟩
      rw [if_neg]
      simpa [hact, targetFilter] using hno

theorem takesEffect_add_iff (be : Backend) (db db' : Db) (hs : db.Sound) (c d : Int) (g : Option Int)
    (cfg : Row ApplicationConfig) (new : Row ApplicationAssignment) (hc : getApplicationConfig c db = some cfg)
    (h : addApplicationAssignmentToDevice be c d db = (.ok new, db')) :
    TakesEffect .last d g c cfg.data.applicationId db' ↔ ∀ y, ¬ Outranks db d g c cfg.data.applicationId y := by
  obtain ⟨hnew, hcfgs, happ⟩ := appApplies_after_add be db db' hs c d g new h
  have hof : ∀ r, db'.appOf r = db.appOf r := fun r => by unfold Db.appOf getApplicationConfig; rw [hcfgs]
  have hofc : ∀ r : Row ApplicationAssignment, r.data.applicationConfigId = c →
      db.appOf r = some cfg.data.applicationId :=
    fun r hr => by unfold Db.appOf; rw [hr, hc]; rfl
  have hnewc : new.data.applicationConfigId = c := by rw [hnew]; rfl
  obtain ⟨w, hw⟩ := exists_appWinner .last d g db' cfg.data.applicationId new ((happ new).2 (Or.inl rfl))
    ((hof new).trans (hofc new hnewc))
  rw [takesEffect_iff .last d g c cfg.data.applicationId db' cfg (by unfold getApplicationConfig; rw [hcfgs]; exact hc)
    rfl w hw]
  constructor
  · rintro hwc y ⟨⟨hy, hya⟩, hyc, ⟨x, hyd, hx⟩, hno⟩
    have hle := hw.2 y ((happ y).2 (Or.inr ⟨hy, fun hboth => hyc hboth.1⟩)) ((hof y).trans hya)
    rcases (happ w).1 hw.1.1 with rfl | ⟨hwold, hwno⟩
    · -- the new row is read after every row of the device or of a later one
      rcases hle with hlt | ⟨-, hid⟩
      · rw [hnew, hyd] at hlt
        simp only [Table.newRow, NullOrder.descLt, decide_eq_true_eq] at hlt
        omega
      · have := db.applicationAssignments.id_lt_next y hy.1
        rw [hnew] at hid
        exact absurd (show db.applicationAssignments.next ≤ y.id from hid) (by omega)
    · exact hno w hwold hwc (fun hd => hwno ⟨hwc, hd⟩) hle
  · intro hno
    by_contra hwc
    rcases (happ w).1 hw.1.1 with rfl | ⟨hwold, -⟩
    · exact hwc hnewc
    have hwnew := hw.2 new ((happ new).2 (Or.inl rfl)) ((hof new).trans (hofc new hnewc))
    refine hno w ⟨⟨hwold, (hof w).symm.trans hw.1.2⟩, hwc, ?_, fun z hz hzc hzd hle => ?_⟩
    · rw [hnew] at hwnew
      rcases hwnew with hlt | ⟨heq, -⟩
      · cases hwd : w.data.deviceId with
        | none => rw [hwd] at hlt; simp [Table.newRow, NullOrder.descLt] at hlt
        | some x =>
          rw [hwd] at hlt
          simp only [Table.newRow, NullOrder.descLt, decide_eq_true_eq] at hlt
          exact ⟨x, rfl, by omega⟩
      · exact ⟨d, heq, Int.le_refl _⟩
    · have hz' : db'.AppApplies d g z := (happ z).2 (Or.inr ⟨hz, fun hboth => hzd hboth.2⟩)
      have hwz := hw.2 z hz' ((hof z).trans (hofc z hzc))
      have heq := (NullOrder.last.reads ApplicationAssignment.deviceId db'.applicationAssignments _ (fun _ hr => hr)).antisymm
        w hw.1.1.1 z hz'.1 hwz hle
      exact hwc (heq ▸ hzc)

/-- **After every run, a new assignment of a device takes effect exactly when no assignment of another config of the
application outranks it.** -/
theorem assignment_takes_effect_iff (be : Backend) (calls : List Call) (c d : Int) (cfg : Row ApplicationConfig)
    (new : Row ApplicationAssignment) (db' : Db) (hc : getApplicationConfig c (run be calls) = some cfg)
    (h : addApplicationAssignmentToDevice be c d (run be calls) = (.ok new, db')) :
    TakesEffect .last d (db'.groupOf d) c cfg.data.applicationId db' ↔
      ∀ y, ¬ Outranks (run be calls) d ((run be calls).groupOf d) c cfg.data.applicationId y := by
  have hg : db'.groupOf d = (run be calls).groupOf d := by
    obtain ⟨t', -, rfl⟩ := applicationAssignments.lift_eq_ok _ _ _ _ h
    rfl
  rw [hg]
  exact takesEffect_add_iff be _ db' (run_sound be calls) c d _ cfg new hc h

def twoConfigs : List Call :=
  [.base ⟨[1], [⟨1, some 1⟩], [1]⟩, .addApplicationConfig (some 1) none 1 "registry/app:1" none,
    .addApplicationConfig none (some 1) 1 "registry/app:2" none]

theorem assignment_takes_effect_first :
    TakesEffect .last 1 (some 1) 1 1 (addApplicationAssignmentToDevice .sqlite 1 1 (run .sqlite twoConfigs)).2 :=
  (assignment_takes_effect_iff .sqlite twoConfigs 1 1 ⟨1, none, none, ⟨some 1, none, 1, "registry/app:1", 1, none, 1⟩⟩
    ⟨1, none, none, ⟨1, some 1, none⟩⟩ _ (by decide) (by decide)).2
    (fun _ hy => absurd hy.1.1.1 List.not_mem_nil)

/-- **With config 1 assigned to the device, the assignment of config 2 to it is stored and has no effect.** -/
theorem assignment_without_effect :
    (run .sqlite (twoConfigs ++ [.addApplicationAssignmentToDevice 1 1])).groupOf 1 = some 1 ∧
      getApplicationConfig 2 (run .sqlite (twoConfigs ++ [.addApplicationAssignmentToDevice 1 1])) =
        some ⟨2, none, none, ⟨none, some 1, 1, "registry/app:2", 1, none, 1⟩⟩ ∧
      (addApplicationAssignmentToDevice .sqlite 2 1
        (run .sqlite (twoConfigs ++ [.addApplicationAssignmentToDevice 1 1]))).1
      = .ok ⟨2, none, none, ⟨2, some 1, none⟩⟩ ∧
      ¬ TakesEffect .last 1 (some 1) 2 1 (addApplicationAssignmentToDevice .sqlite 2 1
        (run .sqlite (twoConfigs ++ [.addApplicationAssignmentToDevice 1 1]))).2 := by
  refine ⟨by decide, by decide, by decide, ?_⟩
  rintro ⟨⟨cfg, hcfg, hid⟩, -⟩
  have hall : appsGetAssigned .last 1 (some 1) (addApplicationAssignmentToDevice .sqlite 2 1
      (run .sqlite (twoConfigs ++ [.addApplicationAssignmentToDevice 1 1]))).2
      = [⟨1, none, none, ⟨some 1, none, 1, "registry/app:1", 1, none, 1⟩⟩] := by decide
  rw [hall, List.mem_singleton] at hcfg
  rw [hcfg] at hid
  cases hid

end Api
end ZeroDowntime
