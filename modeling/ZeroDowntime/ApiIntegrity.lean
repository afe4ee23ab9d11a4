import ZeroDowntime.ApiStore
/-!
# ApiIntegrity — no reference of a reachable store dangles, and the versioned tables refine their own model

A call keeps what is there and refers to what is there (`Store.Grown`), or removes a row that nothing refers to.  So the
DELETE that looks for references finds one exactly when the abstract step, which looks at the tables afterwards, is
refused: seen through `Store.db`, a run of the store is a run of `Api.run`.
-/
namespace ZeroDowntime
namespace Api
namespace Store

open Versioned (Row Table Entity)

/-- The device and the group a row is for are there. -/
def Targets (s : Store) (deviceId groupId : Option Int) : Prop :=
  (∀ d, deviceId = some d → d ∈ s.devices.keys) ∧ ∀ g, groupId = some g → g ∈ s.groups.keys

/-- Every foreign key and every unique index holds. -/
structure Integral (s : Store) : Prop where
  devices : ∀ d ∈ s.devices.rows, d.tenantId ∈ s.tenants.keys ∧ ∀ g, d.groupId = some g → g ∈ s.groups.keys
  osAssignments : ∀ r ∈ s.osAssignments.rows, r.data.osVersionId ∈ s.osVersionIds ∧
    s.Targets r.data.deviceId r.data.groupId
  applicationConfigs : ∀ r ∈ s.applicationConfigs.rows, r.data.applicationId ∈ s.applications.keys ∧
    s.Targets r.data.deviceId r.data.groupId
  applicationAssignments : ∀ r ∈ s.applicationAssignments.rows, r.data.applicationConfigId ∈ s.configIds ∧
    s.Targets r.data.deviceId r.data.groupId
  reportedApplicationAssignments : ∀ r ∈ s.reportedApplicationAssignments.rows,
    r.reported ∈ s.configIds ∧ r.deviceId ∈ s.devices.keys
  reportedOsAssignments : ∀ r ∈ s.reportedOsAssignments.rows, r.reported ∈ s.osVersionIds ∧ r.deviceId ∈ s.devices.keys
  pings : ∀ p ∈ s.pings.rows, p.deviceId ∈ s.devices.keys
  reportedApplicationKeys : (s.reportedApplicationAssignments.rows.map Reported.key).Nodup
  reportedOsKeys : (s.reportedOsAssignments.rows.map Reported.key).Nodup

/-! ## Growing -/

/-- What a call that removes nothing leads to: the rows referred to stay, and each row is as it was or refers to rows that
are there. -/
structure Grown (s s' : Store) : Prop where
  tenants : ∀ i ∈ s.tenants.keys, i ∈ s'.tenants.keys := by exact fun _ h => h
  groups : ∀ i ∈ s.groups.keys, i ∈ s'.groups.keys := by exact fun _ h => h
  applications : ∀ i ∈ s.applications.keys, i ∈ s'.applications.keys := by exact fun _ h => h
  deviceKeys : ∀ i ∈ s.devices.keys, i ∈ s'.devices.keys := by exact fun _ h => h
  configIds : ∀ i ∈ s.configIds, i ∈ s'.configIds := by exact fun _ h => h
  osVersionIds : ∀ i ∈ s.osVersionIds, i ∈ s'.osVersionIds := by exact fun _ h => h
  devices : ∀ d ∈ s'.devices.rows, d ∈ s.devices.rows ∨
    (d.tenantId ∈ s.tenants.keys ∧ ∀ g, d.groupId = some g → g ∈ s.groups.keys) := by exact fun _ h => .inl h
  osAssignments : ∀ r ∈ s'.osAssignments.rows, (∃ r₀ ∈ s.osAssignments.rows, r₀.data = r.data) ∨
    (r.data.osVersionId ∈ s.osVersionIds ∧ s.Targets r.data.deviceId r.data.groupId) := by exact fun r h => .inl ⟨r, h, rfl⟩
  applicationConfigs : ∀ r ∈ s'.applicationConfigs.rows, (∃ r₀ ∈ s.applicationConfigs.rows, r₀.data = r.data) ∨
    (r.data.applicationId ∈ s.applications.keys ∧ s.Targets r.data.deviceId r.data.groupId) := by
      exact fun r h => .inl ⟨r, h, rfl⟩
  applicationAssignments : ∀ r ∈ s'.applicationAssignments.rows,
    (∃ r₀ ∈ s.applicationAssignments.rows, r₀.data = r.data) ∨
    (r.data.applicationConfigId ∈ s.configIds ∧ s.Targets r.data.deviceId r.data.groupId) := by
      exact fun r h => .inl ⟨r, h, rfl⟩
  reportedApplicationAssignments : ∀ r ∈ s'.reportedApplicationAssignments.rows,
    (∃ r₀ ∈ s.reportedApplicationAssignments.rows, r₀.key = r.key) ∨
    (r.reported ∈ s.configIds ∧ r.deviceId ∈ s.devices.keys) := by exact fun r h => .inl ⟨r, h, rfl⟩
  reportedOsAssignments : ∀ r ∈ s'.reportedOsAssignments.rows,
    (∃ r₀ ∈ s.reportedOsAssignments.rows, r₀.key = r.key) ∨
    (r.reported ∈ s.osVersionIds ∧ r.deviceId ∈ s.devices.keys) := by exact fun r h => .inl ⟨r, h, rfl⟩
  pings : ∀ p ∈ s'.pings.rows, (∃ p₀ ∈ s.pings.rows, p₀.deviceId = p.deviceId) ∨ p.deviceId ∈ s.devices.keys := by
    exact fun p h => .inl ⟨p, h, rfl⟩
  reportedApplicationKeys : (s.reportedApplicationAssignments.rows.map Reported.key).Nodup →
    (s'.reportedApplicationAssignments.rows.map Reported.key).Nodup := by exact fun h => h
  reportedOsKeys : (s.reportedOsAssignments.rows.map Reported.key).Nodup →
    (s'.reportedOsAssignments.rows.map Reported.key).Nodup := by exact fun h => h

theorem Grown.targets {s s' : Store} (h : Grown s s') {deviceId groupId : Option Int} (ht : s.Targets deviceId groupId) :
    s'.Targets deviceId groupId :=
  ⟨fun d hd => h.deviceKeys d (ht.1 d hd), fun g hg => h.groups g (ht.2 g hg)⟩

theorem Integral.grown {s s' : Store} (hi : s.Integral) (h : Grown s s') : s'.Integral where
  devices := fun d hd => by
    obtain ⟨ht, hg⟩ := (h.devices d hd).elim (hi.devices d) (fun h => h)
    exact ⟨h.tenants _ ht, fun g he => h.groups g (hg g he)⟩
  osAssignments := fun r hr => by
    have hrefs : r.data.osVersionId ∈ s.osVersionIds ∧ s.Targets r.data.deviceId r.data.groupId := by
      rcases h.osAssignments r hr with ⟨r₀, h₀, hd⟩ | h
      · exact hd ▸ hi.osAssignments r₀ h₀
      · exact h
    exact ⟨h.osVersionIds _ hrefs.1, h.targets hrefs.2⟩
  applicationConfigs := fun r hr => by
    have hrefs : r.data.applicationId ∈ s.applications.keys ∧ s.Targets r.data.deviceId r.data.groupId := by
      rcases h.applicationConfigs r hr with ⟨r₀, h₀, hd⟩ | h
      · exact hd ▸ hi.applicationConfigs r₀ h₀
      · exact h
    exact ⟨h.applications _ hrefs.1, h.targets hrefs.2⟩
  applicationAssignments := fun r hr => by
    have hrefs : r.data.applicationConfigId ∈ s.configIds ∧ s.Targets r.data.deviceId r.data.groupId := by
      rcases h.applicationAssignments r hr with ⟨r₀, h₀, hd⟩ | h
      · exact hd ▸ hi.applicationAssignments r₀ h₀
      · exact h
    exact ⟨h.configIds _ hrefs.1, h.targets hrefs.2⟩
  reportedApplicationAssignments := fun r hr => by
    have hrefs : r.reported ∈ s.configIds ∧ r.deviceId ∈ s.devices.keys := by
      rcases h.reportedApplicationAssignments r hr with ⟨r₀, h₀, hk⟩ | h
      · obtain ⟨hd, hrep⟩ := Prod.mk.inj hk
        exact hd ▸ hrep ▸ hi.reportedApplicationAssignments r₀ h₀
      · exact h
    exact ⟨h.configIds _ hrefs.1, h.deviceKeys _ hrefs.2⟩
  reportedOsAssignments := fun r hr => by
    have hrefs : r.reported ∈ s.osVersionIds ∧ r.deviceId ∈ s.devices.keys := by
      rcases h.reportedOsAssignments r hr with ⟨r₀, h₀, hk⟩ | h
      · obtain ⟨hd, hrep⟩ := Prod.mk.inj hk
        exact hd ▸ hrep ▸ hi.reportedOsAssignments r₀ h₀
      · exact h
    exact ⟨h.osVersionIds _ hrefs.1, h.deviceKeys _ hrefs.2⟩
  pings := fun p hp => by
    rcases h.pings p hp with ⟨p₀, h₀, hd⟩ | hd
    · exact h.deviceKeys _ (hd ▸ hi.pings p₀ h₀)
    · exact h.deviceKeys _ hd
  reportedApplicationKeys := h.reportedApplicationKeys hi.reportedApplicationKeys
  reportedOsKeys := h.reportedOsKeys hi.reportedOsKeys

/-! ## The foreign keys, as the abstract model has them -/

theorem db_base (s : Store) : s.db.base = s.base := rfl

theorem deviceIds_base (s : Store) : s.base.deviceIds = s.devices.keys := by
  unfold base Base.deviceIds DeviceTable.keys
  rw [List.map_map]
  rfl

theorem targets_iff (s : Store) (deviceId groupId : Option Int) : s.Targets deviceId groupId ↔
    (deviceId.all s.db.base.deviceIds.contains = true ∧ groupId.all s.db.base.groups.contains = true) := by
  rw [db_base, deviceIds_base]
  unfold Targets base
  cases deviceId <;> cases groupId <;> simp

theorem osAssignmentRefs_iff (s : Store) (a : OsAssignment) : s.db.osAssignmentRefs a = .ok () ↔
    a.osVersionId ∈ s.osVersionIds ∧ s.Targets a.deviceId a.groupId := by
  simp only [Db.osAssignmentRefs, checks_eq_ok, List.forall_mem_cons, refers, refersOpt, targets_iff,
    List.contains_iff_mem, osVersionIds, db, List.not_mem_nil, false_implies, implies_true, and_true]

theorem applicationConfigRefs_iff (s : Store) (a : ApplicationConfig) : s.db.applicationConfigRefs a = .ok () ↔
    a.applicationId ∈ s.applications.keys ∧ s.Targets a.deviceId a.groupId := by
  simp only [Db.applicationConfigRefs, checks_eq_ok, List.forall_mem_cons, refers, refersOpt, targets_iff,
    List.contains_iff_mem, db, base, List.not_mem_nil, false_implies, implies_true, and_true]
  exact ⟨fun h => ⟨h.2.2, h.1, h.2.1⟩, fun h => ⟨h.2.1, h.2.2, h.1⟩⟩

theorem applicationAssignmentRefs_iff (s : Store) (a : ApplicationAssignment) :
    s.db.applicationAssignmentRefs a = .ok () ↔
      a.applicationConfigId ∈ s.configIds ∧ s.Targets a.deviceId a.groupId := by
  simp only [Db.applicationAssignmentRefs, checks_eq_ok, List.forall_mem_cons, refers, refersOpt, targets_iff,
    List.contains_iff_mem, configIds, db, List.not_mem_nil, false_implies, implies_true, and_true]

/-- The references of the versioned tables hold. -/
theorem refsHold_iff (s : Store) : s.db.refsHold = true ↔
    (∀ r ∈ s.osAssignments.rows, r.data.osVersionId ∈ s.osVersionIds ∧ s.Targets r.data.deviceId r.data.groupId) ∧
    (∀ r ∈ s.applicationConfigs.rows, r.data.applicationId ∈ s.applications.keys ∧
      s.Targets r.data.deviceId r.data.groupId) ∧
    ∀ r ∈ s.applicationAssignments.rows, r.data.applicationConfigId ∈ s.configIds ∧
      s.Targets r.data.deviceId r.data.groupId := by
  unfold Db.refsHold
  simp only [Bool.and_eq_true, List.all_eq_true, decide_eq_true_eq, osAssignmentRefs_iff, applicationConfigRefs_iff,
    applicationAssignmentRefs_iff, and_assoc]
  exact .rfl

theorem Integral.refsHold {s : Store} (h : s.Integral) : s.db.refsHold = true :=
  s.refsHold_iff.2 ⟨h.osAssignments, h.applicationConfigs, h.applicationAssignments⟩

/-! ## What each call does -/

theorem mem_keys_insertRow {α : Type} {id : α → Int} (t : Serials.Table α id) (row : Int → α) (h : ∀ n, id (row n) = n)
    (i : Int) (hi : i ∈ t.keys) : i ∈ (insertRow t row h).2.keys := by
  unfold insertRow
  split
  · exact hi
  · rw [Serials.Table.keys_push]
    exact List.mem_append_left _ hi

theorem keys_updateRow {α : Type} {id : α → Int} (t : Serials.Table α id) (notFound : String) (i : Int) (set : α → α)
    (h : ∀ r, id (set r) = id r) : (updateRow t notFound i set h).2.keys = t.keys := by
  unfold updateRow
  split
  · rfl
  · exact t.keys_modify i set h

/-- A DELETE removes no row, or the row of the id while nothing refers to it. -/
theorem deleteRow_cases {α : Type} {id : α → Int} (t : Serials.Table α id) (i : Int) (held : Except DbErr Unit) :
    (deleteRow t i held).2 = t ∨ (held = .ok () ∧ (deleteRow t i held).2 = t.remove i) := by
  unfold deleteRow
  split
  · split
    · exact .inl rfl
    · exact .inr ⟨rfl, rfl⟩
  · exact .inl rfl

theorem deleteDevice_cases (t : DeviceTable) (i : Int) (held : Except DbErr Unit) :
    (t.deleteDevice i held).2 = t ∨ (held = .ok () ∧ (t.deleteDevice i held).2 = t.remove i) := by
  unfold DeviceTable.deleteDevice
  split
  · split
    · exact .inl rfl
    · exact .inr ⟨rfl, rfl⟩
  · exact .inl rfl

theorem mem_addReported {be : Backend} {column : String} {reportable devices : List Int}
    {t : Serials.Table Reported Reported.id} {reported deviceId now : Int} {r : Reported}
    (h : r ∈ (addReported be column reportable devices t reported deviceId now).2.rows) :
    (∃ r₀ ∈ t.rows, r₀.key = r.key) ∨ (r.reported ∈ reportable ∧ r.deviceId ∈ devices) := by
  have hput : r ∈ (putReported t deviceId ⟨reported, now, none⟩).rows →
      (∃ r₀ ∈ t.rows, r₀.key = r.key) ∨ r.key = (deviceId, reported) := fun h => by
    rw [putReported_rows] at h
    exact ((Upserts.mem_keys_upsert (ReportedTable.key_refresh _) _ _ _).1 (List.mem_map_of_mem h)).imp_left
      List.mem_map.1
  unfold addReported at h
  split at h
  · exact .inl ⟨r, h, rfl⟩
  split at h
  · rename_i hin
    exact .inl ((hput h).elim (fun h => h) (fun hk => hk ▸ hin))
  · split at h
    · exact .inl ⟨r, be.refused_rows t ▸ h, rfl⟩
    · rename_i hc
      simp only [checks_eq_ok, List.forall_mem_cons, refers, List.contains_iff_mem] at hc
      refine (hput h).imp_right (fun hk => ?_)
      obtain ⟨hd, hr⟩ := Prod.mk.inj hk
      exact ⟨hr ▸ hc.1, hd ▸ hc.2.1⟩

theorem nodup_addReported {be : Backend} {column : String} {reportable devices : List Int}
    {t : Serials.Table Reported Reported.id} {reported deviceId now : Int} (h : (t.rows.map Reported.key).Nodup) :
    ((addReported be column reportable devices t reported deviceId now).2.rows.map Reported.key).Nodup := by
  have hput : ((putReported t deviceId ⟨reported, now, none⟩).rows.map Reported.key).Nodup := by
    rw [putReported_rows]
    exact Upserts.nodup_upsert (ReportedTable.key_refresh _) _ _ h
  unfold addReported
  split
  · exact h
  split
  · exact hput
  · split
    · rwa [Backend.refused_rows]
    · exact hput

theorem mem_addPing {devices : List Int} {t : Keyed PingModel Int PingModel.deviceId} {deviceId now : Int}
    {uptimeSecs : Option Int} {p : PingModel} (h : p ∈ (addPing devices t deviceId now uptimeSecs).2.rows) :
    (∃ p₀ ∈ t.rows, p₀.deviceId = p.deviceId) ∨ p.deviceId ∈ devices := by
  have hput : p ∈ (putPing t deviceId now uptimeSecs).rows →
      (∃ p₀ ∈ t.rows, p₀.deviceId = p.deviceId) ∨ p.deviceId = deviceId := fun h =>
    ((Upserts.mem_keys_upsert (deviceId_refreshPing now uptimeSecs) _ _ _).1 (List.mem_map_of_mem h)).imp_left
      List.mem_map.1
  unfold addPing at h
  split at h
  · rename_i hin
    exact .inl ((hput h).elim (fun h => h) (fun hk => List.mem_map.1 (hk ▸ hin)))
  · split at h
    · exact .inl ⟨p, h, rfl⟩
    · rename_i hc
      simp only [checks_eq_ok, List.forall_mem_cons, refers, List.contains_iff_mem] at hc
      exact (hput h).imp_right (fun hk => by rw [hk]; exact hc.1)

theorem rows_deleteRow {α : Type} {id : α → Int} (t : Serials.Table α id) (i : Int) (held : Except DbErr Unit) :
    (deleteRow t i held).2.rows.Sublist t.rows := by
  rcases deleteRow_cases t i held with h | ⟨-, h⟩
  · rw [h]
  · rw [h]
    exact List.filter_sublist

theorem db_withDb (s : Store) (db : Db) (h : db.base = s.base) : (s.withDb db).db = db := by
  show { db with base := s.base } = db
  rw [← h]

theorem grown_withDb {be : Backend} {s : Store} {db' : Db} (h : Stepped be s.db db') : Grown s (s.withDb db') where
  configIds := fun i hi => by
    obtain ⟨r, hr, rfl⟩ := List.mem_map.1 hi
    obtain ⟨r', hr', hl⟩ := h.grows.applicationConfigs r hr
    exact List.mem_map.2 ⟨r', hr', hl.id⟩
  osVersionIds := fun i hi => by
    obtain ⟨r, hr, rfl⟩ := List.mem_map.1 hi
    obtain ⟨r', hr', hl⟩ := h.grows.osVersions r hr
    exact List.mem_map.2 ⟨r', hr', hl.id⟩
  osAssignments := fun r hr =>
    (Entity.change_rows _ _ _ _ _ h.osAssignments r hr).imp_right (s.osAssignmentRefs_iff r.data).1
  applicationConfigs := fun r hr =>
    (Entity.change_rows _ _ _ _ _ h.applicationConfigs r hr).imp_right (s.applicationConfigRefs_iff r.data).1
  applicationAssignments := fun r hr =>
    (Entity.change_rows _ _ _ _ _ h.applicationAssignments r hr).imp_right (s.applicationAssignmentRefs_iff r.data).1

theorem grown_devices {s : Store} {t : DeviceTable} (h : DeviceTable.Kept s.tenants.keys s.groups.keys s.devices t) :
    Grown s { s with devices := t } where
  deviceKeys := h.keys
  devices := h.rows

/-! ## Removing -/

theorem free_eq_true {α : Type} {column : String} {rows : List α} {p : α → Prop} [DecidablePred p] :
    (free column (rows.any (fun r => decide (p r)))).1 = true ↔ ∀ r ∈ rows, ¬ p r := by
  simp [free]

theorem heldTenant_eq_ok (s : Store) (id : Int) :
    s.heldTenant id = .ok () ↔ ∀ d ∈ s.devices.rows, d.tenantId ≠ id := by
  unfold heldTenant
  rw [checks_eq_ok, List.forall_mem_singleton, free_eq_true]

/-- No device is in the group, and no versioned row, active or not, is for it. -/
theorem heldGroup_eq_ok (s : Store) (id : Int) : s.heldGroup id = .ok () ↔
    (∀ d ∈ s.devices.rows, d.groupId ≠ some id) ∧ (∀ r ∈ s.applicationConfigs.rows, r.data.groupId ≠ some id) ∧
    (∀ r ∈ s.applicationAssignments.rows, r.data.groupId ≠ some id) ∧
    ∀ r ∈ s.osAssignments.rows, r.data.groupId ≠ some id := by
  unfold heldGroup
  rw [checks_eq_ok, List.forall_mem_cons, List.forall_mem_cons, List.forall_mem_cons, List.forall_mem_singleton,
    free_eq_true, free_eq_true, free_eq_true, free_eq_true]

theorem heldApplication_eq_ok (s : Store) (id : Int) :
    s.heldApplication id = .ok () ↔ ∀ r ∈ s.applicationConfigs.rows, r.data.applicationId ≠ id := by
  unfold heldApplication
  rw [checks_eq_ok, List.forall_mem_singleton, free_eq_true]

theorem heldDevice_eq_ok (s : Store) (id : Int) : s.heldDevice id = .ok () ↔
    (∀ r ∈ s.applicationConfigs.rows, r.data.deviceId ≠ some id) ∧
    (∀ r ∈ s.applicationAssignments.rows, r.data.deviceId ≠ some id) ∧
    (∀ r ∈ s.osAssignments.rows, r.data.deviceId ≠ some id) ∧
    (∀ r ∈ s.reportedApplicationAssignments.rows, r.deviceId ≠ id) ∧
    (∀ r ∈ s.reportedOsAssignments.rows, r.deviceId ≠ id) ∧ ∀ p ∈ s.pings.rows, p.deviceId ≠ id := by
  unfold heldDevice
  rw [checks_eq_ok, List.forall_mem_cons, List.forall_mem_cons, List.forall_mem_cons, List.forall_mem_cons,
    List.forall_mem_cons, List.forall_mem_singleton, free_eq_true, free_eq_true, free_eq_true, free_eq_true,
    free_eq_true, free_eq_true]

theorem Integral.removeTenant {s : Store} (hi : s.Integral) (id : Int) (h : s.heldTenant id = .ok ()) :
    Integral { s with tenants := s.tenants.remove id } :=
  { hi with
    devices := fun d hd =>
      ⟨(s.tenants.mem_keys_remove id _).2 ⟨(hi.devices d hd).1, (s.heldTenant_eq_ok id).1 h d hd⟩, (hi.devices d hd).2⟩ }

theorem Integral.removeGroup {s : Store} (hi : s.Integral) (id : Int) (h : s.heldGroup id = .ok ()) :
    Integral { s with groups := s.groups.remove id } := by
  obtain ⟨hd, hc, ha, ho⟩ := (s.heldGroup_eq_ok id).1 h
  have hkeep : ∀ {d g : Option Int}, g ≠ some id → s.Targets d g →
      Targets { s with groups := s.groups.remove id } d g := fun hne ht =>
    ⟨ht.1, fun g hg => (s.groups.mem_keys_remove id g).2 ⟨ht.2 g hg, fun he => hne (he ▸ hg)⟩⟩
  exact { hi with
    devices := fun d hm => ⟨(hi.devices d hm).1, fun g hg =>
      (s.groups.mem_keys_remove id g).2 ⟨(hi.devices d hm).2 g hg, fun he => hd d hm (he ▸ hg)⟩⟩
    osAssignments := fun r hr => ⟨(hi.osAssignments r hr).1, hkeep (ho r hr) (hi.osAssignments r hr).2⟩
    applicationConfigs := fun r hr => ⟨(hi.applicationConfigs r hr).1, hkeep (hc r hr) (hi.applicationConfigs r hr).2⟩
    applicationAssignments := fun r hr =>
      ⟨(hi.applicationAssignments r hr).1, hkeep (ha r hr) (hi.applicationAssignments r hr).2⟩ }

theorem Integral.removeApplication {s : Store} (hi : s.Integral) (id : Int) (h : s.heldApplication id = .ok ()) :
    Integral { s with applications := s.applications.remove id } :=
  { hi with
    applicationConfigs := fun r hr =>
      ⟨(s.applications.mem_keys_remove id _).2
          ⟨(hi.applicationConfigs r hr).1, (s.heldApplication_eq_ok id).1 h r hr⟩, (hi.applicationConfigs r hr).2⟩ }

theorem Integral.removeDevice {s : Store} (hi : s.Integral) (id : Int) (h : s.heldDevice id = .ok ()) :
    Integral { s with devices := s.devices.remove id } := by
  obtain ⟨hc, ha, ho, hra, hro, hp⟩ := (s.heldDevice_eq_ok id).1 h
  have hstay : ∀ {d : Int}, d ∈ s.devices.keys → d ≠ id → d ∈ (s.devices.remove id).keys := fun hd hne =>
    (s.devices.mem_keys_remove id _).2 ⟨hd, hne⟩
  have hkeep : ∀ {d g : Option Int}, d ≠ some id → s.Targets d g →
      Targets { s with devices := s.devices.remove id } d g := fun hne ht =>
    ⟨fun d hd => hstay (ht.1 d hd) (fun he => hne (he ▸ hd)), ht.2⟩
  exact { hi with
    devices := fun d hm => hi.devices d (List.mem_filter.1 hm).1
    osAssignments := fun r hr => ⟨(hi.osAssignments r hr).1, hkeep (ho r hr) (hi.osAssignments r hr).2⟩
    applicationConfigs := fun r hr => ⟨(hi.applicationConfigs r hr).1, hkeep (hc r hr) (hi.applicationConfigs r hr).2⟩
    applicationAssignments := fun r hr =>
      ⟨(hi.applicationAssignments r hr).1, hkeep (ha r hr) (hi.applicationAssignments r hr).2⟩
    reportedApplicationAssignments := fun r hr =>
      ⟨(hi.reportedApplicationAssignments r hr).1, hstay (hi.reportedApplicationAssignments r hr).2 (hra r hr)⟩
    reportedOsAssignments := fun r hr =>
      ⟨(hi.reportedOsAssignments r hr).1, hstay (hi.reportedOsAssignments r hr).2 (hro r hr)⟩
    pings := fun p hm => hstay (hi.pings p hm) (hp p hm) }

/-- **Every call keeps the references.** -/
theorem integral_exec (be : Backend) (s : Store) (hi : s.Integral) (hs : s.db.Sound) (c : StoreCall) :
    (s.exec be c).Integral := by
  cases c with
  | addTenant n d => exact hi.grown { tenants := mem_keys_insertRow _ _ _ }
  | updateTenant id n d => exact hi.grown { tenants := fun i hi => (keys_updateRow ..).symm ▸ hi }
  | deleteTenant id =>
    rcases deleteRow_cases s.tenants id (s.heldTenant id) with h | ⟨hok, h⟩
    · exact (congrArg (fun t => Integral { s with tenants := t }) h).mpr hi
    · exact (congrArg (fun t => Integral { s with tenants := t }) h).mpr (hi.removeTenant id hok)
  | addGroup n => exact hi.grown { groups := mem_keys_insertRow _ _ _ }
  | updateGroup id n => exact hi.grown { groups := fun i hi => (keys_updateRow ..).symm ▸ hi }
  | deleteGroup id =>
    rcases deleteRow_cases s.groups id (s.heldGroup id) with h | ⟨hok, h⟩
    · exact (congrArg (fun t => Integral { s with groups := t }) h).mpr hi
    · exact (congrArg (fun t => Integral { s with groups := t }) h).mpr (hi.removeGroup id hok)
  | addApplication n d => exact hi.grown { applications := mem_keys_insertRow _ _ _ }
  | updateApplication id n d => exact hi.grown { applications := fun i hi => (keys_updateRow ..).symm ▸ hi }
  | deleteApplication id =>
    rcases deleteRow_cases s.applications id (s.heldApplication id) with h | ⟨hok, h⟩
    · exact (congrArg (fun t => Integral { s with applications := t }) h).mpr hi
    · exact (congrArg (fun t => Integral { s with applications := t }) h).mpr (hi.removeApplication id hok)
  | addDevice u k n t g => exact hi.grown (grown_devices (s.devices.kept_addDevice _ _ _ _ _ _ _))
  | updateDevice id u k n t g => exact hi.grown (grown_devices (s.devices.kept_updateDevice _ _ _ _ _ _ _ _))
  | patchDevice id u k n t g => exact hi.grown (grown_devices (s.devices.kept_patchDevice _ _ _ _ _ _ _ _))
  | deleteDevice id =>
    rcases deleteDevice_cases s.devices id (s.heldDevice id) with h | ⟨hok, h⟩
    · exact (congrArg (fun t => Integral { s with devices := t }) h).mpr hi
    · exact (congrArg (fun t => Integral { s with devices := t }) h).mpr (hi.removeDevice id hok)
  | versioned c =>
    cases c with
    | base b => exact hi
    | _ => exact hi.grown (grown_withDb (exec_stepped be s.db hs _))
  | addReportedApplicationAssignment c d now =>
    exact hi.grown { reportedApplicationAssignments := fun _ => mem_addReported,
                     reportedApplicationKeys := nodup_addReported }
  | deleteReportedApplicationAssignment id =>
    exact hi.grown { reportedApplicationAssignments := fun r hr => .inl ⟨r, (rows_deleteRow _ _ _).subset hr, rfl⟩,
                     reportedApplicationKeys := fun h => h.sublist ((rows_deleteRow _ _ _).map _) }
  | addReportedOsAssignment v d now =>
    exact hi.grown { reportedOsAssignments := fun _ => mem_addReported, reportedOsKeys := nodup_addReported }
  | deleteReportedOsAssignment id =>
    exact hi.grown { reportedOsAssignments := fun r hr => .inl ⟨r, (rows_deleteRow _ _ _).subset hr, rfl⟩,
                     reportedOsKeys := fun h => h.sublist ((rows_deleteRow _ _ _).map _) }
  | upsertPing d now u => exact hi.grown { pings := fun _ => mem_addPing }

/-! ## Refinement -/

/-- A call as the model of the versioned tables sees it: a change of the tables they refer to, or one of its own calls. -/
def seen (be : Backend) (s : Store) : StoreCall → Call
  | .versioned (.base _) => .base s.base
  | .versioned c => c
  | c => .base (s.exec be c).base

def trace (be : Backend) : List StoreCall → Store → List Call
  | [], _ => []
  | c :: calls, s => s.seen be c :: trace be calls (s.exec be c)

theorem exec_unversioned (be : Backend) (s : Store) (c : StoreCall) (h : ∀ d, c ≠ .versioned d) :
    (s.exec be c).db = { s.db with base := (s.exec be c).base } := by
  cases c with
  | versioned d => exact absurd rfl (h d)
  | _ => rfl

theorem exec_seen (be : Backend) (s : Store) (hi : s.Integral) (hs : s.db.Sound) (c : StoreCall) :
    (s.exec be c).db = Api.exec be s.db (s.seen be c) := by
  have hbase : ∀ b, ({ s.db with base := b } : Db).refsHold = true → Api.exec be s.db (.base b) = { s.db with base := b } :=
    fun b h => if_pos h
  have hother : (∀ d, c ≠ .versioned d) → (s.exec be c).db = Api.exec be s.db (.base (s.exec be c).base) := fun h => by
    have hdb := exec_unversioned be s c h
    rw [hdb, hbase]
    exact hdb ▸ (integral_exec be s hi hs c).refsHold
  cases c with
  | versioned c =>
    cases c with
    | base b =>
      show s.db = Api.exec be s.db (.base s.base)
      rw [hbase _ hi.refsHold]
      rfl
    | _ => exact s.db_withDb _ rfl
  | _ => exact hother (fun d h => by cases h)

/-- **Seen through its foreign keys, a run of the store is a run of the model of the versioned tables**, call for call: the
store refuses a DELETE that would leave a reference dangling, and no other step of it is refused there. -/
theorem run_db (be : Backend) : ∀ (calls : List StoreCall) (s : Store), s.Integral → s.db.Sound →
    (run be calls s).db = (trace be calls s).foldl (Api.exec be) s.db
  | [], _, _, _ => rfl
  | c :: calls, s, hi, hs => by
    have hdb := exec_seen be s hi hs c
    have hs' : (s.exec be c).db.Sound := hdb ▸ exec_sound be s.db hs _
    show (run be calls (s.exec be c)).db = (trace be calls (s.exec be c)).foldl (Api.exec be) _
    rw [run_db be calls _ (integral_exec be s hi hs c) hs', hdb]

/-! ## Stores that calls lead to -/

/-- The store after a sequence of calls. -/
def stored (be : Backend) (calls : List StoreCall) : Store := run be calls empty

theorem run_append (be : Backend) (calls later : List StoreCall) (s : Store) :
    run be (calls ++ later) s = run be later (run be calls s) :=
  List.foldl_append

theorem trace_append (be : Backend) (later : List StoreCall) : ∀ (calls : List StoreCall) (s : Store),
    trace be (calls ++ later) s = trace be calls s ++ trace be later (run be calls s)
  | [], _ => rfl
  | c :: calls, s => congrArg (s.seen be c :: ·) (trace_append be later calls (s.exec be c))

theorem empty_integral : empty.Integral :=
  ⟨fun _ h => absurd h List.not_mem_nil, fun _ h => absurd h List.not_mem_nil, fun _ h => absurd h List.not_mem_nil,
    fun _ h => absurd h List.not_mem_nil, fun _ h => absurd h List.not_mem_nil, fun _ h => absurd h List.not_mem_nil,
    fun _ h => absurd h List.not_mem_nil, List.nodup_nil, List.nodup_nil⟩

theorem run_integral (be : Backend) : ∀ (calls : List StoreCall) (s : Store), s.Integral → s.db.Sound →
    (run be calls s).Integral ∧ (run be calls s).db.Sound
  | [], _, hi, hs => ⟨hi, hs⟩
  | c :: calls, s, hi, hs =>
    run_integral be calls _ (integral_exec be s hi hs c) (exec_seen be s hi hs c ▸ exec_sound be s.db hs _)

theorem stored_integral (be : Backend) (calls : List StoreCall) : (stored be calls).Integral :=
  (run_integral be calls empty empty_integral empty_sound).1

theorem stored_sound (be : Backend) (calls : List StoreCall) : (stored be calls).db.Sound :=
  (run_integral be calls empty empty_integral empty_sound).2

theorem stored_db (be : Backend) (calls : List StoreCall) : (stored be calls).db = Api.run be (trace be calls empty) :=
  run_db be calls empty empty_integral empty_sound

/-- Any two moments of a run of the store are two moments of a run of the versioned tables. -/
theorem stored_grows (be : Backend) (calls later : List StoreCall) :
    (stored be calls).db.Grows (stored be (calls ++ later)).db := by
  rw [stored_db, stored_db, trace_append]
  exact run_grows be _ _

/-- **The store refines the model of the versioned tables**: at any two moments of any sequence of calls its versioned
tables are those of a run of that model, with one call for each of its own, and the keys they may refer to are the rows
that are there. -/
theorem stored_refines (be : Backend) (calls later : List StoreCall) :
    ∃ before after : List Call, before.length = calls.length ∧ after.length = later.length ∧
      (stored be calls).db = Api.run be before ∧ (stored be (calls ++ later)).db = Api.run be (before ++ after) := by
  have hlen : ∀ (l : List StoreCall) (s : Store), (trace be l s).length = l.length := by
    intro l
    induction l with
    | nil => exact fun _ => rfl
    | cons c l ih => exact fun s => congrArg Nat.succ (ih (s.exec be c))
  refine ⟨trace be calls empty, trace be later (stored be calls), hlen _ _, hlen _ _, stored_db be calls, ?_⟩
  rw [stored_db, trace_append]
  rfl

/-! ## What the integrity gives the reads -/

/-- The tables a summary is made of. -/
def Integral.summaryDb {s : Store} (h : s.Integral) : SummaryDb where
  tenants := ⟨s.tenants.rows, s.tenants.nodup_keys⟩
  devices := ⟨s.devices.rows, s.devices.nodup_keys⟩
  osVersions := s.osVersions
  applications := ⟨s.applications.rows, s.applications.nodup_keys⟩
  applicationConfigs := s.applicationConfigs
  reportedOs := ⟨s.reportedOsAssignments.rows, s.reportedOsAssignments.next, h.reportedOsKeys, h.reportedOsAssignments⟩
  reportedApplications := ⟨s.reportedApplicationAssignments.rows, s.reportedApplicationAssignments.next,
    h.reportedApplicationKeys, h.reportedApplicationAssignments⟩
  tenantRefs := fun d hd => (h.devices d hd).1
  applicationRefs := fun c hc => (h.applicationConfigs c hc).1

/-- **No reference dangles after any sequence of calls**, refused ones included, and so the summary of a device that is
there names its tenant and has, for every row it has reported, an entry with the version or the configuration and
application it refers to. -/
theorem stored_summaries_complete (be : Backend) (calls : List StoreCall) (o : Overflow)
    (like : String → String → Bool) :
    ∃ h : (stored be calls).Integral, ∀ d ∈ (stored be calls).devices.rows,
      ∃ summary, h.summaryDb.getDeviceSummary o like d.id = some (some summary) ∧ summary.device = d ∧
        h.summaryDb.Shows summary := by
  refine ⟨stored_integral be calls, fun d hd => ?_⟩
  exact ⟨_, SummaryDb.getDeviceSummary_eq o like _ d hd, rfl, SummaryDb.shows_summary _ d hd⟩

end Store
end Api
end ZeroDowntime
