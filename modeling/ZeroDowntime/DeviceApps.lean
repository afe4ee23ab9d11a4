import ZeroDowntime.Common
import ZeroDowntime.ApiTargets
import ZeroDowntime.ApiIntegrity
/-!
# DeviceApps — `/device/apps`, statement by statement

Other calls may run between two statements of a request.  What a `GET` answers is still decided when it lists the
assignments (`Gathered`): every config of the answer was deployed then, and of those that were, only such are left out that
have been retired since.  A `PUT` is refused only for a device whose row has gone.
-/
namespace ZeroDowntime
namespace Api

open Versioned (Row Table)
open Ranked (First keepFirst)

def itemOf (c : Row ApplicationConfig) : AppsGetResponseItem where
  id := c.id
  applicationId := c.data.applicationId
  image := c.data.image.toList
  config := c.data.config

/-- A request of an authenticated device, by what is left to do. -/
inductive AppsRequest
  /-- `GET`: the assignments are queried. -/
  | listing (device : DeviceModel)
  /-- The applications of their configs are queried. -/
  | mapping (device : DeviceModel) (all : List (Row ApplicationAssignment))
  /-- The configs of the assignments kept are queried one by one. -/
  | reading (device : DeviceModel) (assignments : List (Row ApplicationAssignment)) (configs : List (Row ApplicationConfig))
  | served (device : DeviceModel) (answer : List AppsGetResponseItem)
  /-- `PUT`: the ids are inserted one by one. -/
  | reporting (device : DeviceModel) (ids : List Int)
  | created
  | failed

namespace AppsRequest

/-- The next statement of the request, executed at `now`. -/
def statement (be : Backend) (now : Int) (s : Store) : AppsRequest → Option (AppsRequest × Store)
  | .listing d => some (.mapping d (rowsForDevice be.nullOrder ApplicationAssignment.deviceId
      ApplicationAssignment.groupId d.id d.groupId (fun _ => true) s.applicationAssignments), s)
  | .mapping d all => some (.reading d (assignmentsPaged all 0 u64Max s.db).1 [], s)
  | .reading d (a :: assignments) configs =>
    some (.reading d assignments (configs ++ (getApplicationConfig a.data.applicationConfigId s.db).toList), s)
  | .reading d [] configs => some (.served d (configs.map itemOf), s)
  | .reporting d (id :: ids) =>
    match s.addReportedApplicationAssignment be id d.id now with
    | (.ok _, s') => some (.reporting d ids, s')
    | (.error _, s') => some (.failed, s')
  | .reporting _ [] => some (.created, s)
  | .served _ _ => none
  | .created => none
  | .failed => none

/-- The next statement fails, or never reaches the database. -/
def fail : AppsRequest → Option AppsRequest
  | .listing _ => some .failed
  | .mapping _ _ => some .failed
  | .reading _ (_ :: _) _ => some .failed
  | .reporting _ (_ :: _) => some .failed
  | _ => none

def device? : AppsRequest → Option DeviceModel
  | .listing d => some d
  | .mapping d _ => some d
  | .reading d _ _ => some d
  | .served d _ => some d
  | .reporting d _ => some d
  | .created => none
  | .failed => none

end AppsRequest

/-- The device of a `GET` whose assignments have been listed. -/
def AppsRequest.listed? : AppsRequest → Option DeviceModel
  | .mapping d _ => some d
  | .reading d _ _ => some d
  | .served d _ => some d
  | _ => none

/-! ## What a config found now says about an earlier moment -/

variable {no : NullOrder} {db₀ db db' : Db}

/-- A config that is active and was there before was active then. -/
theorem getApplicationConfig_earlier {id : Int} {c : Row ApplicationConfig} (hg : db₀.Grows db)
    (hid : id ∈ db₀.applicationConfigs.rows.map Row.id) (h : getApplicationConfig id db = some c) :
    getApplicationConfig id db₀ = some c := by
  obtain ⟨c₀, h₀, rfl⟩ := List.mem_map.1 hid
  obtain ⟨hmem, hcid, hact⟩ := (db.applicationConfigs.findActive_eq_some _ c).1 h
  obtain ⟨c', h', hl⟩ := hg.applicationConfigs c₀ h₀
  obtain rfl := db.applicationConfigs.eq_of_id c' c h' hmem (hl.id.trans hcid.symm)
  obtain ⟨hd, hs⟩ := c'.active_eq_true.1 hact
  have hd₀ : c₀.deletedAt = none := by
    cases hd₀ : c₀.deletedAt with
    | none => rfl
    | some now => exact absurd ((hl.deletedAt now hd₀).symm.trans hd) (Option.some_ne_none now)
  have hs₀ : c₀.supersededBy = none := by
    cases hs₀ : c₀.supersededBy with
    | none => rfl
    | some n => exact absurd ((hl.supersededBy n hs₀).symm.trans hs) (Option.some_ne_none n)
  have heq : c₀ = c' := by
    obtain ⟨i₀, d₀, s₀, a₀⟩ := c₀
    obtain ⟨i, d, s, a⟩ := c'
    simp only [Row.mk.injEq]
    exact ⟨hl.id.symm, hd₀.trans hd.symm, hs₀.trans hs.symm, hl.data.symm⟩
  exact (db₀.applicationConfigs.findActive_eq_some _ c').2 ⟨heq ▸ h₀, hcid, hact⟩

theorem appOf_earlier {r : Row ApplicationAssignment} {a : Int} (hg : db₀.Grows db)
    (hid : r.data.applicationConfigId ∈ db₀.applicationConfigs.rows.map Row.id) (h : db.appOf r = some a) :
    db₀.appOf r = some a := by
  obtain ⟨c, hc, rfl⟩ := Option.map_eq_some_iff.1 h
  rw [Db.appOf, getApplicationConfig_earlier hg hid hc]
  rfl

theorem assignmentsPaged_all {rows : List (Row ApplicationAssignment)} (h : (rows.length : Int) < Versioned.idLimit) :
    (assignmentsPaged rows 0 u64Max db).1 = keepFirst db.appOf [] rows := by
  have hlen : (deduplicatedOf rows db).length ≤ u64Max.toNat := by
    rw [deduplicatedOf_eq]
    have hle := (Ranked.keepFirst_sublist db.appOf rows []).length_le
    simp only [Versioned.idLimit, u64Max, UInt64.reduceToNat] at h ⊢
    omega
  unfold assignmentsPaged
  simp only [UInt64.zero_mul, UInt64.toNat_zero, List.drop_zero]
  rw [List.take_of_length_le hlen, deduplicatedOf_eq]

/-! ## What a `GET` has gathered -/

/-- The rows of device `d` as they were listed in `db₀`. -/
def Db.listed (db₀ : Db) (no : NullOrder) (d : DeviceModel) : List (Row ApplicationAssignment) :=
  rowsForDevice no ApplicationAssignment.deviceId ApplicationAssignment.groupId d.id d.groupId (fun _ => true)
    db₀.applicationAssignments

/-- Config `c` is active, and an active assignment of the device or of its group references it. -/
def Db.Deployed (db : Db) (d : DeviceModel) (c : Row ApplicationConfig) : Prop :=
  c ∈ db.applicationConfigs.rows ∧ c.active = true ∧ db.Assigned d.id d.groupId c

/-- The request listed in `db₀` and has come this far in `db`, with `todo` still to read. -/
structure Gathered (no : NullOrder) (db₀ db : Db) (d : DeviceModel) (todo : List (Row ApplicationAssignment))
    (configs : List (Row ApplicationConfig)) : Prop where
  deployed : ∀ c ∈ configs, db₀.Deployed d c
  listed : ∀ r ∈ todo, r ∈ db₀.listed no d
  once : (configs.map (·.data.applicationId) ++ todo.filterMap db₀.appOf).Nodup
  kept : ∀ a w, db₀.AppWinner no d.id d.groupId a w → ∀ c, getApplicationConfig w.data.applicationConfigId db = some c →
    c ∈ configs ∨ w ∈ todo

/-- The foreign key from the assignments into the configs. -/
def Db.ConfigsThere (db : Db) : Prop :=
  ∀ r ∈ db.applicationAssignments.rows, r.data.applicationConfigId ∈ db.applicationConfigs.rows.map Row.id

theorem mem_listed {d : DeviceModel} {r : Row ApplicationAssignment} :
    r ∈ db₀.listed no d ↔ db₀.AppApplies d.id d.groupId r :=
  ((returns_rowsForDevice no d.id d.groupId db₀).mem r).trans
    (and_congr_right fun _ => and_congr_right fun _ => (appliesToDevice_eq_true ..).symm)

theorem listed_eq (db₀ : Db) (no : NullOrder) (d : DeviceModel) : ∃ l : List (Row ApplicationAssignment),
    db₀.listed no d = l.insertionSort (no.readLe ApplicationAssignment.deviceId) ∧
      (∀ r, r ∈ l ↔ db₀.AppApplies d.id d.groupId r) ∧ Ranked.Reads (no.readLe ApplicationAssignment.deviceId) l ∧
      (l.length : Int) < Versioned.idLimit := by
  obtain ⟨l, hrows, hmem, hr, hlen⟩ := rowsForDevice_eq no ApplicationAssignment.deviceId ApplicationAssignment.groupId d.id
    d.groupId (fun _ => true) db₀.applicationAssignments
  refine ⟨l, hrows, fun r => (hmem r).trans (and_iff_left rfl), hr, ?_⟩
  exact Int.lt_of_le_of_lt (Int.ofNat_le.2 hlen) db₀.applicationAssignments.length_lt

/-- The rows kept at the second statement had the same applications when they were listed. -/
theorem filterMap_appOf {d : DeviceModel} (hg : db₀.Grows db) (hfk : db₀.ConfigsThere) :
    (keepFirst db.appOf [] (db₀.listed no d)).filterMap db₀.appOf =
      (keepFirst db.appOf [] (db₀.listed no d)).filterMap db.appOf := by
  obtain ⟨l, heq, hl, hr, -⟩ := listed_eq db₀ no d
  refine List.filterMap_congr (fun r hmem => ?_)
  have hthere := hfk r (mem_listed.1 ((Ranked.keepFirst_sublist _ _ _).subset hmem)).1
  rw [heq, Ranked.mem_keepFirst_sorted _ _ _ hr] at hmem
  obtain ⟨a, ha, -⟩ := hmem
  rw [ha, appOf_earlier hg hthere ha]

/-- **The second statement keeps the winners whose configs are still active.** -/
theorem gathered_mapping (hg : db₀.Grows db) (hfk : db₀.ConfigsThere) (d : DeviceModel) :
    Gathered no db₀ db d (assignmentsPaged (db₀.listed no d) 0 u64Max db).1 [] := by
  obtain ⟨l, heq, hl, hr, hlen⟩ := listed_eq db₀ no d
  rw [assignmentsPaged_all (by rw [heq, List.length_insertionSort]; exact hlen)]
  refine ⟨fun c hc => absurd hc List.not_mem_nil, fun r hmem => (Ranked.keepFirst_sublist _ _ _).subset hmem, ?_,
    fun a w hw c hc => .inr ?_⟩
  · rw [List.map_nil, List.nil_append, filterMap_appOf hg hfk]
    exact (Ranked.nodup_keepFirst db.appOf _ []).1
  · have hthere := hfk w hw.1.1.1
    have hact : db₀.appOf w = some c.data.applicationId := by
      rw [Db.appOf, getApplicationConfig_earlier hg hthere hc]
      rfl
    obtain rfl : c.data.applicationId = a := Option.some.inj (hact.symm.trans hw.1.2)
    have hnow : db.appOf w = some c.data.applicationId := by
      rw [Db.appOf, hc]
      rfl
    rw [heq, Ranked.mem_keepFirst_sorted _ _ _ hr]
    refine ⟨c.data.applicationId, hnow, (hl w).2 hw.1.1, hnow, fun r hmem ha => ?_⟩
    exact hw.2 r ((hl r).1 hmem) (appOf_earlier hg (hfk r ((hl r).1 hmem).1) ha)

theorem Gathered.later {d : DeviceModel} {todo : List (Row ApplicationAssignment)} {configs : List (Row ApplicationConfig)}
    (h : Gathered no db₀ db d todo configs) (hfk : db₀.ConfigsThere) (hg₀ : db₀.Grows db) (hg : db.Grows db') :
    Gathered no db₀ db' d todo configs where
  deployed := h.deployed
  listed := h.listed
  once := h.once
  kept := fun a w hw c hc => by
    obtain ⟨c₀, h₀, hid⟩ := List.mem_map.1 (hfk w hw.1.1.1)
    obtain ⟨c₁, h₁, hl⟩ := hg₀.applicationConfigs c₀ h₀
    exact h.kept a w hw c (getApplicationConfig_earlier hg (List.mem_map.2 ⟨c₁, h₁, hl.id.trans hid⟩) hc)

/-- **One more config is read**, or the one of the next assignment has been retired by now. -/
theorem Gathered.read {d : DeviceModel} {r : Row ApplicationAssignment} {todo : List (Row ApplicationAssignment)}
    {configs : List (Row ApplicationConfig)} (h : Gathered no db₀ db d (r :: todo) configs) (hfk : db₀.ConfigsThere)
    (hg : db₀.Grows db) :
    Gathered no db₀ db d todo (configs ++ (getApplicationConfig r.data.applicationConfigId db).toList) := by
  have happ := mem_listed.1 (h.listed r List.mem_cons_self)
  have hthere := hfk r happ.1
  have hlisted : ∀ r ∈ todo, r ∈ db₀.listed no d := fun r hr => h.listed r (List.mem_cons_of_mem _ hr)
  cases hc : getApplicationConfig r.data.applicationConfigId db with
  | none =>
    rw [Option.toList_none, List.append_nil]
    refine ⟨h.deployed, hlisted, ?_, fun a w hw c hwc => (h.kept a w hw c hwc).imp_right (fun hw' => ?_)⟩
    · exact h.once.sublist ((List.sublist_cons_self r todo).filterMap db₀.appOf |>.append_left _)
    · rcases List.mem_cons.1 hw' with rfl | hw'
      · rw [hwc] at hc
        cases hc
      · exact hw'
  | some c =>
    have hc₀ := getApplicationConfig_earlier hg hthere hc
    obtain ⟨hmem, hid, hact⟩ := (db₀.applicationConfigs.findActive_eq_some _ c).1 hc₀
    have ha : db₀.appOf r = some c.data.applicationId := by
      rw [Db.appOf, hc₀]
      rfl
    rw [Option.toList_some]
    refine ⟨fun c' hc' => ?_, hlisted, ?_, fun a w hw c' hwc => ?_⟩
    · rcases List.mem_append.1 hc' with hc' | hc'
      · exact h.deployed c' hc'
      · obtain rfl := List.mem_singleton.1 hc'
        exact ⟨hmem, hact, r, happ.1, happ.2.1, hid.symm, (appliesToDevice_eq_true ..).1 happ.2.2⟩
    · have honce := h.once
      rwa [List.filterMap_cons_some ha, ← List.singleton_append, ← List.append_assoc,
        ← List.map_singleton (f := fun c : Row ApplicationConfig => c.data.applicationId), ← List.map_append] at honce
    · rcases h.kept a w hw c' hwc with hin | hin
      · exact .inl (List.mem_append_left _ hin)
      · rcases List.mem_cons.1 hin with rfl | hin
        · obtain rfl := Option.some.inj (hwc.symm.trans hc)
          exact .inl (List.mem_append_right _ (List.mem_singleton_self _))
        · exact .inr hin

theorem mem_appsGetAssigned_rows {d : Int} {g : Option Int} {c : Row ApplicationConfig}
    (hc : c ∈ appsGetAssigned no d g db) : c ∈ db.applicationConfigs.rows := by
  obtain ⟨a, w, -, hget⟩ := (mem_appsGetAssigned no d g db c).1 hc
  exact ((db.applicationConfigs.findActive_eq_some _ c).1 hget).1

/-! ## Requests among other calls -/

/-- What the request knows, in `db`, of the moment it listed the assignments. -/
def AppsRequest.Serves (no : NullOrder) (db₀ db : Db) : AppsRequest → Prop
  | .mapping d all => all = db₀.listed no d
  | .reading d todo configs => Gathered no db₀ db d todo configs
  | .served d answer => ∃ configs, answer = configs.map itemOf ∧ Gathered no db₀ db d [] configs
  | _ => True

theorem AppsRequest.Serves.later (hfk : db₀.ConfigsThere) (hg₀ : db₀.Grows db) (hg : db.Grows db') :
    ∀ {r : AppsRequest}, r.Serves no db₀ db → r.Serves no db₀ db'
  | .listing _, _ => trivial
  | .mapping _ _, h => h
  | .reading _ _ _, h => Gathered.later h hfk hg₀ hg
  | .served _ _, ⟨configs, heq, h⟩ => ⟨configs, heq, Gathered.later h hfk hg₀ hg⟩
  | .reporting _ _, _ => trivial
  | .created, _ => trivial
  | .failed, _ => trivial

/-- The calls a statement may be. -/
theorem statement_store {be : Backend} {now : Int} {s s' : Store} {r r' : AppsRequest}
    (h : r.statement be now s = some (r', s')) : s' = s ∨
      ∃ d id ids, r = .reporting d (id :: ids) ∧ s' = s.exec be (.addReportedApplicationAssignment id d.id now) := by
  cases r with
  | listing d => exact .inl (Prod.mk.inj (Option.some.inj h)).2.symm
  | mapping d all => exact .inl (Prod.mk.inj (Option.some.inj h)).2.symm
  | reading d todo configs => cases todo <;> exact .inl (Prod.mk.inj (Option.some.inj h)).2.symm
  | reporting d ids =>
    cases ids with
    | nil => exact .inl (Prod.mk.inj (Option.some.inj h)).2.symm
    | cons id ids =>
      refine .inr ⟨d, id, ids, rfl, ?_⟩
      simp only [AppsRequest.statement] at h
      split at h
      · rename_i heq
        rw [Store.exec, heq]
        exact (Prod.mk.inj (Option.some.inj h)).2.symm
      · rename_i heq
        rw [Store.exec, heq]
        exact (Prod.mk.inj (Option.some.inj h)).2.symm
  | served d answer => cases h
  | created => cases h
  | failed => cases h

/-- **A statement of a `GET` adds to what is known of the moment of its first**, which is this moment if it is the first. -/
theorem serves_statement {be : Backend} {now : Int} {s s' : Store} {r r' : AppsRequest} {d : DeviceModel}
    (h : r.statement be now s = some (r', s')) (hd : r'.listed? = some d) :
    (r = .listing d ∧ r'.Serves be.nullOrder s.db s.db) ∨ (r.listed? = some d ∧ ∀ db₀ : Db, db₀.ConfigsThere →
      db₀.Grows s.db → r.Serves be.nullOrder db₀ s.db → r'.Serves be.nullOrder db₀ s.db) := by
  cases r with
  | listing d =>
    obtain ⟨rfl, -⟩ := Prod.mk.inj (Option.some.inj h)
    exact .inl ⟨congrArg AppsRequest.listing (Option.some.inj hd), rfl⟩
  | mapping d all =>
    obtain ⟨rfl, -⟩ := Prod.mk.inj (Option.some.inj h)
    refine .inr ⟨hd, fun db₀ hfk hg hr => ?_⟩
    obtain rfl : all = db₀.listed be.nullOrder d := hr
    exact gathered_mapping hg hfk d
  | reading d todo configs =>
    cases todo with
    | nil =>
      obtain ⟨rfl, -⟩ := Prod.mk.inj (Option.some.inj h)
      exact .inr ⟨hd, fun db₀ hfk hg hr => ⟨configs, rfl, hr⟩⟩
    | cons a todo =>
      obtain ⟨rfl, -⟩ := Prod.mk.inj (Option.some.inj h)
      exact .inr ⟨hd, fun db₀ hfk hg hr => hr.read hfk hg⟩
  | reporting d ids =>
    cases ids with
    | nil =>
      obtain ⟨rfl, -⟩ := Prod.mk.inj (Option.some.inj h)
      cases hd
    | cons id ids =>
      simp only [AppsRequest.statement] at h
      split at h <;> obtain ⟨rfl, -⟩ := Prod.mk.inj (Option.some.inj h) <;> cases hd
  | served d answer => cases h
  | created => cases h
  | failed => cases h

/-- The device of a request stays the same, and so do the ids that a `PUT` still has to insert. -/
theorem statement_device {be : Backend} {now : Int} {s s' : Store} {r r' : AppsRequest}
    (h : r.statement be now s = some (r', s')) : (∀ d, r'.device? = some d → r.device? = some d) ∧
      ∀ d ids, r' = .reporting d ids → ∃ id, r = .reporting d (id :: ids) := by
  cases r with
  | reading d todo configs =>
    cases todo <;> obtain ⟨rfl, -⟩ := Prod.mk.inj (Option.some.inj h) <;> exact ⟨fun _ h => h, fun _ _ h => (by cases h)⟩
  | reporting d ids =>
    cases ids with
    | nil =>
      obtain ⟨rfl, -⟩ := Prod.mk.inj (Option.some.inj h)
      exact ⟨fun _ h => (by cases h), fun _ _ h => (by cases h)⟩
    | cons id ids =>
      simp only [AppsRequest.statement] at h
      split at h
      · obtain ⟨rfl, -⟩ := Prod.mk.inj (Option.some.inj h)
        refine ⟨fun _ h => h, fun d' ids' h => ?_⟩
        cases h
        exact ⟨id, rfl⟩
      · obtain ⟨rfl, -⟩ := Prod.mk.inj (Option.some.inj h)
        exact ⟨fun _ h => (by cases h), fun _ _ h => (by cases h)⟩
  | served d answer => cases h
  | created => cases h
  | failed => cases h
  | _ =>
    obtain ⟨rfl, -⟩ := Prod.mk.inj (Option.some.inj h)
    exact ⟨fun _ h => h, fun _ _ h => (by cases h)⟩

theorem configsThere {s : Store} (hi : s.Integral) : s.db.ConfigsThere := fun r hr => (hi.applicationAssignments r hr).1

/-- **An id that a device was told is refused only if the device has gone**, or where no id is left for the row. -/
theorem addReported_ok_iff {be : Backend} {s : Store} (hi : s.Integral) {id deviceId now : Int} (hid : id ∈ s.configIds) :
    (s.addReportedApplicationAssignment be id deviceId now).1 = .ok () ↔
      deviceId ∈ s.devices.keys ∧ s.reportedApplicationAssignments.next < Versioned.idLimit := by
  simp only [Store.addReportedApplicationAssignment, addReported]
  split
  · rename_i hlimit
    exact iff_of_false (fun h => by cases h) (fun h => Int.not_lt.2 hlimit h.2)
  rename_i hlimit
  rw [and_iff_left (Int.not_le.1 hlimit)]
  split
  · rename_i h
    obtain ⟨r, hr, hk⟩ := h
    obtain ⟨hd, -⟩ := Prod.mk.inj hk
    exact iff_of_true rfl (hd ▸ (hi.reportedApplicationAssignments r hr).2)
  · split
    · rename_i hc
      refine iff_of_false (fun h => by cases h) (fun hd => ?_)
      have hok : checks [refers "application_config_id" s.configIds id, refers "device_id" s.devices.keys deviceId]
          = .ok () := by
        simp only [checks_eq_ok, List.forall_mem_cons, refers, List.contains_iff_mem]
        exact ⟨hid, hd, fun _ h => absurd h List.not_mem_nil⟩
      rw [hok] at hc
      cases hc
    · rename_i hc
      simp only [checks_eq_ok, List.forall_mem_cons, refers, List.contains_iff_mem] at hc
      exact iff_of_true rfl hc.2.1

/-- A report that goes through puts its row. -/
theorem addReported_of_ok {be : Backend} {column : String} {reportable devices : List Int}
    {t : Serials.Table Reported Reported.id} {reported deviceId now : Int}
    (h : (addReported be column reportable devices t reported deviceId now).1 = .ok ()) :
    (addReported be column reportable devices t reported deviceId now).2 =
      putReported t deviceId ⟨reported, now, none⟩ := by
  unfold addReported at h ⊢
  split at h
  · cases h
  rename_i hlimit
  rw [if_neg hlimit]
  split
  · rfl
  · rename_i hin
    rw [if_neg hin] at h
    split at h
    · cases h
    · rfl

/-- What the statement of a report adds to the table is its own row. -/
theorem mem_exec_addReported {be : Backend} {s : Store} {id deviceId now : Int} {r : Reported}
    (h : r ∈ (s.exec be (.addReportedApplicationAssignment id deviceId now)).reportedApplicationAssignments.rows) :
    (∃ r₀ ∈ s.reportedApplicationAssignments.rows, r₀.key = r.key) ∨ r.key = (deviceId, id) := by
  have hput : r ∈ (putReported s.reportedApplicationAssignments deviceId ⟨id, now, none⟩).rows →
      (∃ r₀ ∈ s.reportedApplicationAssignments.rows, r₀.key = r.key) ∨ r.key = (deviceId, id) := fun h => by
    rw [putReported_rows] at h
    exact ((Upserts.mem_keys_upsert (ReportedTable.key_refresh _) _ _ _).1 (List.mem_map_of_mem h)).imp_left
      List.mem_map.1
  simp only [Store.exec, Store.addReportedApplicationAssignment, addReported] at h
  split at h
  · exact .inl ⟨r, h, rfl⟩
  split at h
  · exact hput h
  · split at h
    · exact .inl ⟨r, be.refused_rows _ ▸ h, rfl⟩
    · exact hput h

end Api
end ZeroDowntime
