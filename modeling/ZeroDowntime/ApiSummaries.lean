import Mathlib.Data.List.Dedup
import ZeroDowntime.ApiPaginator
import ZeroDowntime.ApiReported
import ZeroDowntime.Grouping
/-!
# ApiSummaries — a page of devices with what they report

The rows that belong to the devices of a page are fetched together and joined through hash maps, from which each device
takes what is its own.  The summary of one device is the first page of the same code under a filter on its id.  What a
page says of its devices is right on every page; which devices are on it is right as long as the offset fits 64 bits.
-/
namespace ZeroDowntime
namespace Api

open Std (HashMap)
open Versioned (Row Table)
open Upserts (lookup)
open Grouping (collect index)

structure TenantModel where
  id : Int
  name : String
  description : Option String
  deriving DecidableEq, Repr

structure ApplicationModel where
  id : Int
  name : String
  description : String
  deriving DecidableEq, Repr

/-- The tables a summary is made of, under their primary and foreign keys.  The rows of a table are in the order the
database returns them in. -/
structure SummaryDb where
  tenants : Keyed TenantModel Int TenantModel.id
  devices : Keyed DeviceModel Int DeviceModel.id
  osVersions : Table OsVersion
  applications : Keyed ApplicationModel Int ApplicationModel.id
  applicationConfigs : Table ApplicationConfig
  reportedOs : ReportedTable (osVersions.rows.map Row.id) (devices.rows.map DeviceModel.id)
  reportedApplications : ReportedTable (applicationConfigs.rows.map Row.id) (devices.rows.map DeviceModel.id)
  tenantRefs : ∀ d ∈ devices.rows, d.tenantId ∈ tenants.rows.map TenantModel.id
  applicationRefs : ∀ c ∈ applicationConfigs.rows, c.data.applicationId ∈ applications.rows.map ApplicationModel.id

structure OsReport where
  reportedAssignmentId : Int
  updatedAt : Int
  commitHash : String
  orchestratorVersion : String
  description : Option String
  deriving DecidableEq, Repr

structure ApplicationReport where
  reportedAssignmentId : Int
  updatedAt : Int
  applicationName : Option String
  applicationDescription : Option String
  config : Option ContainerConfigV1
  image : Option String
  version : Option Int
  deriving DecidableEq, Repr

structure DeviceSummary where
  device : DeviceModel
  tenant : Option TenantModel
  osVersions : List OsReport
  applications : List ApplicationReport
  deriving DecidableEq, Repr

def osReport (assignment : Reported) (osV : Row OsVersion) : OsReport where
  reportedAssignmentId := assignment.id
  updatedAt := assignment.updatedAt
  commitHash := osV.data.commitHash
  orchestratorVersion := osV.data.orchestratorVersion
  description := osV.data.description

def applicationReport (assignment : Reported) (config : Option (Row ApplicationConfig))
    (application : Option ApplicationModel) : ApplicationReport where
  reportedAssignmentId := assignment.id
  updatedAt := assignment.updatedAt
  applicationName := application.map ApplicationModel.name
  applicationDescription := application.map ApplicationModel.description
  config := config.bind (fun c => c.data.config)
  image := config.map (fun c => c.data.image)
  version := config.map (fun c => c.data.version)

/-! ## The queries -/

/-- The WHERE of the devices; `like` is the database's LIKE, of a pattern and a text. -/
def selectsDevice (like : String → String → Bool) (deviceId groupId tenantId : Option Int)
    (uuidFilter serialNumberFilter : Option String) (d : DeviceModel) : Bool :=
  eqIfGiven deviceId d.id && groupId.all (fun g => decide (d.groupId = some g)) && eqIfGiven tenantId d.tenantId &&
    uuidFilter.all (fun uuid => like ("%" ++ uuid ++ "%") d.uuid) &&
    serialNumberFilter.all (fun serialNumber => like ("%" ++ serialNumber ++ "%") d.serialNumber)

/-- ORDER BY id. -/
def byId (devices : List DeviceModel) : List DeviceModel := devices.insertionSort (fun a b => a.id ≤ b.id)

namespace SummaryDb

/-- `filter(DeviceId.is_in(device_ids)).find_also_related(OsVersion)` -/
def osRows (db : SummaryDb) (deviceIds : List Int) : List (Reported × Option (Row OsVersion)) :=
  (db.reportedOs.rows.filter (fun r => decide (r.deviceId ∈ deviceIds))).map
    (fun r => (r, lookup Row.id r.reported db.osVersions.rows))

def appRows (db : SummaryDb) (deviceIds : List Int) : List (Reported × Option (Row ApplicationConfig)) :=
  (db.reportedApplications.rows.filter (fun r => decide (r.deviceId ∈ deviceIds))).map
    (fun r => (r, lookup Row.id r.reported db.applicationConfigs.rows))

def osByDevice (db : SummaryDb) (deviceIds : List Int) : HashMap Int (List OsReport) :=
  collect (fun r => r.1.deviceId) (fun r => r.2.map (osReport r.1)) (db.osRows deviceIds)

/-- The set of the application ids; nothing depends on the order of its elements. -/
def appIds (db : SummaryDb) (deviceIds : List Int) : List Int :=
  ((db.appRows deviceIds).filterMap (fun r => r.2.map (fun c => c.data.applicationId))).dedup

def appById (db : SummaryDb) (deviceIds : List Int) : HashMap Int ApplicationModel :=
  index ApplicationModel.id (db.applications.rows.filter (fun a => decide (a.id ∈ db.appIds deviceIds)))

def appsByDevice (db : SummaryDb) (deviceIds : List Int) : HashMap Int (List ApplicationReport) :=
  collect (fun r => r.1.deviceId)
    (fun r => some (applicationReport r.1 r.2 (r.2.bind (fun c => (db.appById deviceIds)[c.data.applicationId]?))))
    (db.appRows deviceIds)

def tenantById (db : SummaryDb) (devices : List DeviceModel) : HashMap Int TenantModel :=
  index TenantModel.id (db.tenants.rows.filter (fun t => decide (t.id ∈ (devices.map DeviceModel.tenantId).dedup)))

/-- Each device takes its lists out of the two maps. -/
def summaries (tenantById : HashMap Int TenantModel) : List DeviceModel → HashMap Int (List OsReport) →
    HashMap Int (List ApplicationReport) → List DeviceSummary
  | [], _, _ => []
  | device :: devices, osByDevice, appsByDevice =>
    ⟨device, tenantById[device.tenantId]?, osByDevice.getD device.id [], appsByDevice.getD device.id []⟩ ::
      summaries tenantById devices (osByDevice.erase device.id) (appsByDevice.erase device.id)

/-- The devices the query finds, in the order it returns them. -/
def found (like : String → String → Bool) (db : SummaryDb) (deviceId groupId tenantId : Option Int)
    (uuidFilter serialNumberFilter : Option String) : List DeviceModel :=
  byId (db.devices.rows.filter (selectsDevice like deviceId groupId tenantId uuidFilter serialNumberFilter))

/-- `assemble_device_summary` of a build: `none` if the page panics. -/
def assembleDeviceSummary (o : Overflow) (like : String → String → Bool) (db : SummaryDb)
    (deviceId groupId tenantId : Option Int) (uuidFilter serialNumberFilter : Option String) (page pageSize : UInt64) :
    Option (List DeviceSummary × Nat) :=
  let found := found like db deviceId groupId tenantId uuidFilter serialNumberFilter
  let totalItems := found.length
  (fetchPage o pageSize page found).map (fun devices =>
    if devices.isEmpty then ([], totalItems)
    else
      let deviceIds := devices.map DeviceModel.id
      (summaries (db.tenantById devices) devices (db.osByDevice deviceIds) (db.appsByDevice deviceIds), totalItems))

def getDeviceSummary (o : Overflow) (like : String → String → Bool) (db : SummaryDb) (id : Int) :
    Option (Option DeviceSummary) :=
  (assembleDeviceSummary o like db (some id) none none none none 0 1).map (fun res => res.1.getLast?)

def listDeviceSummaries (o : Overflow) (like : String → String → Bool) (db : SummaryDb) (groupId tenantId : Option Int)
    (uuidFilter serialNumberFilter : Option String) (page pageSize : UInt64) : Option (List DeviceSummary × Nat) :=
  assembleDeviceSummary o like db none groupId tenantId uuidFilter serialNumberFilter page pageSize

/-! ## What a device's summary says -/

/-- `s` says of its device what the tables do: its tenant, and one entry for each of its reported rows, in their order. -/
structure Shows (db : SummaryDb) (s : DeviceSummary) : Prop where
  tenant : ∃ t ∈ db.tenants.rows, t.id = s.device.tenantId ∧ s.tenant = some t
  osVersions : List.Forall₂ (fun r e => ∃ v ∈ db.osVersions.rows, v.id = r.reported ∧ e = osReport r v)
    (db.reportedOs.rows.filter (fun r => decide (r.deviceId = s.device.id))) s.osVersions
  applications : List.Forall₂ (fun r e => ∃ c ∈ db.applicationConfigs.rows, c.id = r.reported ∧
      ∃ a ∈ db.applications.rows, a.id = c.data.applicationId ∧ e = applicationReport r (some c) (some a))
    (db.reportedApplications.rows.filter (fun r => decide (r.deviceId = s.device.id))) s.applications

/-- The summary of a device, as a function of the tables and of the device alone. -/
def summary (db : SummaryDb) (d : DeviceModel) : DeviceSummary where
  device := d
  tenant := lookup TenantModel.id d.tenantId db.tenants.rows
  osVersions := (db.reportedOs.rows.filter (fun r => decide (r.deviceId = d.id))).filterMap
    (fun r => (lookup Row.id r.reported db.osVersions.rows).map (osReport r))
  applications := (db.reportedApplications.rows.filter (fun r => decide (r.deviceId = d.id))).map (fun r =>
    let config := lookup Row.id r.reported db.applicationConfigs.rows
    applicationReport r config (config.bind (fun c => lookup ApplicationModel.id c.data.applicationId db.applications.rows)))

/-! ## The batch, device by device -/

theorem osByDevice_getD (db : SummaryDb) (deviceIds : List Int) (d : DeviceModel) (hd : d.id ∈ deviceIds) :
    (db.osByDevice deviceIds).getD d.id [] = (db.summary d).osVersions :=
  Grouping.getD_collect_join Reported.deviceId _ _ _ _ _ hd

theorem mem_appIds (db : SummaryDb) (deviceIds : List Int) (r : Reported) (c : Row ApplicationConfig)
    (hr : r ∈ db.reportedApplications.rows) (hd : r.deviceId ∈ deviceIds)
    (hc : lookup Row.id r.reported db.applicationConfigs.rows = some c) :
    c.data.applicationId ∈ db.appIds deviceIds := by
  refine List.mem_dedup.2 (List.mem_filterMap.2 ⟨(r, some c), List.mem_map.2 ⟨r, ?_, by rw [hc]⟩, rfl⟩)
  exact List.mem_filter.2 ⟨hr, decide_eq_true hd⟩

/-- The application of a fetched row is the one the whole table has. -/
theorem appById_getElem? (db : SummaryDb) (deviceIds : List Int) (r : Reported) (hr : r ∈ db.reportedApplications.rows)
    (hd : r.deviceId ∈ deviceIds) :
    (lookup Row.id r.reported db.applicationConfigs.rows).bind
        (fun c => (db.appById deviceIds)[c.data.applicationId]?) =
      (lookup Row.id r.reported db.applicationConfigs.rows).bind
        (fun c => lookup ApplicationModel.id c.data.applicationId db.applications.rows) := by
  cases hc : lookup Row.id r.reported db.applicationConfigs.rows with
  | none => rfl
  | some c =>
    exact Grouping.getElem?_index_batch _ _ db.applications.keys _ _ (db.mem_appIds deviceIds r c hr hd hc)

theorem appsByDevice_getD (db : SummaryDb) (deviceIds : List Int) (d : DeviceModel) (hd : d.id ∈ deviceIds) :
    (db.appsByDevice deviceIds).getD d.id [] = (db.summary d).applications := by
  refine (Grouping.getD_collect_join Reported.deviceId _ _ _ _ _ hd).trans ?_
  change List.filterMap (some ∘ _) _ = _
  rw [List.filterMap_eq_map]
  refine List.map_congr_left (fun r hr => ?_)
  obtain ⟨hr, hrd⟩ := List.mem_filter.1 hr
  exact congrArg (applicationReport r _) (db.appById_getElem? deviceIds r hr (by rw [of_decide_eq_true hrd]; exact hd))

theorem tenantById_getElem? (db : SummaryDb) (devices : List DeviceModel) (d : DeviceModel) (hd : d ∈ devices) :
    (db.tenantById devices)[d.tenantId]? = (db.summary d).tenant :=
  Grouping.getElem?_index_batch _ _ db.tenants.keys _ _ (List.mem_dedup.2 (List.mem_map_of_mem hd))

/-- What a device takes out of the maps, no later device would have found there. -/
theorem summaries_eq (tenants : HashMap Int TenantModel) : ∀ (devices : List DeviceModel)
    (osBy : HashMap Int (List OsReport)) (appsBy : HashMap Int (List ApplicationReport)),
    (devices.map DeviceModel.id).Nodup → summaries tenants devices osBy appsBy =
      devices.map (fun d => ⟨d, tenants[d.tenantId]?, osBy.getD d.id [], appsBy.getD d.id []⟩)
  | [], _, _, _ => rfl
  | device :: devices, osBy, appsBy, hnd => by
    rw [List.map_cons, List.nodup_cons] at hnd
    rw [summaries, summaries_eq tenants devices _ _ hnd.2, List.map_cons]
    refine congrArg (List.cons _) (List.map_congr_left (fun d hd => ?_))
    have hne : device.id ≠ d.id := fun h => hnd.1 (h ▸ List.mem_map_of_mem hd)
    rw [HashMap.getD_erase, HashMap.getD_erase, if_neg (by simpa using hne), if_neg (by simpa using hne)]

theorem found_perm (like : String → String → Bool) (db : SummaryDb) (deviceId groupId tenantId : Option Int)
    (uuidFilter serialNumberFilter : Option String) :
    (found like db deviceId groupId tenantId uuidFilter serialNumberFilter).Perm
      (db.devices.rows.filter (selectsDevice like deviceId groupId tenantId uuidFilter serialNumberFilter)) :=
  List.perm_insertionSort _ _

theorem nodup_found (like : String → String → Bool) (db : SummaryDb) (deviceId groupId tenantId : Option Int)
    (uuidFilter serialNumberFilter : Option String) :
    ((found like db deviceId groupId tenantId uuidFilter serialNumberFilter).map DeviceModel.id).Nodup :=
  ((found_perm like db deviceId groupId tenantId uuidFilter serialNumberFilter).map _).nodup_iff.2
    ((List.filter_sublist.map DeviceModel.id).nodup db.devices.keys)

theorem found_sorted (like : String → String → Bool) (db : SummaryDb) (deviceId groupId tenantId : Option Int)
    (uuidFilter serialNumberFilter : Option String) :
    (found like db deviceId groupId tenantId uuidFilter serialNumberFilter).Pairwise (fun a b => a.id < b.id) := by
  have : Std.Total (fun a b : DeviceModel => a.id ≤ b.id) := ⟨fun a b => le_total a.id b.id⟩
  have : IsTrans DeviceModel (fun a b => a.id ≤ b.id) := ⟨fun _ _ _ hab hbc => hab.trans hbc⟩
  have hle : (found like db deviceId groupId tenantId uuidFilter serialNumberFilter).Pairwise (fun a b => a.id ≤ b.id) :=
    List.pairwise_insertionSort _ _
  have hne := List.pairwise_map.1 (nodup_found like db deviceId groupId tenantId uuidFilter serialNumberFilter)
  exact hle.imp₂ (fun _ _ h hn => lt_of_le_of_ne h hn) hne

/-- **The batch is the page, each device with its own summary.** -/
theorem assembleDeviceSummary_eq (o : Overflow) (like : String → String → Bool) (db : SummaryDb)
    (deviceId groupId tenantId : Option Int) (uuidFilter serialNumberFilter : Option String) (page pageSize : UInt64) :
    assembleDeviceSummary o like db deviceId groupId tenantId uuidFilter serialNumberFilter page pageSize =
      (fetchPage o pageSize page (found like db deviceId groupId tenantId uuidFilter serialNumberFilter)).map
        (fun devices => (devices.map db.summary,
          (found like db deviceId groupId tenantId uuidFilter serialNumberFilter).length)) := by
  have hnd := nodup_found like db deviceId groupId tenantId uuidFilter serialNumberFilter
  unfold assembleDeviceSummary
  dsimp only
  generalize found like db deviceId groupId tenantId uuidFilter serialNumberFilter = rows at hnd ⊢
  cases hfetch : fetchPage o pageSize page rows with
  | none => rfl
  | some devices =>
    have hpage : (devices.map DeviceModel.id).Nodup := ((fetchPage_sublist hfetch).map DeviceModel.id).nodup hnd
    rw [Option.map_some, Option.map_some]
    split
    · rename_i h
      rw [List.isEmpty_iff.1 h]
      rfl
    · rw [summaries_eq _ _ _ _ hpage]
      refine congrArg (fun l => some (l, rows.length)) (List.map_congr_left (fun d hd => ?_))
      rw [db.tenantById_getElem? devices d hd, db.osByDevice_getD _ d (List.mem_map_of_mem hd),
        db.appsByDevice_getD _ d (List.mem_map_of_mem hd)]
      rfl

theorem getDeviceSummary_eq (o : Overflow) (like : String → String → Bool) (db : SummaryDb) (d : DeviceModel)
    (hd : d ∈ db.devices.rows) : getDeviceSummary o like db d.id = some (some (db.summary d)) := by
  have hone : found like db (some d.id) none none none none = [d] := by
    refine List.perm_singleton.1 ((found_perm like db (some d.id) none none none none).trans ?_)
    rw [← Grouping.filter_key_eq DeviceModel.id db.devices.rows db.devices.keys d hd]
    refine List.Perm.of_eq (List.filter_congr (fun r _ => ?_))
    simp [selectsDevice, eqIfGiven]
  rw [getDeviceSummary, assembleDeviceSummary_eq, hone, fetchPage_eq o 1 0 [d] (by decide) (by decide)]
  rfl

/-- The rows reported for a device keep their entries, as their foreign keys lead to rows. -/
theorem shows_summary (db : SummaryDb) (d : DeviceModel) (hd : d ∈ db.devices.rows) : db.Shows (db.summary d) where
  tenant := by
    obtain ⟨t, ht, hid⟩ := List.mem_map.1 (db.tenantRefs d hd)
    exact ⟨t, ht, hid, (Upserts.lookup_eq_some _ db.tenants.keys _ _).2 ⟨ht, hid⟩⟩
  osVersions := by
    refine Grouping.forall₂_filterMap _ (fun r hr => ?_)
    obtain ⟨v, hv, hid⟩ := List.mem_map.1 (db.reportedOs.refs r (List.mem_of_mem_filter hr)).1
    refine ⟨osReport r v, ?_, v, hv, hid, rfl⟩
    rw [(Upserts.lookup_eq_some _ db.osVersions.nodup_ids _ _).2 ⟨hv, hid⟩]
    rfl
  applications := by
    refine List.forall₂_map_right_iff.2 (List.forall₂_same.2 (fun r hr => ?_))
    obtain ⟨c, hc, hid⟩ := List.mem_map.1 (db.reportedApplications.refs r (List.mem_of_mem_filter hr)).1
    obtain ⟨a, ha, haid⟩ := List.mem_map.1 (db.applicationRefs c hc)
    refine ⟨c, hc, hid, a, ha, haid, ?_⟩
    dsimp only
    rw [(Upserts.lookup_eq_some _ db.applicationConfigs.nodup_ids _ _).2 ⟨hc, hid⟩, Option.bind_some,
      (Upserts.lookup_eq_some _ db.applications.keys _ _).2 ⟨ha, haid⟩]

/-- Whatever devices a page has, each is shown as it is when it is asked for by its id. -/
theorem shows_page (o : Overflow) (like : String → String → Bool) (db : SummaryDb) (deviceId groupId tenantId : Option Int)
    (uuidFilter serialNumberFilter : Option String) (page pageSize : UInt64) (devices : List DeviceModel)
    (hfetch : fetchPage o pageSize page (found like db deviceId groupId tenantId uuidFilter serialNumberFilter) =
      some devices) (s : DeviceSummary) (hs : s ∈ devices.map db.summary) :
    getDeviceSummary o like db s.device.id = some (some s) ∧ db.Shows s := by
  obtain ⟨d, hd, rfl⟩ := List.mem_map.1 hs
  have hmem : d ∈ db.devices.rows :=
    List.mem_of_mem_filter ((found_perm ..).mem_iff.1 ((fetchPage_sublist hfetch).subset hd))
  exact ⟨getDeviceSummary_eq o like db d hmem, db.shows_summary d hmem⟩

/-- The devices of a query are found in one order only. -/
theorem eq_found (like : String → String → Bool) (db : SummaryDb) (deviceId groupId tenantId : Option Int)
    (uuidFilter serialNumberFilter : Option String) (devices : List DeviceModel)
    (hperm : devices.Perm
      (db.devices.rows.filter (selectsDevice like deviceId groupId tenantId uuidFilter serialNumberFilter)))
    (hsorted : devices.Pairwise (fun a b => a.id < b.id)) :
    devices = found like db deviceId groupId tenantId uuidFilter serialNumberFilter := by
  refine List.Perm.eq_of_pairwise (fun a b _ _ hab hba => absurd (hab.trans hba) (lt_irrefl _)) hsorted (found_sorted ..) ?_
  exact hperm.trans (found_perm ..).symm

/-- **The batched summary agrees with the single one**: the page has the devices it stands for, in the order of their ids,
each with the summary it has when it is asked for by its id and with what it has reported itself. -/
def PageAgrees (o : Overflow) (like : String → String → Bool) (db : SummaryDb) (groupId tenantId : Option Int)
    (uuidFilter serialNumberFilter : Option String) (params : PageParams) : Prop :=
  ∃ summaries total, listDeviceSummaries o like db groupId tenantId uuidFilter serialNumberFilter params.toDbPage
      params.pageSize = some (summaries, total) ∧
    (∃ devices : List DeviceModel,
      devices.Perm (db.devices.rows.filter (selectsDevice like none groupId tenantId uuidFilter serialNumberFilter)) ∧
      devices.Pairwise (fun a b => a.id < b.id) ∧
      summaries.map DeviceSummary.device = devices.extract ((params.page.toNat - 1) * params.pageSize.toNat)
        (params.page.toNat * params.pageSize.toNat)) ∧
    ∀ s ∈ summaries, getDeviceSummary o like db s.device.id = some (some s) ∧ db.Shows s

/-- What a page says of its devices always agrees; what is left is which devices are fetched. -/
theorem pageAgrees_iff_fetched (o : Overflow) (like : String → String → Bool) (db : SummaryDb)
    (groupId tenantId : Option Int) (uuidFilter serialNumberFilter : Option String) (params : PageParams)
    (hpage : 1 ≤ params.page.toNat) : PageAgrees o like db groupId tenantId uuidFilter serialNumberFilter params ↔
      fetchPage o params.pageSize params.toDbPage (found like db none groupId tenantId uuidFilter serialNumberFilter) =
        some (Paging.page params.pageSize.toNat (params.page.toNat - 1)
          (found like db none groupId tenantId uuidFilter serialNumberFilter)) := by
  have hdevice : ∀ devices : List DeviceModel, (devices.map db.summary).map DeviceSummary.device = devices :=
    fun devices => by rw [List.map_map]; exact List.map_id _
  rw [Paging.page_eq_extract, Nat.sub_add_cancel hpage, PageAgrees, listDeviceSummaries, assembleDeviceSummary_eq]
  constructor
  · rintro ⟨summaries, total, hsome, ⟨devices, hperm, hsorted, hdev⟩, -⟩
    obtain ⟨fetched, hfetch, heq⟩ := Option.map_eq_some_iff.1 hsome
    obtain ⟨rfl, -⟩ := Prod.mk.inj heq
    rw [hdevice] at hdev
    rw [hfetch, ← eq_found like db none groupId tenantId uuidFilter serialNumberFilter devices hperm hsorted, hdev]
  · intro hfetch
    refine ⟨_, _, by rw [hfetch, Option.map_some], ⟨_, found_perm .., found_sorted .., hdevice _⟩, ?_⟩
    exact shows_page o like db none groupId tenantId uuidFilter serialNumberFilter _ _ _ hfetch

/-- A database with one device, which has reported nothing. -/
def single : SummaryDb where
  tenants := ⟨[⟨1, "default", none⟩], List.nodup_singleton _⟩
  devices := ⟨[⟨1, "00000000-0000-0000-0000-000000000001", none, "SN1", 1, none⟩], List.nodup_singleton _⟩
  osVersions := .empty _
  applications := ⟨[], List.nodup_nil⟩
  applicationConfigs := .empty _
  reportedOs := ⟨[], 1, List.nodup_nil, fun _ h => absurd h List.not_mem_nil⟩
  reportedApplications := ⟨[], 1, List.nodup_nil, fun _ h => absurd h List.not_mem_nil⟩
  tenantRefs := fun _ hd => List.mem_singleton.1 hd ▸ List.mem_singleton_self _
  applicationRefs := fun _ h => absurd h List.not_mem_nil

end SummaryDb
end Api
end ZeroDowntime
