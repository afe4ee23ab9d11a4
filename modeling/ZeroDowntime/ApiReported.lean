import Mathlib.Data.List.TakeWhile
import ZeroDowntime.ApiDevices
import ZeroDowntime.Upserts
/-!
# ApiReported — what a device reports, and what is then listed for it

`PUT /device/apps` upserts one row for each item of its body, each in a statement of its own; `PUT /device/os` upserts
one row.  The two tables differ only in what they report.  The listings of the rows are the current state of a device,
as the server has it.
-/
namespace ZeroDowntime
namespace Api

open Upserts (upsert lookup)

/-- A row of `reported_application_assignments` or `reported_os_assignments`: `reported` is the `application_config_id`
or the `os_version_id`. -/
structure Reported where
  id : Int
  reported : Int
  deviceId : Int
  updatedAt : Int
  deriving DecidableEq, Repr

def Reported.key (r : Reported) : Int × Int := (r.deviceId, r.reported)

/-- The table under its unique index and its foreign keys. -/
structure ReportedTable (reportable devices : List Int) where
  rows : List Reported
  next : Int
  keys : (rows.map Reported.key).Nodup
  refs : ∀ r ∈ rows, r.reported ∈ reportable ∧ r.deviceId ∈ devices

/-- What a statement is to report, the time it is built at, and its failure if it fails. -/
structure Report where
  reported : Int
  now : Int
  failure : Option DbErr
  deriving DecidableEq, Repr

namespace ReportedTable

variable {reportable devices : List Int}

/-- The values of an INSERT for a device. -/
def newRow (t : ReportedTable reportable devices) (deviceId : Int) (u : Report) : Reported :=
  ⟨t.next, u.reported, deviceId, u.now⟩

def refresh (u : Report) (r : Reported) : Reported := { r with updatedAt := u.now }

theorem key_refresh (u : Report) (r : Reported) : (refresh u r).key = r.key := rfl

/-- Whether the statement goes through: a row of the key is there to be updated, or the foreign keys hold. -/
def accepts (column : String) (t : ReportedTable reportable devices) (deviceId : Int) (u : Report) :
    Except DbErr Unit :=
  match u.failure with
  | some e => .error e
  | none =>
    if (deviceId, u.reported) ∈ t.rows.map Reported.key then .ok ()
    else checks [refers column reportable u.reported, refers "device_id" devices deviceId]

/-- A statement that goes through, as the conditions on its values alone. -/
def accepted (reportable devices : List Int) (deviceId : Int) (u : Report) : Bool :=
  u.failure.isNone && reportable.contains u.reported && devices.contains deviceId

theorem accepts_eq_ok (column : String) (t : ReportedTable reportable devices) (deviceId : Int) (u : Report) :
    t.accepts column deviceId u = .ok () ↔ accepted reportable devices deviceId u = true := by
  unfold accepts accepted
  cases u.failure with
  | some e => simp
  | none =>
    dsimp only
    split
    · rename_i h
      obtain ⟨r, hr, hk⟩ := List.mem_map.1 h
      obtain ⟨rfl, hrep⟩ := Prod.mk.inj hk
      obtain ⟨h1, h2⟩ := t.refs r hr
      simp [← hrep, h1, h2]
    · simp [refers]

def put (t : ReportedTable reportable devices) (deviceId : Int) (u : Report)
    (h : accepted reportable devices deviceId u = true) : ReportedTable reportable devices where
  rows := upsert Reported.key (refresh u) (t.newRow deviceId u) t.rows
  next := if (deviceId, u.reported) ∈ t.rows.map Reported.key then t.next else t.next + 1
  keys := Upserts.nodup_upsert (key_refresh u) _ _ t.keys
  refs := by
    simp only [accepted, Bool.and_eq_true, List.contains_iff_mem] at h
    have hkeep : ∀ r : Reported, r.reported ∈ reportable ∧ r.deviceId ∈ devices →
        (refresh u r).reported ∈ reportable ∧ (refresh u r).deviceId ∈ devices := fun _ hr => hr
    exact Upserts.forall_upsert hkeep (t.newRow deviceId u) ⟨h.1.2, h.2⟩ t.rows t.refs

/-- `Entity::insert(..).on_conflict(..).exec(db)` -/
def add (column : String) (t : ReportedTable reportable devices) (deviceId : Int) (u : Report) :
    Except DbErr Unit × ReportedTable reportable devices :=
  match h : t.accepts column deviceId u with
  | .error e => (.error e, t)
  | .ok _ => (.ok (), t.put deviceId u ((t.accepts_eq_ok column deviceId u).1 h))

theorem add_of_accepted (column : String) (t : ReportedTable reportable devices) (deviceId : Int) (u : Report)
    (h : accepted reportable devices deviceId u = true) : t.add column deviceId u = (.ok (), t.put deviceId u h) := by
  unfold add
  split
  · rename_i e he
    rw [(t.accepts_eq_ok column deviceId u).2 h] at he
    cases he
  · rfl

theorem add_of_refused (column : String) (t : ReportedTable reportable devices) (deviceId : Int) (u : Report)
    (h : accepted reportable devices deviceId u = false) : ∃ e, t.add column deviceId u = (.error e, t) := by
  unfold add
  split
  · rename_i e he
    exact ⟨e, rfl⟩
  · rename_i he
    rw [(t.accepts_eq_ok column deviceId u).1 he] at h
    cases h

/-- The loop of `apps_put_report`, over either table. -/
def addAll (column : String) (deviceId : Int) : List Report → ReportedTable reportable devices →
    Except DbErr Unit × ReportedTable reportable devices
  | [], t => (.ok (), t)
  | u :: us, t =>
    match t.add column deviceId u with
    | (.error e, t') => (.error e, t')
    | (.ok _, t') => addAll column deviceId us t'

/-- The statements that go through before the first that does not. -/
def done (reportable devices : List Int) (deviceId : Int) (us : List Report) : List Report :=
  us.takeWhile (accepted reportable devices deviceId)

/-- **A property of the table that each accepted statement passes on, the loop passes on**: it stops at the first
refused statement, and then answers with an error. -/
theorem addAll_induction (column : String) (deviceId : Int)
    (P : List Report → ReportedTable reportable devices → ReportedTable reportable devices → Prop)
    (hnil : ∀ t, P [] t t)
    (hcons : ∀ u us t t' h, P us (t.put deviceId u h) t' → P (u :: us) t t') : ∀ (us : List Report)
    (t : ReportedTable reportable devices), P (done reportable devices deviceId us) t (addAll column deviceId us t).2
  | [], t => hnil t
  | u :: us, t => by
    unfold done addAll
    cases h : accepted reportable devices deviceId u with
    | true =>
      rw [t.add_of_accepted column deviceId u h, List.takeWhile_cons_of_pos h]
      exact hcons u _ t _ h (addAll_induction column deviceId P hnil hcons us (t.put deviceId u h))
    | false =>
      obtain ⟨e, he⟩ := t.add_of_refused column deviceId u h
      rw [he, List.takeWhile_cons_of_neg (by simp [h])]
      exact hnil t

theorem addAll_eq_ok (column : String) (deviceId : Int) : ∀ (us : List Report) (t : ReportedTable reportable devices),
    (addAll column deviceId us t).1 = .ok () ↔ us.all (accepted reportable devices deviceId) = true
  | [], t => by simp [addAll]
  | u :: us, t => by
    unfold addAll
    cases h : accepted reportable devices deviceId u with
    | true => rw [t.add_of_accepted column deviceId u h, List.all_cons, h]; simpa using addAll_eq_ok column deviceId us _
    | false =>
      obtain ⟨e, he⟩ := t.add_of_refused column deviceId u h
      rw [he, List.all_cons, h]
      simp

/-! ## What the loop leaves in the table -/

/-- What is listed as reported by a device. -/
def reportedBy (t : ReportedTable reportable devices) (deviceId : Int) : List Int :=
  (t.rows.filter (fun r => decide (r.deviceId = deviceId))).map Reported.reported

/-- The rows of the other devices. -/
def others (t : ReportedTable reportable devices) (deviceId : Int) : List Reported :=
  t.rows.filter (fun r => decide (r.deviceId ≠ deviceId))

def timeOf (t : ReportedTable reportable devices) (deviceId id : Int) : Option Int :=
  (lookup Reported.key (deviceId, id) t.rows).map Reported.updatedAt

/-- The time of the last of the statements that report `id`. -/
def lastTime : List Report → Int → Option Int
  | [], _ => none
  | u :: us, id => (lastTime us id).or (if u.reported = id then some u.now else none)

theorem mem_reportedBy (t : ReportedTable reportable devices) (deviceId id : Int) :
    id ∈ t.reportedBy deviceId ↔ (deviceId, id) ∈ t.rows.map Reported.key := by
  unfold reportedBy
  simp only [List.mem_map, List.mem_filter, decide_eq_true_eq, Reported.key, Prod.mk.injEq]
  constructor
  · rintro ⟨r, ⟨hr, hd⟩, hid⟩
    exact ⟨r, hr, hd, hid⟩
  · rintro ⟨r, hr, hd, hid⟩
    exact ⟨r, ⟨hr, hd⟩, hid⟩

theorem mem_reportedBy_put (t : ReportedTable reportable devices) (deviceId : Int) (u : Report)
    (h : accepted reportable devices deviceId u = true) (id : Int) :
    id ∈ (t.put deviceId u h).reportedBy deviceId ↔ id ∈ t.reportedBy deviceId ∨ id = u.reported := by
  rw [mem_reportedBy, mem_reportedBy, put, Upserts.mem_keys_upsert (key_refresh u)]
  simp [newRow, Reported.key]

theorem others_put (t : ReportedTable reportable devices) (deviceId : Int) (u : Report)
    (h : accepted reportable devices deviceId u = true) : (t.put deviceId u h).others deviceId = t.others deviceId :=
  Upserts.filter_upsert (key_refresh u) (t.newRow deviceId u) t.rows (fun k => decide (k.1 ≠ deviceId)) (by
    simp [newRow, Reported.key])

theorem timeOf_put (t : ReportedTable reportable devices) (deviceId : Int) (u : Report)
    (h : accepted reportable devices deviceId u = true) (id : Int) : (t.put deviceId u h).timeOf deviceId id =
      (if u.reported = id then some u.now else none).or (t.timeOf deviceId id) := by
  unfold timeOf
  rw [put, Upserts.lookup_upsert (key_refresh u)]
  by_cases hid : u.reported = id
  · subst hid
    have hk : (deviceId, u.reported) = (t.newRow deviceId u).key := rfl
    rw [if_pos hk, if_pos rfl]
    cases lookup Reported.key (deviceId, u.reported) t.rows <;> rfl
  · have hk : ¬ (deviceId, id) = (t.newRow deviceId u).key := fun h => hid (Prod.mk.inj h).2.symm
    rw [if_neg hk, if_neg hid]
    rfl

theorem mem_reportedBy_addAll (column : String) (deviceId : Int) (us : List Report)
    (t : ReportedTable reportable devices) (id : Int) : id ∈ (addAll column deviceId us t).2.reportedBy deviceId ↔
      id ∈ t.reportedBy deviceId ∨ id ∈ (done reportable devices deviceId us).map Report.reported := by
  refine addAll_induction column deviceId (fun us t t' => id ∈ t'.reportedBy deviceId ↔
    id ∈ t.reportedBy deviceId ∨ id ∈ us.map Report.reported) (fun t => by simp) (fun u us t t' h ih => ?_) us t
  rw [ih, mem_reportedBy_put, List.map_cons, List.mem_cons, or_assoc]

theorem others_addAll (column : String) (deviceId : Int) (us : List Report) (t : ReportedTable reportable devices) :
    (addAll column deviceId us t).2.others deviceId = t.others deviceId :=
  addAll_induction column deviceId (fun _ t t' => t'.others deviceId = t.others deviceId) (fun _ => rfl)
    (fun u _ t _ h ih => ih.trans (t.others_put deviceId u h)) us t

theorem timeOf_addAll (column : String) (deviceId : Int) (us : List Report) (t : ReportedTable reportable devices)
    (id : Int) : (addAll column deviceId us t).2.timeOf deviceId id =
      (lastTime (done reportable devices deviceId us) id).or (t.timeOf deviceId id) := by
  refine addAll_induction column deviceId (fun us t t' => t'.timeOf deviceId id =
    (lastTime us id).or (t.timeOf deviceId id)) (fun t => by simp [lastTime]) (fun u us t t' h ih => ?_) us t
  rw [ih, timeOf_put, lastTime, Option.or_assoc]

theorem lastTime_isSome : ∀ (us : List Report) (id : Int), (lastTime us id).isSome = true ↔ id ∈ us.map Report.reported
  | [], id => by simp [lastTime]
  | u :: us, id => by
    rw [lastTime, Option.isSome_or, Bool.or_eq_true, lastTime_isSome us id, List.map_cons, List.mem_cons]
    by_cases h : u.reported = id
    · simp [h]
    · simp [h, Ne.symm h]

/-- A row as the statements of a device leave it. -/
def retime (deviceId : Int) (us : List Report) (r : Reported) : Reported :=
  if r.deviceId = deviceId then { r with updatedAt := (lastTime us r.reported).getD r.updatedAt } else r

theorem retime_cons (deviceId : Int) (u : Report) (us : List Report) (r : Reported) :
    retime deviceId us (if r.key = (deviceId, u.reported) then refresh u r else r) = retime deviceId (u :: us) r := by
  by_cases hd : r.deviceId = deviceId
  · by_cases hu : r.reported = u.reported
    · rw [if_pos (Prod.ext hd hu)]
      simp only [retime, refresh, hd, if_true, lastTime, hu]
      cases lastTime us u.reported <;> rfl
    · have hk : r.key ≠ (deviceId, u.reported) := fun h => hu (Prod.mk.inj h).2
      rw [if_neg hk]
      simp only [retime, hd, if_true, lastTime, if_neg (Ne.symm hu), Option.or_none]
  · have hk : r.key ≠ (deviceId, u.reported) := fun h => hd (Prod.mk.inj h).1
    rw [if_neg hk]
    simp [retime, hd]

/-- Statements that find their rows only change their times. -/
theorem rows_addAll_of_known (column : String) (deviceId : Int) (us : List Report)
    (t : ReportedTable reportable devices)
    (h : ∀ u ∈ done reportable devices deviceId us, u.reported ∈ t.reportedBy deviceId) :
    (addAll column deviceId us t).2.rows = t.rows.map (retime deviceId (done reportable devices deviceId us)) := by
  refine addAll_induction column deviceId (fun us t t' => (∀ u ∈ us, u.reported ∈ t.reportedBy deviceId) →
    t'.rows = t.rows.map (retime deviceId us)) (fun t _ => ?_) (fun u us t t' hu ih h => ?_) us t h
  · refine ((List.map_congr_left (fun r _ => ?_)).trans (List.map_id _)).symm
    simp [retime, lastTime]
  · have hknown : (deviceId, u.reported) ∈ t.rows.map Reported.key :=
      (t.mem_reportedBy deviceId u.reported).1 (h u List.mem_cons_self)
    have hput : (t.put deviceId u hu).rows =
        t.rows.map (fun r => if r.key = (deviceId, u.reported) then refresh u r else r) := if_pos hknown
    rw [ih (fun v hv => (t.mem_reportedBy_put deviceId u hu v.reported).2 (.inl (h v (List.mem_cons_of_mem _ hv)))),
      hput, List.map_map]
    exact List.map_congr_left (fun r _ => retime_cons deviceId u us r)

/-- **The table is as it was, exactly if each statement that went through found its row with the time that the last
such statement has given it.** -/
theorem rows_addAll_iff (column : String) (deviceId : Int) (us : List Report) (t : ReportedTable reportable devices) :
    (addAll column deviceId us t).2.rows = t.rows ↔ ∀ u ∈ done reportable devices deviceId us,
      t.timeOf deviceId u.reported = lastTime (done reportable devices deviceId us) u.reported := by
  constructor
  · intro hrows u hu
    obtain ⟨time, htime⟩ := Option.isSome_iff_exists.1
      ((lastTime_isSome (done reportable devices deviceId us) u.reported).2 (List.mem_map_of_mem hu))
    have h := timeOf_addAll column deviceId us t u.reported
    rw [htime, Option.some_or, timeOf, hrows] at h
    exact h.trans htime.symm
  · intro h
    have hknown : ∀ u ∈ done reportable devices deviceId us, u.reported ∈ t.reportedBy deviceId := by
      intro u hu
      rw [mem_reportedBy]
      by_contra hn
      have hnone : t.timeOf deviceId u.reported = none := by
        rw [timeOf, (Upserts.lookup_eq_none _ _).2 hn, Option.map_none]
      have hsome := (lastTime_isSome (done reportable devices deviceId us) u.reported).2 (List.mem_map_of_mem hu)
      rw [← h u hu, hnone] at hsome
      cases hsome
    rw [rows_addAll_of_known column deviceId us t hknown]
    refine (List.map_congr_left (fun r hr => ?_)).trans (List.map_id _)
    show retime deviceId _ r = r
    unfold retime
    split
    · rename_i hd
      cases hl : lastTime (done reportable devices deviceId us) r.reported with
      | none => rfl
      | some time =>
        have hm := (lastTime_isSome (done reportable devices deviceId us) r.reported).1 (by rw [hl]; rfl)
        obtain ⟨u, hu, hur⟩ := List.mem_map.1 hm
        have ht := h u hu
        rw [hur, hl, timeOf, (Upserts.lookup_eq_some t.rows t.keys (deviceId, r.reported) r).2 ⟨hr, by rw [← hd]; rfl⟩,
          Option.map_some, Option.some.injEq] at ht
        rw [Option.getD_some, ← ht]
    · rfl

end ReportedTable

section Endpoints

variable {reportable devices : List Int}

def addReportedApplicationAssignment (t : ReportedTable reportable devices) (u : Report) (deviceId : Int) :
    Except DbErr Unit × ReportedTable reportable devices := t.add "application_config_id" deviceId u

def addReportedOsAssignment (t : ReportedTable reportable devices) (u : Report) (deviceId : Int) :
    Except DbErr Unit × ReportedTable reportable devices := t.add "os_version_id" deviceId u

def appsPutReport (deviceId : Int) : List Report → ReportedTable reportable devices →
    Except DbErr Unit × ReportedTable reportable devices
  | [], t => (.ok (), t)
  | u :: us, t =>
    match addReportedApplicationAssignment t u deviceId with
    | (.error e, t') => (.error e, t')
    | (.ok _, t') => appsPutReport deviceId us t'

def osPutReport (deviceId : Int) (u : Report) (t : ReportedTable reportable devices) :
    Except DbErr Unit × ReportedTable reportable devices := addReportedOsAssignment t u deviceId

/-- The status a report is answered with. -/
def putStatus : Except DbErr Unit → StatusCode
  | .ok _ => .created
  | .error _ => .internalServerError

/-- `PUT /device/apps`, by the device the extractor has found. -/
def device.apps.put (deviceId : Int) (body : List Report) (t : ReportedTable reportable devices) :
    StatusCode × ReportedTable reportable devices :=
  ((putStatus (appsPutReport deviceId body t).1), (appsPutReport deviceId body t).2)

/-- `PUT /device/os` -/
def device.os.put (deviceId : Int) (body : Report) (t : ReportedTable reportable devices) :
    StatusCode × ReportedTable reportable devices :=
  ((putStatus (osPutReport deviceId body t).1), (osPutReport deviceId body t).2)

theorem appsPutReport_eq (deviceId : Int) : ∀ (us : List Report) (t : ReportedTable reportable devices),
    appsPutReport deviceId us t = ReportedTable.addAll "application_config_id" deviceId us t
  | [], _ => rfl
  | u :: us, t => by
    unfold appsPutReport ReportedTable.addAll addReportedApplicationAssignment
    split
    · rfl
    · exact appsPutReport_eq deviceId us _

theorem osPutReport_eq (deviceId : Int) (u : Report) (t : ReportedTable reportable devices) :
    osPutReport deviceId u t = ReportedTable.addAll "os_version_id" deviceId [u] t := by
  unfold osPutReport addReportedOsAssignment ReportedTable.addAll
  split
  · rename_i he
    exact he
  · rename_i he
    rw [he]
    rfl

end Endpoints

/-! ## When a report replaces what was reported before -/

open ReportedTable (accepted done lastTime addAll)

variable {reportable devices : List Int}

/-- What a report is for: a successful one leaves the device with `reported` and nothing else, a failed one changes
nothing, and neither touches another device. -/
structure ReplacesReported (deviceId : Int) (reported : List Int) (t : ReportedTable reportable devices)
    (answer : StatusCode × ReportedTable reportable devices) : Prop where
  replaced : answer.1 = .created → ∀ id, id ∈ answer.2.reportedBy deviceId ↔ id ∈ reported
  restored : answer.1 ≠ .created → answer.2.rows = t.rows
  others : answer.2.others deviceId = t.others deviceId

theorem putStatus_eq_created (r : Except DbErr Unit) : putStatus r = .created ↔ r = .ok () := by
  cases r <;> simp [putStatus]

/-- The loop replaces what was reported, exactly if it goes through and nothing else was reported, or it stops where it
has not changed the table yet. -/
theorem addAll_replaces_iff (column : String) (deviceId : Int) (us : List Report)
    (t : ReportedTable reportable devices) :
    ReplacesReported deviceId (us.map Report.reported) t
        (putStatus (addAll column deviceId us t).1, (addAll column deviceId us t).2) ↔
      (us.all (accepted reportable devices deviceId) = true →
        ∀ id ∈ t.reportedBy deviceId, id ∈ us.map Report.reported) ∧
      (us.all (accepted reportable devices deviceId) = false → ∀ u ∈ done reportable devices deviceId us,
        t.timeOf deviceId u.reported = lastTime (done reportable devices deviceId us) u.reported) := by
  have hok : putStatus (addAll column deviceId us t).1 = .created ↔
      us.all (accepted reportable devices deviceId) = true :=
    (putStatus_eq_created _).trans (ReportedTable.addAll_eq_ok column deviceId us t)
  have hdone : us.all (accepted reportable devices deviceId) = true → done reportable devices deviceId us = us := by
    intro h
    exact List.takeWhile_eq_self_iff.2 (List.all_eq_true.1 h)
  have hmem := ReportedTable.mem_reportedBy_addAll column deviceId us t
  constructor
  · intro h
    refine ⟨fun hall id hid => ?_, fun hall => ?_⟩
    · exact (h.replaced (hok.2 hall) id).1 ((hmem id).2 (.inl hid))
    · have hne : putStatus (addAll column deviceId us t).1 ≠ .created := fun hc => by
        rw [hok.1 hc] at hall
        cases hall
      exact (ReportedTable.rows_addAll_iff column deviceId us t).1 (h.restored hne)
  · rintro ⟨hall, hsome⟩
    refine ⟨fun hc id => ?_, fun hne => ?_, ReportedTable.others_addAll column deviceId us t⟩
    · have h := hok.1 hc
      refine (hmem id).trans ?_
      rw [hdone h]
      exact or_iff_right_of_imp (hall h id)
    · refine (ReportedTable.rows_addAll_iff column deviceId us t).2 (hsome ?_)
      exact Bool.eq_false_iff.2 (fun h => hne (hok.2 h))

/-- **A device's report replaces what it has reported before**, for the applications exactly if the earlier ones are in
the body and, where a statement is refused, those before it have left the table as it was; for the OS version exactly if
no other was reported. -/
theorem report_replaces_iff (deviceId : Int) (body : List Report) (apps : ReportedTable reportable devices)
    (version : Report) {versions : List Int} (os : ReportedTable versions devices) :
    (ReplacesReported deviceId (body.map Report.reported) apps (device.apps.put deviceId body apps) ↔
      (body.all (accepted reportable devices deviceId) = true →
        ∀ id ∈ apps.reportedBy deviceId, id ∈ body.map Report.reported) ∧
      (body.all (accepted reportable devices deviceId) = false → ∀ u ∈ done reportable devices deviceId body,
        apps.timeOf deviceId u.reported = lastTime (done reportable devices deviceId body) u.reported)) ∧
    (ReplacesReported deviceId [version.reported] os (device.os.put deviceId version os) ↔
      (accepted versions devices deviceId version = true → ∀ id ∈ os.reportedBy deviceId, id = version.reported)) := by
  constructor
  · unfold device.apps.put
    rw [appsPutReport_eq]
    exact addAll_replaces_iff "application_config_id" deviceId body apps
  · unfold device.os.put
    rw [osPutReport_eq]
    refine (addAll_replaces_iff "os_version_id" deviceId [version] os).trans ?_
    simp only [List.all_cons, List.all_nil, Bool.and_true, List.map_cons, List.map_nil, List.mem_singleton]
    refine and_iff_left_of_imp (fun _ h u hu => ?_)
    rw [done, List.takeWhile_cons_of_neg (by simp [h])] at hu
    cases hu

/-- Device 7 runs configuration 1 and OS version 1, as it has reported. -/
def reportedOne : ReportedTable [1, 2] [7] := ⟨[⟨1, 1, 7, 100⟩], 2, by decide, by decide⟩

/-- Now it runs configuration 2 and OS version 2; or a later item of its body is unknown. -/
theorem earlier_report_stays :
    device.apps.put 7 [⟨2, 200, none⟩] reportedOne |>.2.reportedBy 7 = [1, 2] ∧
    ¬ ReplacesReported 7 [2] reportedOne (device.apps.put 7 [⟨2, 200, none⟩] reportedOne) ∧
    ¬ ReplacesReported 7 [2] reportedOne (device.os.put 7 ⟨2, 200, none⟩ reportedOne) ∧
    ¬ ReplacesReported 7 [2, 99] reportedOne (device.apps.put 7 [⟨2, 200, none⟩, ⟨99, 200, none⟩] reportedOne) :=
  ⟨by decide, fun h => absurd ((h.replaced (by decide) 1).1 (by decide)) (by decide),
    fun h => absurd ((h.replaced (by decide) 1).1 (by decide)) (by decide),
    fun h => absurd (h.restored (by decide)) (by decide)⟩

end Api
end ZeroDowntime
