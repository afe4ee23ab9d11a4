import ZeroDowntime.ApiIntegrity
/-!
# ApiDeletable — what a DELETE of a device, a group or an application depends on

The rows of the versioned tables are never removed, retired or not, and the ping of a device never is.  So what one of
them has referred to once stays for good; a device's reports can be deleted and its group can be left.
-/
namespace ZeroDowntime
namespace Api
namespace Store

open Versioned (Row Table)

/-- A versioned row, active or not, or a ping is for the device. -/
def DeviceUsed (s : Store) (id : Int) : Prop :=
  (∃ r ∈ s.applicationConfigs.rows, r.data.deviceId = some id) ∨
  (∃ r ∈ s.applicationAssignments.rows, r.data.deviceId = some id) ∨
  (∃ r ∈ s.osAssignments.rows, r.data.deviceId = some id) ∨ ∃ p ∈ s.pings.rows, p.deviceId = id

/-- A versioned row, active or not, is for the group. -/
def GroupUsed (s : Store) (id : Int) : Prop :=
  (∃ r ∈ s.applicationConfigs.rows, r.data.groupId = some id) ∨
  (∃ r ∈ s.applicationAssignments.rows, r.data.groupId = some id) ∨
  ∃ r ∈ s.osAssignments.rows, r.data.groupId = some id

def ApplicationUsed (s : Store) (id : Int) : Prop := ∃ r ∈ s.applicationConfigs.rows, r.data.applicationId = id

/-! ## Once used, always used -/

theorem mem_pingKeys_exec (be : Backend) (s : Store) (c : StoreCall) (i : Int)
    (h : i ∈ s.pings.rows.map PingModel.deviceId) : i ∈ (s.exec be c).pings.rows.map PingModel.deviceId := by
  have hput : ∀ (d now : Int) (u : Option Int), i ∈ (putPing s.pings d now u).rows.map PingModel.deviceId :=
    fun d now u => (Upserts.mem_keys_upsert (deviceId_refreshPing now u) _ _ _).2 (.inl h)
  cases c with
  | upsertPing d now u =>
    show i ∈ (addPing s.devices.keys s.pings d now u).2.rows.map PingModel.deviceId
    unfold addPing
    split
    · exact hput d now u
    · split
      · exact h
      · exact hput d now u
  | versioned c => cases c <;> exact h
  | _ => exact h

theorem mem_pingKeys_run (be : Backend) (i : Int) : ∀ (calls : List StoreCall) (s : Store),
    i ∈ s.pings.rows.map PingModel.deviceId → i ∈ (run be calls s).pings.rows.map PingModel.deviceId
  | [], _, h => h
  | c :: calls, s, h => mem_pingKeys_run be i calls _ (mem_pingKeys_exec be s c i h)

/-- A row of a table is, with its payload, in the table it has grown into. -/
theorem exists_grown {α : Type} {t t' : Table α} (h : t.Grows t') {p : α → Prop} :
    (∃ r ∈ t.rows, p r.data) → ∃ r ∈ t'.rows, p r.data := by
  rintro ⟨r, hr, hp⟩
  obtain ⟨r', hr', hl⟩ := h r hr
  exact ⟨r', hr', hl.data ▸ hp⟩

section Kept

variable (be : Backend) (calls later : List StoreCall) (id : Int)

theorem deviceUsed_later (h : (stored be calls).DeviceUsed id) : (stored be (calls ++ later)).DeviceUsed id := by
  have hg := stored_grows be calls later
  refine h.imp (exists_grown hg.applicationConfigs (p := fun a => a.deviceId = some id)) (Or.imp
    (exists_grown hg.applicationAssignments (p := fun a => a.deviceId = some id)) (Or.imp
    (exists_grown hg.osAssignments (p := fun a => a.deviceId = some id)) (fun hp => ?_)))
  refine List.mem_map.1 ?_
  rw [stored, run_append]
  exact mem_pingKeys_run be id later _ (List.mem_map.2 hp)

theorem groupUsed_later (h : (stored be calls).GroupUsed id) : (stored be (calls ++ later)).GroupUsed id := by
  have hg := stored_grows be calls later
  exact h.imp (exists_grown hg.applicationConfigs (p := fun a => a.groupId = some id)) (Or.imp
    (exists_grown hg.applicationAssignments (p := fun a => a.groupId = some id))
    (exists_grown hg.osAssignments (p := fun a => a.groupId = some id)))

theorem applicationUsed_later (h : (stored be calls).ApplicationUsed id) :
    (stored be (calls ++ later)).ApplicationUsed id :=
  exists_grown (stored_grows be calls later).applicationConfigs (p := fun a => a.applicationId = id) h

end Kept

/-! ## What is used is there, and its DELETE is refused -/

theorem Integral.device_mem {s : Store} (hi : s.Integral) {id : Int} (h : s.DeviceUsed id) : id ∈ s.devices.keys := by
  rcases h with ⟨r, hr, hd⟩ | ⟨r, hr, hd⟩ | ⟨r, hr, hd⟩ | ⟨p, hp, rfl⟩
  · exact (hi.applicationConfigs r hr).2.1 id hd
  · exact (hi.applicationAssignments r hr).2.1 id hd
  · exact (hi.osAssignments r hr).2.1 id hd
  · exact hi.pings p hp

theorem Integral.group_mem {s : Store} (hi : s.Integral) {id : Int} (h : s.GroupUsed id) : id ∈ s.groups.keys := by
  rcases h with ⟨r, hr, hg⟩ | ⟨r, hr, hg⟩ | ⟨r, hr, hg⟩
  · exact (hi.applicationConfigs r hr).2.2 id hg
  · exact (hi.applicationAssignments r hr).2.2 id hg
  · exact (hi.osAssignments r hr).2.2 id hg

theorem Integral.application_mem {s : Store} (hi : s.Integral) {id : Int} (h : s.ApplicationUsed id) :
    id ∈ s.applications.keys := by
  obtain ⟨r, hr, rfl⟩ := h
  exact (hi.applicationConfigs r hr).1

theorem heldDevice_of_used {s : Store} {id : Int} (h : s.DeviceUsed id) : ∃ e, s.heldDevice id = .error e := by
  cases hh : s.heldDevice id with
  | error e => exact ⟨e, rfl⟩
  | ok =>
    obtain ⟨hc, ha, ho, -, -, hp⟩ := (s.heldDevice_eq_ok id).1 hh
    rcases h with ⟨r, hr, hd⟩ | ⟨r, hr, hd⟩ | ⟨r, hr, hd⟩ | ⟨p, hm, hd⟩
    · exact absurd hd (hc r hr)
    · exact absurd hd (ha r hr)
    · exact absurd hd (ho r hr)
    · exact absurd hd (hp p hm)

theorem heldGroup_of_used {s : Store} {id : Int} (h : s.GroupUsed id) : ∃ e, s.heldGroup id = .error e := by
  cases hh : s.heldGroup id with
  | error e => exact ⟨e, rfl⟩
  | ok =>
    obtain ⟨-, hc, ha, ho⟩ := (s.heldGroup_eq_ok id).1 hh
    rcases h with ⟨r, hr, hg⟩ | ⟨r, hr, hg⟩ | ⟨r, hr, hg⟩
    · exact absurd hg (hc r hr)
    · exact absurd hg (ha r hr)
    · exact absurd hg (ho r hr)

theorem heldApplication_of_used {s : Store} {id : Int} (h : s.ApplicationUsed id) :
    ∃ e, s.heldApplication id = .error e := by
  cases hh : s.heldApplication id with
  | error e => exact ⟨e, rfl⟩
  | ok =>
    obtain ⟨r, hr, ha⟩ := h
    exact absurd ha ((s.heldApplication_eq_ok id).1 hh r hr)

theorem deleteRow_held {α : Type} {key : α → Int} (t : Serials.Table α key) (i : Int) (held : Except DbErr Unit)
    (hi : i ∈ t.keys) (e : DbErr) (h : held = .error e) : deleteRow t i held = (.error e, t) := by
  unfold deleteRow
  rw [if_pos hi, h]

theorem deleteDevice_used {s : Store} (hi : s.Integral) {id : Int} (h : s.DeviceUsed id) :
    ∃ e, s.deleteDevice id = (.error e, s) := by
  obtain ⟨e, he⟩ := heldDevice_of_used h
  refine ⟨e, ?_⟩
  unfold deleteDevice DeviceTable.deleteDevice
  rw [if_pos (hi.device_mem h), he]

theorem deleteGroup_used {s : Store} (hi : s.Integral) {id : Int} (h : s.GroupUsed id) :
    ∃ e, s.deleteGroup id = (.error e, s) := by
  obtain ⟨e, he⟩ := heldGroup_of_used h
  refine ⟨e, ?_⟩
  unfold deleteGroup
  rw [deleteRow_held s.groups id _ (hi.group_mem h) e he]

theorem deleteApplication_used {s : Store} (hi : s.Integral) {id : Int} (h : s.ApplicationUsed id) :
    ∃ e, s.deleteApplication id = (.error e, s) := by
  obtain ⟨e, he⟩ := heldApplication_of_used h
  refine ⟨e, ?_⟩
  unfold deleteApplication
  rw [deleteRow_held s.applications id _ (hi.application_mem h) e he]

/-! ## What is not used can be deleted -/

theorem deleteRow_free {α : Type} {key : α → Int} (t : Serials.Table α key) (i : Int) :
    (deleteRow t i (.ok ())).2 = t.remove i := by
  unfold deleteRow
  split
  · rfl
  · exact (t.remove_of_notMem i ‹_›).symm

/-- A PUT of the device as it is, but in no group. -/
def leaveGroup (d : DeviceModel) : StoreCall := .updateDevice d.id d.uuid d.publicKey d.serialNumber d.tenantId none

theorem exec_leaveGroup (be : Backend) {s : Store} (hi : s.Integral) {d : DeviceModel} (hd : d ∈ s.devices.rows) :
    ∃ t, s.exec be (leaveGroup d) = { s with devices := t } ∧
      ∀ r, r ∈ t.rows ↔ (r ∈ s.devices.rows ∧ r.id ≠ d.id) ∨ r = { d with groupId := none } := by
  have hfree : s.devices.uuidTaken { d with groupId := none } = false :=
    (s.devices.uuidTaken_eq_false _).2 fun r hr hu => by
      have he : r = d := List.inj_on_of_nodup_map s.devices.uuids hr hd hu
      rw [he]
  have hsave : s.devices.save s.tenants.keys s.groups.keys { d with groupId := none } =
      (.ok { d with groupId := none }, s.devices.put { d with groupId := none } hfree) := by
    unfold DeviceTable.save
    have hc : checks [refers "tenant_id" s.tenants.keys d.tenantId, refersOpt "group_id" s.groups.keys none] = .ok () := by
      simp only [checks_eq_ok, List.forall_mem_cons, refers, refersOpt, List.contains_iff_mem]
      exact ⟨(hi.devices d hd).1, rfl, fun _ h => absurd h List.not_mem_nil⟩
    rw [dif_pos hfree, hc]
  have hid : d.id ∈ s.devices.keys := List.mem_map_of_mem hd
  refine ⟨s.devices.put { d with groupId := none } hfree, ?_, fun r => s.devices.mem_put _ hfree hid r⟩
  show (s.updateDevice d.id d.uuid d.publicKey d.serialNumber d.tenantId none).2 = _
  unfold updateDevice DeviceTable.updateDevice
  rw [(s.devices.getDevice_eq_some d.id d).2 ⟨hd, rfl⟩]
  show { s with devices := (s.devices.save s.tenants.keys s.groups.keys { d with groupId := none }).2 } = _
  rw [hsave]

theorem run_leaveGroup (be : Backend) : ∀ (ds : List DeviceModel) (s : Store), s.Integral → s.db.Sound →
    (ds.map DeviceModel.id).Nodup → (∀ d ∈ ds, d ∈ s.devices.rows) →
    ∃ t, run be (ds.map leaveGroup) s = { s with devices := t } ∧
      ∀ r ∈ t.rows, r.groupId = none ∨ (r ∈ s.devices.rows ∧ r.id ∉ ds.map DeviceModel.id)
  | [], s, _, _, _, _ => ⟨s.devices, rfl, fun r hr => .inr ⟨hr, List.not_mem_nil⟩⟩
  | d :: ds, s, hi, hs, hnd, hall => by
    obtain ⟨hne, hnd⟩ := List.nodup_cons.1 hnd
    obtain ⟨t, ht, hmem⟩ := exec_leaveGroup be hi (hall d List.mem_cons_self)
    have hi' := integral_exec be s hi hs (leaveGroup d)
    have hs' : (s.exec be (leaveGroup d)).db.Sound := exec_seen be s hi hs _ ▸ exec_sound be s.db hs _
    rw [ht] at hi' hs'
    obtain ⟨t', ht', hmem'⟩ := run_leaveGroup be ds { s with devices := t } hi' hs' hnd (fun d' hd' =>
      (hmem d').2 (.inl ⟨hall d' (List.mem_cons_of_mem _ hd'), fun he => hne (he ▸ List.mem_map_of_mem hd')⟩))
    refine ⟨t', ?_, fun r hr => (hmem' r hr).elim .inl (fun ⟨hr, hni⟩ => ?_)⟩
    · show run be (ds.map leaveGroup) (s.exec be (leaveGroup d)) = _
      rw [ht, ht']
    · rcases (hmem r).1 hr with ⟨hr, hid⟩ | rfl
      · exact .inr ⟨hr, fun hin => (List.mem_cons.1 hin).elim hid hni⟩
      · exact .inl rfl

theorem exists_deleteGroup (be : Backend) {s : Store} (hi : s.Integral) (hs : s.db.Sound) {id : Int}
    (h : ¬ s.GroupUsed id) : ∃ later, id ∉ (run be later s).groups.keys := by
  let ds := s.devices.rows.filter (fun d => decide (d.groupId = some id))
  obtain ⟨t, ht, hmem⟩ := run_leaveGroup be ds s hi hs ((List.filter_sublist.map _).nodup s.devices.nodup_keys)
    (fun d hd => (List.mem_filter.1 hd).1)
  refine ⟨ds.map leaveGroup ++ [.deleteGroup id], ?_⟩
  have hfree : heldGroup { s with devices := t } id = .ok () := by
    refine (heldGroup_eq_ok _ id).2 ⟨fun d hd hg => ?_, fun r hr hg => h (.inl ⟨r, hr, hg⟩),
      fun r hr hg => h (.inr (.inl ⟨r, hr, hg⟩)), fun r hr hg => h (.inr (.inr ⟨r, hr, hg⟩))⟩
    rcases hmem d hd with hn | ⟨hr, hni⟩
    · rw [hn] at hg
      exact Option.some_ne_none _ hg.symm
    · exact hni (List.mem_map_of_mem (List.mem_filter.2 ⟨hr, decide_eq_true hg⟩))
  rw [run_append, ht]
  show id ∉ (deleteRow s.groups id (heldGroup { s with devices := t } id)).2.keys
  rw [hfree, deleteRow_free, Serials.Table.mem_keys_remove]
  exact fun hin => hin.2 rfl

theorem run_deleteReportedApplications (be : Backend) : ∀ (ids : List Int) (s : Store),
    ∃ t, run be (ids.map .deleteReportedApplicationAssignment) s = { s with reportedApplicationAssignments := t } ∧
      ∀ r ∈ t.rows, r ∈ s.reportedApplicationAssignments.rows ∧ r.id ∉ ids
  | [], s => ⟨_, rfl, fun _ hr => ⟨hr, List.not_mem_nil⟩⟩
  | i :: ids, s => by
    have hstep : s.exec be (.deleteReportedApplicationAssignment i) =
        { s with reportedApplicationAssignments := s.reportedApplicationAssignments.remove i } := by
      show { s with reportedApplicationAssignments := (deleteRow s.reportedApplicationAssignments i (.ok ())).2 } = _
      rw [deleteRow_free]
    obtain ⟨t, ht, hmem⟩ := run_deleteReportedApplications be ids (s.exec be (.deleteReportedApplicationAssignment i))
    refine ⟨t, ht.trans (by rw [hstep]), fun r hr => ?_⟩
    rw [hstep] at hmem
    obtain ⟨hr', hni⟩ := hmem r hr
    obtain ⟨hr', hid⟩ := List.mem_filter.1 hr'
    have hne : r.id ≠ i := by simpa using hid
    exact ⟨hr', fun hin => (List.mem_cons.1 hin).elim hne hni⟩

theorem run_deleteReportedOs (be : Backend) : ∀ (ids : List Int) (s : Store),
    ∃ t, run be (ids.map .deleteReportedOsAssignment) s = { s with reportedOsAssignments := t } ∧
      ∀ r ∈ t.rows, r ∈ s.reportedOsAssignments.rows ∧ r.id ∉ ids
  | [], s => ⟨_, rfl, fun _ hr => ⟨hr, List.not_mem_nil⟩⟩
  | i :: ids, s => by
    have hstep : s.exec be (.deleteReportedOsAssignment i) =
        { s with reportedOsAssignments := s.reportedOsAssignments.remove i } := by
      show { s with reportedOsAssignments := (deleteRow s.reportedOsAssignments i (.ok ())).2 } = _
      rw [deleteRow_free]
    obtain ⟨t, ht, hmem⟩ := run_deleteReportedOs be ids (s.exec be (.deleteReportedOsAssignment i))
    refine ⟨t, ht.trans (by rw [hstep]), fun r hr => ?_⟩
    rw [hstep] at hmem
    obtain ⟨hr', hni⟩ := hmem r hr
    obtain ⟨hr', hid⟩ := List.mem_filter.1 hr'
    have hne : r.id ≠ i := by simpa using hid
    exact ⟨hr', fun hin => (List.mem_cons.1 hin).elim hne hni⟩

theorem exists_deleteDevice (be : Backend) {s : Store} {id : Int} (h : ¬ s.DeviceUsed id) :
    ∃ later, id ∉ (run be later s).devices.keys := by
  let mine (rows : List Reported) : List Int := (rows.filter (fun r => decide (r.deviceId = id))).map Reported.id
  obtain ⟨t, ht, hmem⟩ := run_deleteReportedApplications be (mine s.reportedApplicationAssignments.rows) s
  obtain ⟨t', ht', hmem'⟩ := run_deleteReportedOs be (mine s.reportedOsAssignments.rows)
    { s with reportedApplicationAssignments := t }
  refine ⟨(mine s.reportedApplicationAssignments.rows).map .deleteReportedApplicationAssignment ++
    ((mine s.reportedOsAssignments.rows).map .deleteReportedOsAssignment ++ [.deleteDevice id]), ?_⟩
  rw [run_append, ht, run_append, ht']
  have hnone : ∀ {r : Reported} {rows : List Reported}, r ∈ rows → r.id ∉ mine rows → r.deviceId ≠ id := fun hr hni he =>
    hni (List.mem_map_of_mem (List.mem_filter.2 ⟨hr, decide_eq_true he⟩))
  have hfree : heldDevice { s with reportedApplicationAssignments := t, reportedOsAssignments := t' } id = .ok () :=
    (heldDevice_eq_ok _ id).2 ⟨fun r hr hd => h (.inl ⟨r, hr, hd⟩), fun r hr hd => h (.inr (.inl ⟨r, hr, hd⟩)),
      fun r hr hd => h (.inr (.inr (.inl ⟨r, hr, hd⟩))), fun r hr => hnone (hmem r hr).1 (hmem r hr).2,
      fun r hr => hnone (hmem' r hr).1 (hmem' r hr).2, fun p hp hd => h (.inr (.inr (.inr ⟨p, hp, hd⟩)))⟩
  show id ∉ (s.devices.deleteDevice id
    (heldDevice { s with reportedApplicationAssignments := t, reportedOsAssignments := t' } id)).2.keys
  unfold DeviceTable.deleteDevice
  split
  · rw [hfree]
    exact fun hin => ((s.devices.mem_keys_remove id id).1 hin).2 rfl
  · exact ‹_›

theorem exists_deleteApplication (be : Backend) {s : Store} {id : Int} (h : ¬ s.ApplicationUsed id) :
    ∃ later, id ∉ (run be later s).applications.keys := by
  refine ⟨[.deleteApplication id], ?_⟩
  have hfree : s.heldApplication id = .ok () := (s.heldApplication_eq_ok id).2 fun r hr ha => h ⟨r, hr, ha⟩
  show id ∉ (deleteRow s.applications id (s.heldApplication id)).2.keys
  rw [hfree, deleteRow_free, Serials.Table.mem_keys_remove]
  exact fun hin => hin.2 rfl

/-! ## The history decides -/

/-- What stays used, is there and refused while it is used, and can be removed while it is not. -/
theorem history_decides (be : Backend) (calls : List StoreCall) (Used There Refused : Store → Prop)
    (hstays : ∀ later, Used (stored be calls) → Used (stored be (calls ++ later)))
    (hthere : ∀ s : Store, s.Integral → Used s → There s) (hrefused : ∀ s : Store, s.Integral → Used s → Refused s)
    (hfree : ¬ Used (stored be calls) → ∃ later, ¬ There (run be later (stored be calls))) :
    ((∃ later, ¬ There (stored be (calls ++ later))) ↔ ¬ Used (stored be calls)) ∧
      (Used (stored be calls) → ∀ later, There (stored be (calls ++ later)) ∧ Refused (stored be (calls ++ later))) := by
  have hi := stored_integral be
  refine ⟨⟨?_, fun h => ?_⟩, fun h later => ⟨hthere _ (hi _) (hstays later h), hrefused _ (hi _) (hstays later h)⟩⟩
  · rintro ⟨later, hgone⟩ hused
    exact hgone (hthere _ (hi _) (hstays later hused))
  · obtain ⟨later, hgone⟩ := hfree h
    exact ⟨later, by rwa [stored, run_append]⟩

/-- **A device can still be got rid of exactly if no configuration or assignment, retired ones included, was ever made for
it and it has never pinged**: otherwise it stays whatever is called, and every DELETE of it is refused and changes
nothing. -/
theorem device_deletable_iff (be : Backend) (calls : List StoreCall) (id : Int) :
    ((∃ later, id ∉ (stored be (calls ++ later)).devices.keys) ↔ ¬ (stored be calls).DeviceUsed id) ∧
    ((stored be calls).DeviceUsed id → ∀ later, id ∈ (stored be (calls ++ later)).devices.keys ∧
      ∃ e, (stored be (calls ++ later)).deleteDevice id = (.error e, stored be (calls ++ later))) :=
  history_decides be calls (fun s => s.DeviceUsed id) (fun s => id ∈ s.devices.keys)
    (fun s => ∃ e, s.deleteDevice id = (.error e, s)) (fun later => deviceUsed_later be calls later id)
    (fun _ hi => hi.device_mem) (fun _ hi => deleteDevice_used hi) (exists_deleteDevice be)

/-- **A group can still be got rid of exactly if no configuration or assignment, retired ones included, was ever made for
it**: its devices can leave it. -/
theorem group_deletable_iff (be : Backend) (calls : List StoreCall) (id : Int) :
    ((∃ later, id ∉ (stored be (calls ++ later)).groups.keys) ↔ ¬ (stored be calls).GroupUsed id) ∧
    ((stored be calls).GroupUsed id → ∀ later, id ∈ (stored be (calls ++ later)).groups.keys ∧
      ∃ e, (stored be (calls ++ later)).deleteGroup id = (.error e, stored be (calls ++ later))) :=
  history_decides be calls (fun s => s.GroupUsed id) (fun s => id ∈ s.groups.keys)
    (fun s => ∃ e, s.deleteGroup id = (.error e, s)) (fun later => groupUsed_later be calls later id)
    (fun _ hi => hi.group_mem) (fun _ hi => deleteGroup_used hi)
    (exists_deleteGroup be (stored_integral be calls) (stored_sound be calls))

/-- **An application can still be got rid of exactly if it never had a configuration.** -/
theorem application_deletable_iff (be : Backend) (calls : List StoreCall) (id : Int) :
    ((∃ later, id ∉ (stored be (calls ++ later)).applications.keys) ↔ ¬ (stored be calls).ApplicationUsed id) ∧
    ((stored be calls).ApplicationUsed id → ∀ later, id ∈ (stored be (calls ++ later)).applications.keys ∧
      ∃ e, (stored be (calls ++ later)).deleteApplication id = (.error e, stored be (calls ++ later))) :=
  history_decides be calls (fun s => s.ApplicationUsed id) (fun s => id ∈ s.applications.keys)
    (fun s => ∃ e, s.deleteApplication id = (.error e, s)) (fun later => applicationUsed_later be calls later id)
    (fun _ hi => hi.application_mem) (fun _ hi => deleteApplication_used hi) (exists_deleteApplication be)

end Store
end Api
end ZeroDowntime
