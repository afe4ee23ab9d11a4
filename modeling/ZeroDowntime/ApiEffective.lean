import ZeroDowntime.LastWrite
import ZeroDowntime.ApiReads
import ZeroDowntime.ApiReassign
/-!
# ApiEffective — the configs a device is said to have

`list_application_configs_for_device` reads every config ever written for the device or its group, and keeps the newest
row of each application, the device's before the group's.  It does not ask whether that row is active.
-/
namespace Versioned

variable {α : Type}

/-- The newest row with a payload that `p` selects, active or not. -/
def Table.newest (t : Table α) (p : α → Bool) : Option (Row α) := (t.rows.filter (fun r => p r.data)).getLast?

theorem getLast?_eq_some_of_ids (l : List (Row α)) (hl : l.Pairwise (fun a b => a.id < b.id)) (c : Row α) :
    l.getLast? = some c ↔ c ∈ l ∧ ∀ r ∈ l, r.id ≤ c.id := by
  constructor
  · intro h
    obtain ⟨init, rfl⟩ := List.getLast?_eq_some_iff.1 h
    refine ⟨List.mem_append_right _ (List.mem_singleton_self c), fun r hr => ?_⟩
    rcases List.mem_append.1 hr with hr | hr
    · exact ((List.pairwise_append.1 hl).2.2 r hr c (List.mem_singleton_self c)).le
    · exact (congrArg Row.id (List.mem_singleton.1 hr)).le
  · rintro ⟨hc, hmax⟩
    have hne : l ≠ [] := List.ne_nil_of_mem hc
    rw [List.getLast?_eq_some_getLast hne, Option.some.injEq]
    have hlast : l.getLast? = some (l.getLast hne) := List.getLast?_eq_some_getLast hne
    obtain ⟨init, hinit⟩ := List.getLast?_eq_some_iff.1 hlast
    have hle : c.id ≤ (l.getLast hne).id := by
      rw [hinit] at hc hl
      rcases List.mem_append.1 hc with hc | hc
      · exact ((List.pairwise_append.1 hl).2.2 c hc _ (List.mem_singleton_self _)).le
      · exact (congrArg Row.id (List.mem_singleton.1 hc)).le
    have hge := hmax _ (List.getLast_mem hne)
    exact eq_of_id l hl _ (List.getLast_mem hne) c hc (Int.le_antisymm hge hle)

theorem Table.newest_eq_some (t : Table α) (p : α → Bool) (c : Row α) :
    t.newest p = some c ↔ (c ∈ t.rows ∧ p c.data = true) ∧ ∀ r ∈ t.rows, p r.data = true → r.id ≤ c.id := by
  rw [newest, getLast?_eq_some_of_ids _ (t.ids.filter _) c, List.mem_filter]
  simp only [List.mem_filter, and_imp]

theorem Table.newest_eq_none (t : Table α) (p : α → Bool) : t.newest p = none ↔ ∀ r ∈ t.rows, p r.data = false := by
  rw [newest, List.getLast?_eq_none_iff, List.filter_eq_nil_iff]
  simp only [Bool.not_eq_true]

end Versioned

namespace ZeroDowntime
namespace Api

open Versioned (Row Table Entity)
open LastWrite (insertAll Keyed)

/-- `byApplication` is a hash map, whose values come in no particular order before they are sorted. -/
def listApplicationConfigsForDevice (deviceId : Int) (db : Db) : List (Row ApplicationConfig) :=
  let configs := db.applicationConfigs.rows.filter (fun c =>
    appliesToDevice deviceId (db.groupOf deviceId) c.data.deviceId c.data.groupId)
  let byApplication := insertAll (fun c => c.data.applicationId) (configs.filter (fun c => c.data.groupId.isSome)) []
  let byApplication := insertAll (fun c => c.data.applicationId)
    (configs.filter (fun c => decide (c.data.deviceId = some deviceId))) byApplication
  (byApplication.map Prod.snd).insertionSort (fun a b => a.id ≤ b.id)

/-- `l` is one active config for every application the device or its group has one for, the device's before the group's. -/
structure Db.Effective (db : Db) (d : Int) (l : List (Row ApplicationConfig)) : Prop where
  active : ∀ c ∈ l, getApplicationConfig c.id db = some c
  once : (l.map (·.data.applicationId)).Nodup
  every : ∀ a, a ∈ l.map (·.data.applicationId) ↔ ∃ c ∈ db.applicationConfigs.rows, c.active = true ∧
    c.data.applicationId = a ∧ (c.data.deviceId = some d ∨ ∃ g, db.groupOf d = some g ∧ c.data.groupId = some g)
  own : ∀ c ∈ l, (∃ r ∈ db.applicationConfigs.rows, r.active = true ∧
    configKey c.data.applicationId (.device d) r.data = true) → c.data.deviceId = some d
  shared : ∀ c ∈ l, (∀ r ∈ db.applicationConfigs.rows, r.active = true →
    configKey c.data.applicationId (.device d) r.data = false) → ∃ g, db.groupOf d = some g ∧ c.data.groupId = some g

/-- The newest config row of the device for an application is active; where the device never had one, that of its group
is. -/
def Db.NewestActive (db : Db) (d : Int) : Prop :=
  ∀ a, (∀ c, db.applicationConfigs.newest (configKey a (.device d)) = some c → c.active = true) ∧
    (db.applicationConfigs.newest (configKey a (.device d)) = none → ∀ g, db.groupOf d = some g →
      ∀ c, db.applicationConfigs.newest (configKey a (.group g)) = some c → c.active = true)

/-! ## Every config has one target -/

def Db.OneTarget (db : Db) : Prop :=
  ∀ r ∈ db.applicationConfigs.rows, exactlyOneTarget r.data.deviceId r.data.groupId = .ok ()

theorem run_oneTarget (be : Backend) (calls : List Call) : (run be calls).OneTarget := by
  refine (run_induction be (fun db => db.Sound ∧ db.OneTarget) ⟨empty_sound, fun _ h => absurd h List.not_mem_nil⟩
    (fun db c h => ⟨exec_sound be db h.1 c, ?_⟩) calls).2
  refine Entity.change_forall _ _ _ _ _ (fun a : ApplicationConfig => exactlyOneTarget a.deviceId a.groupId = .ok ())
    (fun m a ha => ?_) h.2
    (exec_stepped be db h.1 c).applicationConfigs
  obtain ⟨hb, hc, -⟩ := (Entity.accept_eq_ok _ _ _ _ _ _).1 ha
  obtain rfl := Except.ok.inj hc
  exact hb

theorem exactlyOneTarget_some {d g : Option Int} (h : exactlyOneTarget d g = .ok ()) (hg : g.isSome = true) : d = none := by
  cases d with
  | none => rfl
  | some d =>
    rw [Option.isSome_iff_exists] at hg
    obtain ⟨g, rfl⟩ := hg
    cases h

/-! ## What the resolver returns -/

variable {db : Db} {d : Int}

/-- The row the resolver keeps for an application. -/
def Db.effective (db : Db) (d a : Int) : Option (Row ApplicationConfig) :=
  (db.applicationConfigs.newest (configKey a (.device d))).or
    ((db.groupOf d).bind (fun g => db.applicationConfigs.newest (configKey a (.group g))))

theorem filter_own (a : Int) (db : Db) : ((db.applicationConfigs.rows.filter (fun c =>
      appliesToDevice d (db.groupOf d) c.data.deviceId c.data.groupId)).filter
        (fun c => decide (c.data.deviceId = some d))).filter (fun c => decide (c.data.applicationId = a)) =
    db.applicationConfigs.rows.filter (fun r => configKey a (.device d) r.data) := by
  rw [List.filter_filter, List.filter_filter]
  refine List.filter_congr (fun c _ => ?_)
  unfold configKey Target.holds appliesToDevice
  by_cases h : c.data.deviceId = some d <;> simp [h]

theorem filter_shared (h1 : db.OneTarget) (a : Int) : ((db.applicationConfigs.rows.filter (fun c =>
      appliesToDevice d (db.groupOf d) c.data.deviceId c.data.groupId)).filter
        (fun c => c.data.groupId.isSome)).filter (fun c => decide (c.data.applicationId = a)) =
    db.applicationConfigs.rows.filter (fun r => (db.groupOf d).any (fun g => configKey a (.group g) r.data)) := by
  rw [List.filter_filter, List.filter_filter]
  refine List.filter_congr (fun c hc => ?_)
  unfold configKey Target.holds appliesToDevice
  cases hg : c.data.groupId with
  | none => cases db.groupOf d <;> simp
  | some g =>
    rw [exactlyOneTarget_some (h1 c hc) (by rw [hg]; rfl)]
    cases db.groupOf d <;> simp

theorem getLast?_shared (a : Int) (db : Db) :
    (db.applicationConfigs.rows.filter (fun r => (db.groupOf d).any (fun g => configKey a (.group g) r.data))).getLast? =
      (db.groupOf d).bind (fun g => db.applicationConfigs.newest (configKey a (.group g))) := by
  cases db.groupOf d with
  | none => simp
  | some g => rfl

/-- **The resolver returns the rows `effective` names**, one for each application. -/
theorem mem_listApplicationConfigsForDevice (h1 : db.OneTarget) (c : Row ApplicationConfig) :
    c ∈ listApplicationConfigsForDevice d db ↔ db.effective d c.data.applicationId = some c := by
  have hkeyed := (LastWrite.keyed_nil (fun c : Row ApplicationConfig => c.data.applicationId)).insertAll
  rw [listApplicationConfigsForDevice, List.mem_insertionSort, ((hkeyed _).insertAll _).mem_values,
    LastWrite.lookup_insertAll, LastWrite.lookup_insertAll, filter_own, filter_shared h1, getLast?_shared,
    List.lookup_nil, Option.or_none]
  rfl

theorem nodup_listApplicationConfigsForDevice (d : Int) (db : Db) :
    ((listApplicationConfigsForDevice d db).map (·.data.applicationId)).Nodup := by
  have hkeyed := (LastWrite.keyed_nil (fun c : Row ApplicationConfig => c.data.applicationId)).insertAll
  rw [listApplicationConfigsForDevice, ((List.perm_insertionSort _ _).map _).nodup_iff, ((hkeyed _).insertAll _).map_values]
  exact ((hkeyed _).insertAll _).nodup

theorem configKey_device (a d : Int) (c : ApplicationConfig) :
    configKey a (.device d) c = true ↔ c.applicationId = a ∧ c.deviceId = some d := by
  simp [configKey, Target.holds]

theorem configKey_group (a g : Int) (c : ApplicationConfig) :
    configKey a (.group g) c = true ↔ c.applicationId = a ∧ c.groupId = some g := by
  simp [configKey, Target.holds]

theorem effective_eq_some (a : Int) (c : Row ApplicationConfig) : db.effective d a = some c ↔
    db.applicationConfigs.newest (configKey a (.device d)) = some c ∨
      (db.applicationConfigs.newest (configKey a (.device d)) = none ∧ ∃ g, db.groupOf d = some g ∧
        db.applicationConfigs.newest (configKey a (.group g)) = some c) := by
  rw [Db.effective, Option.or_eq_some_iff]
  simp only [Option.bind_eq_some_iff]

/-- What the resolver names is a stored row of the application, of the device or of its group. -/
theorem effective_row {a : Int} {c : Row ApplicationConfig} (h : db.effective d a = some c) :
    c ∈ db.applicationConfigs.rows ∧ c.data.applicationId = a ∧
      (c.data.deviceId = some d ∨ ∃ g, db.groupOf d = some g ∧ c.data.groupId = some g) := by
  rcases (effective_eq_some a c).1 h with hown | ⟨-, g, hg, hshared⟩
  · obtain ⟨⟨hmem, hkey⟩, -⟩ := (Versioned.Table.newest_eq_some _ _ c).1 hown
    obtain ⟨ha, hd⟩ := (configKey_device a d c.data).1 hkey
    exact ⟨hmem, ha, .inl hd⟩
  · obtain ⟨⟨hmem, hkey⟩, -⟩ := (Versioned.Table.newest_eq_some _ _ c).1 hshared
    obtain ⟨ha, hgc⟩ := (configKey_group a g c.data).1 hkey
    exact ⟨hmem, ha, .inr ⟨g, hg, hgc⟩⟩

theorem newest_ne_none {t : Table ApplicationConfig} {p : ApplicationConfig → Bool} {r : Row ApplicationConfig}
    (hr : r ∈ t.rows) (hp : p r.data = true) : ∃ c, t.newest p = some c := by
  cases h : t.newest p with
  | some c => exact ⟨c, rfl⟩
  | none =>
    have hnot := (t.newest_eq_none p).1 h r hr
    rw [hp] at hnot
    cases hnot

/-- An application with any row for the device or its group has an effective one. -/
theorem exists_effective {r : Row ApplicationConfig} (hr : r ∈ db.applicationConfigs.rows)
    (htgt : r.data.deviceId = some d ∨ ∃ g, db.groupOf d = some g ∧ r.data.groupId = some g) :
    ∃ c, db.effective d r.data.applicationId = some c := by
  cases hown : db.applicationConfigs.newest (configKey r.data.applicationId (.device d)) with
  | some c => exact ⟨c, (effective_eq_some _ c).2 (.inl hown)⟩
  | none =>
    rcases htgt with hd | ⟨g, hg, hgr⟩
    · have hnot := (Versioned.Table.newest_eq_none _ _).1 hown r hr
      rw [(configKey_device _ d r.data).2 ⟨rfl, hd⟩] at hnot
      cases hnot
    · obtain ⟨c, hc⟩ := newest_ne_none hr ((configKey_group _ g r.data).2 ⟨rfl, hgr⟩)
      exact ⟨c, (effective_eq_some _ c).2 (.inr ⟨hown, g, hg, hc⟩)⟩

theorem newestActive_iff (db : Db) (d : Int) :
    db.NewestActive d ↔ ∀ a c, db.effective d a = some c → c.active = true := by
  simp only [effective_eq_some]
  constructor
  · rintro h a c (hown | ⟨hnone, g, hg, hshared⟩)
    · exact (h a).1 c hown
    · exact (h a).2 hnone g hg c hshared
  · exact fun h a => ⟨fun c hown => h a c (.inl hown), fun hnone g hg c hshared => h a c (.inr ⟨hnone, g, hg, hshared⟩)⟩

theorem Db.Effective.newestActive (h1 : db.OneTarget) (h : db.Effective d (listApplicationConfigsForDevice d db)) :
    db.NewestActive d := by
  refine (newestActive_iff db d).2 (fun a c hc => ?_)
  have happ := (effective_row hc).2.1
  have hget := h.active c ((mem_listApplicationConfigsForDevice h1 c).2 (happ ▸ hc))
  exact ((Versioned.Table.findActive_eq_some _ _ _).1 hget).2.2

theorem Db.NewestActive.effective (h1 : db.OneTarget) (h : db.NewestActive d) :
    db.Effective d (listApplicationConfigsForDevice d db) where
  active := fun c hc => by
    have heff := (mem_listApplicationConfigsForDevice h1 c).1 hc
    exact (Versioned.Table.findActive_eq_some _ _ _).2
      ⟨(effective_row heff).1, rfl, (newestActive_iff db d).1 h _ c heff⟩
  once := nodup_listApplicationConfigsForDevice d db
  every := fun a => by
    constructor
    · intro ha
      obtain ⟨c, hc, rfl⟩ := List.mem_map.1 ha
      have heff := (mem_listApplicationConfigsForDevice h1 c).1 hc
      obtain ⟨hmem, -, htgt⟩ := effective_row heff
      exact ⟨c, hmem, (newestActive_iff db d).1 h _ c heff, rfl, htgt⟩
    · rintro ⟨r, hr, -, rfl, htgt⟩
      obtain ⟨c, hc⟩ := exists_effective hr htgt
      have happ := (effective_row hc).2.1
      exact List.mem_map.2 ⟨c, (mem_listApplicationConfigsForDevice h1 c).2 (happ ▸ hc), happ⟩
  own := by
    rintro c hc ⟨r, hr, -, hkey⟩
    obtain ⟨c', hown⟩ := newest_ne_none hr hkey
    rcases (effective_eq_some _ c).1 ((mem_listApplicationConfigsForDevice h1 c).1 hc) with h' | ⟨hnone, -⟩
    · exact ((configKey_device _ d c.data).1 ((Versioned.Table.newest_eq_some _ _ c).1 h').1.2).2
    · rw [hown] at hnone
      cases hnone
  shared := fun c hc hno => by
    rcases (effective_eq_some _ c).1 ((mem_listApplicationConfigsForDevice h1 c).1 hc) with hown | ⟨-, g, hg, hshared⟩
    · -- an own row would be an active one
      obtain ⟨⟨hmem, hkey⟩, -⟩ := (Versioned.Table.newest_eq_some _ _ c).1 hown
      rw [hno c hmem ((h _).1 c hown)] at hkey
      cases hkey
    · exact ⟨g, hg, ((configKey_group _ g c.data).1 ((Versioned.Table.newest_eq_some _ _ c).1 hshared).1.2).2⟩

/-- **After every run, the configs listed for a device are its effective ones exactly when the newest row ever written for
each application, by the device or else by its group, is active.** -/
theorem effective_configs_iff (be : Backend) (calls : List Call) (d : Int) :
    (run be calls).Effective d (listApplicationConfigsForDevice d (run be calls)) ↔ (run be calls).NewestActive d :=
  ⟨fun h => h.newestActive (run_oneTarget be calls), fun h => h.effective (run_oneTarget be calls)⟩

/-- The device's config is deleted; its group's config is active. -/
def ownDeleted : List Call :=
  [.base ⟨[1], [⟨1, some 1⟩], [1]⟩, .addApplicationConfig none (some 1) 1 "registry/app:1" none,
    .addApplicationConfig (some 1) none 1 "registry/app:2" none, .deleteApplicationConfig 0 2]

/-- **The deleted config is listed, and hides the active one of the group.** -/
theorem deleted_config_listed :
    (listApplicationConfigsForDevice 1 (run .postgres ownDeleted)).map Row.id = [2] ∧
    getApplicationConfig 2 (run .postgres ownDeleted) = none ∧
    (getApplicationConfig 1 (run .postgres ownDeleted)).map (·.data.groupId) = some (some 1) ∧
    ¬ (run .postgres ownDeleted).Effective 1 (listApplicationConfigsForDevice 1 (run .postgres ownDeleted)) := by
  have hlist : (listApplicationConfigsForDevice 1 (run .postgres ownDeleted)).map Row.id = [2] := by decide
  have hnone : getApplicationConfig 2 (run .postgres ownDeleted) = none := by decide
  refine ⟨hlist, hnone, by decide, fun h => ?_⟩
  obtain ⟨c, hc, hid⟩ := List.mem_map.1 (hlist ▸ List.mem_singleton_self (2 : Int))
  have := h.active c hc
  rw [hid, hnone] at this
  cases this

end Api
end ZeroDowntime
