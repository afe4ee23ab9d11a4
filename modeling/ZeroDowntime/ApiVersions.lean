import ZeroDowntime.Runs
import ZeroDowntime.ApiEffective
/-!
# ApiVersions — the version numbers of an application's configs

A new config takes the version after the greatest active one of its target; an updated one takes the version after the
row it replaces, wherever it goes.  Rows that are no longer active have versions too.
-/
namespace Versioned

variable {α : Type}

/-- The keys and payloads of a table, without the marks. -/
def Table.payloads (t : Table α) : List (Int × α) := t.rows.map (fun r => (r.id, r.data))

theorem Table.mem_payloads (t : Table α) (p : Int × α) : p ∈ t.payloads ↔ ∃ r ∈ t.rows, (r.id, r.data) = p := List.mem_map

theorem Table.payloads_softDelete (t : Table α) (id now : Int) : (t.softDelete id now).payloads = t.payloads := by
  unfold payloads
  rw [softDelete_rows, List.map_map]
  refine List.map_congr_left (fun r _ => ?_)
  simp only [Function.comp_apply]
  split <;> rfl

theorem Table.payloads_replaceWhere (t : Table α) (gone : Row α → Bool) (a : α) (h : t.next < idLimit) :
    (t.replaceWhere gone a).payloads = t.payloads ++ [(t.next, a)] := by
  unfold payloads
  rw [t.replaceWhere_rows gone a h, List.map_append, List.map_map]
  refine congrArg₂ (· ++ ·) (List.map_congr_left (fun r _ => ?_)) rfl
  simp only [Function.comp_apply]
  split <;> rfl

end Versioned

namespace ZeroDowntime
namespace Api

open Versioned (Row Table Entity)

/-- Two configs of one application for the same device or the same group. -/
def SameKey (a b : ApplicationConfig) : Prop :=
  a.applicationId = b.applicationId ∧
    ((∃ d, a.deviceId = some d ∧ b.deviceId = some d) ∨ ∃ g, a.groupId = some g ∧ b.groupId = some g)

/-- Of two rows with the same application and target, the one with the larger id has the larger version. -/
def Numbered (t : Table ApplicationConfig) : Prop :=
  ∀ r ∈ t.rows, ∀ s ∈ t.rows, SameKey r.data s.data → r.id < s.id → r.data.version < s.data.version

/-- The INSERT of a config for the application and the target is accepted. -/
def Admitted (be : Backend) (db : Db) (applicationId : Int) (tgt : Target) : Prop :=
  (applicationId ∈ db.base.applications ∧ tgt.stored db.base) ∧
    db.applicationConfigs.next < Versioned.idLimit ∧
    (be = .postgres → Vacant (configKey applicationId tgt) db.applicationConfigs)

/-- No row of the application and the target, whatever its marks, has a version above `v`. -/
def VersionsUpTo (t : Table ApplicationConfig) (applicationId : Int) (tgt : Target) (v : Int) : Prop :=
  ∀ r ∈ t.rows, configKey applicationId tgt r.data = true → r.data.version ≤ v

/-- An accepted `add` counts on from the greatest version of its key, an accepted `update` from one no smaller. -/
def CountsOn (be : Backend) (db : Db) : Call → Prop
  | .addApplicationConfig d g a _ _ => ∀ tgt : Target, d = tgt.deviceId → g = tgt.groupId → Admitted be db a tgt →
    VersionsUpTo db.applicationConfigs a tgt
      (maxVersion (db.applicationConfigs.rows.filter (fun r => r.active && configKey a tgt r.data)))
  | .updateApplicationConfig id d g a _ _ _ => ∀ current, getApplicationConfig id db = some current →
    ∀ tgt : Target, d = tgt.deviceId → g = tgt.groupId → Admitted be db a tgt →
      VersionsUpTo db.applicationConfigs a tgt current.data.version
  | _ => True

/-! ## Rows and keys -/

theorem exactlyOneTarget_iff (d g : Option Int) :
    exactlyOneTarget d g = .ok () ↔ ∃ tgt : Target, d = tgt.deviceId ∧ g = tgt.groupId := by
  constructor
  · intro h
    cases d with
    | some d =>
      cases g with
      | none => exact ⟨.device d, rfl, rfl⟩
      | some g => cases h
    | none =>
      cases g with
      | none => cases h
      | some g => exact ⟨.group g, rfl, rfl⟩
  · rintro ⟨tgt, rfl, rfl⟩
    exact exactlyOneTarget_target tgt

theorem sameKey_iff (r a : ApplicationConfig) (tgt : Target) (hd : a.deviceId = tgt.deviceId)
    (hg : a.groupId = tgt.groupId) : SameKey r a ↔ configKey a.applicationId tgt r = true := by
  unfold SameKey
  rw [hd, hg]
  cases tgt with
  | device d =>
    rw [configKey_device]
    simp [Target.deviceId, Target.groupId]
  | group g =>
    rw [configKey_group]
    simp [Target.deviceId, Target.groupId]

theorem numbered_iff_payloads (t : Table ApplicationConfig) : Numbered t ↔
    ∀ p ∈ t.payloads, ∀ q ∈ t.payloads, SameKey p.2 q.2 → p.1 < q.1 → p.2.version < q.2.version := by
  unfold Numbered Table.payloads
  simp only [List.forall_mem_map]

theorem numbered_congr {t t' : Table ApplicationConfig} (h : t'.payloads = t.payloads) : Numbered t' ↔ Numbered t := by
  rw [numbered_iff_payloads, numbered_iff_payloads, h]

/-- **A new row keeps the numbering exactly if its version is above all those of its key.** -/
theorem numbered_concat {t t' : Table ApplicationConfig} {a : ApplicationConfig}
    (h : t'.payloads = t.payloads ++ [(t.next, a)]) (hn : Numbered t) :
    Numbered t' ↔ ∀ r ∈ t.rows, SameKey r.data a → r.data.version < a.version := by
  rw [numbered_iff_payloads, h]
  constructor
  · intro hall r hr hkey
    refine hall (r.id, r.data) (List.mem_append_left _ ((t.mem_payloads _).2 ⟨r, hr, rfl⟩)) (t.next, a)
      (List.mem_append_right _ (List.mem_singleton_self _)) hkey (t.id_lt_next r hr)
  · intro hnew p hp q hq hkey hlt
    rcases List.mem_append.1 hp with hp | hp
    · rcases List.mem_append.1 hq with hq | hq
      · exact (numbered_iff_payloads t).1 hn p hp q hq hkey hlt
      · obtain ⟨r, hr, rfl⟩ := (t.mem_payloads p).1 hp
        obtain rfl := List.mem_singleton.1 hq
        exact hnew r hr hkey
    · -- no key is larger than the new one
      obtain rfl := List.mem_singleton.1 hp
      rcases List.mem_append.1 hq with hq | hq
      · obtain ⟨s, hs, rfl⟩ := (t.mem_payloads q).1 hq
        exact absurd hlt (Int.lt_asymm (t.id_lt_next s hs))
      · obtain rfl := List.mem_singleton.1 hq
        exact absurd hlt (Int.lt_irrefl _)

/-! ## What a call inserts -/

theorem admitted_iff (be : Backend) (db : Db) (tgt : Target) (m : ApplicationConfig) (hd : m.deviceId = tgt.deviceId)
    (hg : m.groupId = tgt.groupId) :
    applicationConfig.accept be.enforced db.applicationConfigRefs db.applicationConfigs m = .ok m ↔
      Admitted be db m.applicationId tgt := by
  rw [Admitted, ← applicationConfig_accepts_iff be db tgt m.applicationId m hd hg rfl]
  constructor
  · exact fun h => ⟨m, h⟩
  · rintro ⟨a, h⟩
    obtain rfl := Except.ok.inj ((Entity.accept_eq_ok _ _ _ _ _ _).1 h).2.1
    exact h

theorem accept_target {be : Backend} {db : Db} {m a : ApplicationConfig}
    (h : (applicationConfig.accept be.enforced db.applicationConfigRefs db.applicationConfigs m).toOption = some a) :
    a = m ∧ ∃ tgt : Target, m.deviceId = tgt.deviceId ∧ m.groupId = tgt.groupId ∧
      Admitted be db m.applicationId tgt := by
  have h : applicationConfig.accept be.enforced db.applicationConfigRefs db.applicationConfigs m = .ok a := by
    cases hacc : applicationConfig.accept be.enforced db.applicationConfigRefs db.applicationConfigs m with
    | error e => rw [hacc] at h; cases h
    | ok a' => rw [hacc] at h; rw [Option.some.inj h]
  obtain ⟨hb, hc, -⟩ := (Entity.accept_eq_ok _ _ _ _ _ _).1 h
  obtain rfl := Except.ok.inj hc
  obtain ⟨tgt, hd, hg⟩ := (exactlyOneTarget_iff m.deviceId m.groupId).1 hb
  exact ⟨rfl, tgt, hd, hg, (admitted_iff be db tgt m hd hg).1 h⟩

/-- The config a call inserts, if its INSERT is accepted. -/
def inserted (be : Backend) (db : Db) : Call → Option ApplicationConfig
  | .addApplicationConfig d g a img cfg =>
    let existing := db.applicationConfigs.rows.filter (fun r => r.active &&
      (decide (r.data.applicationId = a) && targetFilter d g r.data.deviceId r.data.groupId))
    (applicationConfig.accept be.enforced db.applicationConfigRefs db.applicationConfigs
      ⟨d, g, a, img, (existing.head?.map (·.data.configVersion)).getD 1, cfg, maxVersion existing + 1⟩).toOption
  | .updateApplicationConfig id d g a img cfg _ =>
    (getApplicationConfig id db).bind (fun current =>
      (applicationConfig.accept be.enforced db.applicationConfigRefs db.applicationConfigs
        ⟨d, g, a, img, current.data.configVersion, cfg, current.data.version + 1⟩).toOption)
  | _ => none

/-- **A call adds what it inserts, and changes no other payload.** -/
theorem exec_payloads (be : Backend) (db : Db) (hs : db.Sound) (c : Call) :
    (exec be db c).applicationConfigs.payloads =
      db.applicationConfigs.payloads ++ ((inserted be db c).map (fun m => (db.applicationConfigs.next, m))).toList := by
  cases c with
  | addApplicationConfig d g a img cfg =>
    simp only [exec, addApplicationConfig, Slot.lift, applicationConfigs, inserted]
    rw [Entity.addReplacing_spec _ _ _ _ _ _ hs.applicationConfigs]
    split
    · rename_i e h
      rw [h]
      exact (List.append_nil _).symm
    · rename_i m h
      rw [Versioned.Table.payloads_replaceWhere _ _ _ (Entity.accept_next _ _ _ _ _ _ h), h]
      rfl
  | updateApplicationConfig id d g a img cfg f =>
    simp only [exec, updateApplicationConfig, Slot.lift, applicationConfigs, inserted, getApplicationConfig]
    rw [Entity.replace_failing _ _ _ _ _ _ _ _ hs.applicationConfigs]
    cases db.applicationConfigs.findActive id with
    | none => simp
    | some current =>
      simp only [Option.bind_some]
      split
      · rename_i e h
        rw [h]
        exact (List.append_nil _).symm
      · rename_i m h
        rw [Versioned.Table.payloads_replaceWhere _ _ _ (Entity.accept_next _ _ _ _ _ _ h), h]
        rfl
  | deleteApplicationConfig now id =>
    simp only [exec, deleteApplicationConfig, Slot.lift, applicationConfigs, inserted, Entity.delete]
    cases db.applicationConfigs.findActive id with
    | none => simp
    | some current => simp [applicationConfig, Versioned.Table.payloads_softDelete]
  | base b =>
    simp only [exec, inserted]
    split <;> simp
  | _ => simp [exec, inserted, addOsVersion, updateOsVersion, deleteOsVersion, addOsAssignment, updateOsAssignment,
      deleteOsAssignment, addApplicationAssignmentToDevice, addApplicationAssignmentToGroup, addApplicationAssignment,
      updateApplicationAssignment, deleteApplicationAssignment, Slot.lift, osVersions, osAssignments,
      applicationAssignments]

/-- An INSERT counts on exactly if its version is above those of its key, should it be accepted. -/
theorem accept_countsOn_iff (be : Backend) (db : Db) (m : ApplicationConfig) :
    (∀ a, (applicationConfig.accept be.enforced db.applicationConfigRefs db.applicationConfigs m).toOption = some a →
      ∀ r ∈ db.applicationConfigs.rows, SameKey r.data a → r.data.version < a.version) ↔
    ∀ tgt : Target, m.deviceId = tgt.deviceId → m.groupId = tgt.groupId → Admitted be db m.applicationId tgt →
      VersionsUpTo db.applicationConfigs m.applicationId tgt (m.version - 1) := by
  constructor
  · intro h tgt hd hg hadm r hr hkey
    have hacc := (admitted_iff be db tgt m hd hg).2 hadm
    have := h m (by rw [hacc]; rfl) r hr ((sameKey_iff r.data m tgt hd hg).2 hkey)
    omega
  · intro h a ha r hr hkey
    obtain ⟨rfl, tgt, hd, hg, hadm⟩ := accept_target ha
    have := h tgt hd hg hadm r hr ((sameKey_iff r.data a tgt hd hg).1 hkey)
    omega

/-- **A call counts on exactly if what it inserts has a version above those of its key.** -/
theorem countsOn_iff (be : Backend) (db : Db) (c : Call) : CountsOn be db c ↔
    ∀ m, inserted be db c = some m → ∀ r ∈ db.applicationConfigs.rows, SameKey r.data m → r.data.version < m.version := by
  cases c with
  | addApplicationConfig d g a img cfg =>
    refine Iff.trans ?_ (accept_countsOn_iff be db _).symm
    simp only [CountsOn, Int.add_sub_cancel]
    refine forall_congr' (fun tgt => forall_congr' (fun hd => forall_congr' (fun hg => ?_)))
    subst hd hg
    simp only [targetFilter_target, configKey]
  | updateApplicationConfig id d g a img cfg f =>
    simp only [CountsOn, inserted]
    cases getApplicationConfig id db with
    | none => simp
    | some current =>
      simp only [Option.some.injEq, forall_eq', Option.bind_some]
      refine Iff.trans ?_ (accept_countsOn_iff be db _).symm
      simp only [Int.add_sub_cancel]
  | _ => simp [CountsOn, inserted]

/-! ## Runs -/

theorem numbered_step (be : Backend) (db : Db) (c : Call) (hs : db.Sound) (hn : Numbered db.applicationConfigs) :
    Numbered (exec be db c).applicationConfigs ↔ CountsOn be db c := by
  have hpay := exec_payloads be db hs c
  rw [countsOn_iff]
  cases hins : inserted be db c with
  | none =>
    rw [hins, Option.map_none, Option.toList_none, List.append_nil] at hpay
    rw [numbered_congr hpay]
    simpa using hn
  | some m =>
    rw [hins] at hpay
    rw [numbered_concat hpay hn]
    simp only [Option.some.injEq, forall_eq']

theorem run_eq_runs (be : Backend) : ∀ (calls : List Call) (db : Db),
    Runs.run (fun db c => some (exec be db c)) db calls = some (calls.foldl (exec be) db)
  | [], _ => rfl
  | _ :: calls, _ => run_eq_runs be calls _

/-- **In a run every two configs of one application and target are numbered in the order of their ids, at all times,
exactly if every call of the run counts on.** -/
theorem versions_never_repeat_iff (be : Backend) (calls : List Call) :
    (∀ pre post, calls = pre ++ post → Numbered (run be pre).applicationConfigs) ↔
      Runs.Along (fun db c => some (exec be db c)) (CountsOn be) Db.empty calls := by
  refine Iff.trans ?_ (Runs.reached_iff (I := Db.Sound) (P := fun db => Numbered db.applicationConfigs) ?_ ?_
    empty_sound (fun _ h => absurd h List.not_mem_nil) (run_eq_runs be calls Db.empty))
  · refine forall_congr' (fun pre => forall_congr' (fun post => ⟨fun h s₁ heq hrun => ?_, fun h heq => ?_⟩))
    · rw [run_eq_runs] at hrun
      exact Option.some.inj hrun ▸ h heq
    · exact h _ heq (run_eq_runs be pre Db.empty)
  · rintro s a s' hs hstep
    exact Option.some.inj hstep ▸ exec_sound be s hs a
  · rintro s a s' hs hn hstep
    exact Option.some.inj hstep ▸ numbered_step be s a hs hn

/-- The device's config is deleted and a new one added. -/
def addedAgain : List Call :=
  [.base ⟨[], [⟨1, none⟩], [1]⟩, .addApplicationConfig (some 1) none 1 "registry/app:1" none,
    .deleteApplicationConfig 0 1, .addApplicationConfig (some 1) none 1 "registry/app:2" none]

/-- **Both configs of the device are version 1.** -/
theorem version_repeats :
    (run .postgres addedAgain).applicationConfigs.rows.map (fun r => (r.id, r.data.version)) = [(1, 1), (2, 1)] ∧
      ¬ Numbered (run .postgres addedAgain).applicationConfigs := by
  refine ⟨by decide, fun h => ?_⟩
  have hrows : (run .postgres addedAgain).applicationConfigs.rows =
      [⟨1, some 0, none, ⟨some 1, none, 1, "registry/app:1", 1, none, 1⟩⟩,
        ⟨2, none, none, ⟨some 1, none, 1, "registry/app:2", 1, none, 1⟩⟩] := by decide
  unfold Numbered at h
  rw [hrows] at h
  have := h _ (.head _) _ (.tail _ (.head _)) ⟨rfl, .inl ⟨1, rfl, rfl⟩⟩ (by decide)
  exact Int.lt_irrefl _ this

/-! ## Versions fit their column -/

theorem maxVersion_le (existing : List (Row ApplicationConfig)) (n : Int) (hn : 0 ≤ n)
    (h : ∀ r ∈ existing, r.data.version ≤ n) : maxVersion existing ≤ n := by
  unfold maxVersion
  cases hmax : (existing.map (·.data.version)).max? with
  | none => exact hn
  | some v =>
    obtain ⟨r, hr, rfl⟩ := List.mem_map.1 (List.max?_mem hmax)
    exact h r hr

theorem inserted_version_le {be : Backend} {db : Db} {c : Call} {m : ApplicationConfig}
    (hv : ∀ r ∈ db.applicationConfigs.rows, r.data.version ≤ r.id) (h : inserted be db c = some m) :
    m.version ≤ db.applicationConfigs.next := by
  have hlt : ∀ r ∈ db.applicationConfigs.rows, r.data.version ≤ db.applicationConfigs.next - 1 := fun r hr => by
    have := hv r hr
    have := db.applicationConfigs.id_lt_next r hr
    omega
  have hpos := db.applicationConfigs.next_pos
  cases c with
  | addApplicationConfig d g a img cfg =>
    obtain rfl := (accept_target h).1
    have hmax := maxVersion_le (db.applicationConfigs.rows.filter (fun r => r.active &&
      (decide (r.data.applicationId = a) && targetFilter d g r.data.deviceId r.data.groupId))) _ (by omega)
      (fun r hr => hlt r (List.mem_of_mem_filter hr))
    show maxVersion _ + 1 ≤ _
    omega
  | updateApplicationConfig id d g a img cfg f =>
    obtain ⟨current, hcur, h⟩ := Option.bind_eq_some_iff.1 h
    obtain rfl := (accept_target h).1
    have := hlt current ((Versioned.Table.findActive_eq_some _ _ _).1 hcur).1
    show current.data.version + 1 ≤ _
    omega
  | _ => cases h

/-- **No version exceeds its row's id**, so the 32-bit column never overflows. -/
theorem run_version_le_id (be : Backend) (calls : List Call) :
    ∀ r ∈ (run be calls).applicationConfigs.rows, r.data.version ≤ r.id := by
  refine (run_induction be (fun db => db.Sound ∧ ∀ r ∈ db.applicationConfigs.rows, r.data.version ≤ r.id)
    ⟨empty_sound, fun _ h => absurd h List.not_mem_nil⟩ (fun db c h => ⟨exec_sound be db h.1 c, fun r hr => ?_⟩) calls).2
  have hmem : (r.id, r.data) ∈ (exec be db c).applicationConfigs.payloads :=
    (Versioned.Table.mem_payloads _ _).2 ⟨r, hr, rfl⟩
  rw [exec_payloads be db h.1 c, List.mem_append] at hmem
  rcases hmem with hold | hnew
  · obtain ⟨r₀, h₀, heq⟩ := (Versioned.Table.mem_payloads _ _).1 hold
    obtain ⟨hid, hdata⟩ := Prod.mk.inj heq
    rw [← hid, ← hdata]
    exact h.2 r₀ h₀
  · cases hins : inserted be db c with
    | none => rw [hins] at hnew; cases hnew
    | some m =>
      rw [hins] at hnew
      obtain ⟨hid, hdata⟩ := Prod.mk.inj (List.mem_singleton.1 hnew)
      rw [hid, hdata]
      exact inserted_version_le h.2 hins

end Api
end ZeroDowntime
