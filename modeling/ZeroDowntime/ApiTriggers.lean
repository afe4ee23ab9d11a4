import ZeroDowntime.ApiAudit
/-!
# ApiTriggers — the audit triggers of a server that is started again and again

Every start drops the triggers of the default tables and creates those of the tables it is configured with.  Each statement
is committed by itself, so a start that fails leaves what it has done.
-/
namespace ZeroDowntime
namespace Api

structure AuditConfig where
  trackedTables : Option (List String)
  deriving DecidableEq, Repr

structure Trigger where
  table : String
  name : String
  function : String
  deriving DecidableEq, Repr

inductive TriggerErr
  | duplicateObject (name table : String)
  | undefinedTable (table : String)
  deriving DecidableEq, Repr

/-! ## The statements -/

/-- DROP TRIGGER IF EXISTS `name` ON `table`. -/
def dropTrigger (name table : String) (triggers : List Trigger) : List Trigger :=
  triggers.filter (fun t => !(decide (t.table = table) && decide (t.name = name)))

/-- CREATE TRIGGER: the name may be taken on other tables, not on this one. -/
def createTrigger (tables : List String) (trigger : Trigger) (triggers : List Trigger) : Except TriggerErr (List Trigger) :=
  if trigger.table ∈ tables then
    if triggers.any (fun t => decide (t.table = trigger.table) && decide (t.name = trigger.name)) then
      .error (.duplicateObject trigger.name trigger.table)
    else .ok (triggers ++ [trigger])
  else .error (.undefinedTable trigger.table)

/-- The statements one after another, up to the first that fails. -/
def createTriggers (tables : List String) : List Trigger → List Trigger → Except TriggerErr Unit × List Trigger
  | [], triggers => (.ok (), triggers)
  | trigger :: rest, triggers =>
    match createTrigger tables trigger triggers with
    | .error e => (.error e, triggers)
    | .ok triggers => createTriggers tables rest triggers

/-! ## The server -/

def defaultAuditTables : List (String × String) :=
  [("tenants", "id"), ("groups", "id"), ("devices", "id"), ("applications", "id"), ("application_configs", "id"),
    ("application_assignments", "id"), ("os_versions", "id"), ("os_assignments", "id"),
    ("reported_application_assignments", "id"), ("reported_os_assignments", "id"), ("pings", "device_id")]

def auditTrigger (table pkCol : String) : Trigger where
  table := table
  name := "audit_" ++ table
  function := if pkCol = "id" then "audit_log_trigger_fn" else "audit_log_trigger_pings_fn"

/-- The primary key of a table, `id` for one that is not in the list. -/
def pkOf (name : String) : String := (defaultAuditTables.lookup name).getD "id"

def AuditConfig.tracked (config : AuditConfig) : List (String × String) :=
  match config.trackedTables with
  | some names => names.map (fun name => (name, pkOf name))
  | none => defaultAuditTables

def reconcileAuditTriggers (be : Backend) (tables : List String) (config : AuditConfig) (triggers : List Trigger) :
    Except TriggerErr Unit × List Trigger :=
  if be = .postgres then
    createTriggers tables (config.tracked.map (fun t => auditTrigger t.1 t.2))
      (defaultAuditTables.foldl (fun triggers t => dropTrigger ("audit_" ++ t.1) t.1 triggers) triggers)
  else (.ok (), triggers)

def idPkTables : List String :=
  ["tenants", "groups", "devices", "applications", "application_configs", "application_assignments", "os_versions",
    "os_assignments", "reported_application_assignments", "reported_os_assignments"]

/-- The triggers the migration leaves in a database that had none: each is dropped if it exists, then created. -/
def migratedTriggers : List Trigger :=
  (idPkTables.map (fun t => auditTrigger t "id") ++ [auditTrigger "pings" "device_id"]).foldl
    (fun triggers t => dropTrigger t.name t.table triggers ++ [t]) []

/-! ## What a start does -/

/-- The tables a configuration names. -/
def AuditConfig.names (config : AuditConfig) : List String := config.trackedTables.getD (defaultAuditTables.map Prod.fst)

example : AuditConfig.names ⟨none⟩ = Audit.reconcileAuditTriggers none := by decide

/-- A list without repetitions, of tables that exist. -/
def AuditConfig.Valid (tables : List String) (config : AuditConfig) : Prop :=
  ∀ names, config.trackedTables = some names → names.Nodup ∧ ∀ name ∈ names, name ∈ tables

def triggerOf (name : String) : Trigger := auditTrigger name (pkOf name)

/-- The triggers are those of the tables named. -/
def Tracks (triggers : List Trigger) (names : List String) : Prop :=
  ∀ t, t ∈ triggers ↔ ∃ name ∈ names, triggerOf name = t

/-- The start succeeds and leaves the triggers of its configuration. -/
def Converges (tables : List String) (triggers : List Trigger) (config : AuditConfig) : Prop :=
  (reconcileAuditTriggers .postgres tables config triggers).1 = .ok () ∧
    Tracks (reconcileAuditTriggers .postgres tables config triggers).2 config.names

@[simp] theorem triggerOf_table (name : String) : (triggerOf name).table = name := rfl

@[simp] theorem triggerOf_name (name : String) : (triggerOf name).name = "audit_" ++ name := rfl

theorem triggerOf_injective {a b : String} (h : triggerOf a = triggerOf b) : a = b := congrArg Trigger.table h

theorem tracked_eq (config : AuditConfig) :
    config.tracked.map (fun t => auditTrigger t.1 t.2) = config.names.map triggerOf := by
  unfold AuditConfig.tracked AuditConfig.names
  cases config.trackedTables with
  | some names =>
    rw [List.map_map]
    rfl
  | none => decide

theorem migratedTriggers_tracks : Tracks migratedTriggers (defaultAuditTables.map Prod.fst) := by
  have h : migratedTriggers = (defaultAuditTables.map Prod.fst).map triggerOf := by decide
  intro t
  rw [h, List.mem_map]

theorem AuditConfig.Valid.nodup {tables : List String} {config : AuditConfig} (h : config.Valid tables) :
    config.names.Nodup := by
  unfold names
  cases hc : config.trackedTables with
  | some names => exact (h names hc).1
  | none => decide

theorem mem_dropAll : ∀ (dropped : List (String × String)) (triggers : List Trigger) (t : Trigger),
    t ∈ dropped.foldl (fun triggers t => dropTrigger ("audit_" ++ t.1) t.1 triggers) triggers ↔
      t ∈ triggers ∧ ∀ d ∈ dropped, ¬ (t.table = d.1 ∧ t.name = "audit_" ++ d.1)
  | [], triggers, t => by simp
  | d :: dropped, triggers, t => by
    rw [List.foldl_cons, mem_dropAll dropped, dropTrigger, List.mem_filter, List.forall_mem_cons, and_assoc]
    simp only [Bool.not_eq_true', Bool.and_eq_false_iff, decide_eq_false_iff_not, not_and_or]

/-- Of the triggers of `prev`, the drops leave those of the tables that are not in the default list. -/
theorem Tracks.drop {triggers : List Trigger} {prev : List String} (h : Tracks triggers prev) :
    Tracks (defaultAuditTables.foldl (fun triggers t => dropTrigger ("audit_" ++ t.1) t.1 triggers) triggers)
      (prev.filter (fun name => decide (name ∉ defaultAuditTables.map Prod.fst))) := by
  intro t
  rw [mem_dropAll, h t]
  constructor
  · rintro ⟨⟨name, hname, rfl⟩, hkept⟩
    refine ⟨name, List.mem_filter.2 ⟨hname, decide_eq_true (fun hd => ?_)⟩, rfl⟩
    obtain ⟨d, hmem, rfl⟩ := List.mem_map.1 hd
    exact hkept d hmem ⟨rfl, rfl⟩
  · rintro ⟨name, hname, rfl⟩
    obtain ⟨hname, hnot⟩ := List.mem_filter.1 hname
    refine ⟨⟨name, hname, rfl⟩, ?_⟩
    rintro d hd ⟨htable, -⟩
    exact of_decide_eq_true hnot (List.mem_map.2 ⟨d, hd, htable.symm⟩)

/-- A trigger is created unless its table has it already. -/
theorem Tracks.createTrigger {tables : List String} {triggers : List Trigger} {base : List String} {name : String}
    (h : Tracks triggers base) (hname : name ∈ tables) : Api.createTrigger tables (triggerOf name) triggers =
      if name ∈ base then .error (.duplicateObject ("audit_" ++ name) name) else .ok (triggers ++ [triggerOf name]) := by
  unfold Api.createTrigger
  rw [triggerOf_table, triggerOf_name, if_pos hname]
  refine if_congr ?_ rfl rfl
  simp only [List.any_eq_true, Bool.and_eq_true, decide_eq_true_eq]
  constructor
  · rintro ⟨t, ht, htable, -⟩
    obtain ⟨n, hn, rfl⟩ := (h t).1 ht
    exact htable ▸ hn
  · exact fun hb => ⟨triggerOf name, (h _).2 ⟨name, hb, rfl⟩, rfl, rfl⟩

theorem Tracks.concat {triggers : List Trigger} {base : List String} (h : Tracks triggers base) (name : String) :
    Tracks (triggers ++ [triggerOf name]) (base ++ [name]) := by
  intro t
  rw [List.mem_append, h t, List.mem_singleton]
  constructor
  · rintro (⟨n, hn, rfl⟩ | rfl)
    · exact ⟨n, List.mem_append_left _ hn, rfl⟩
    · exact ⟨name, List.mem_append_right _ (List.mem_singleton_self _), rfl⟩
  · rintro ⟨n, hn, rfl⟩
    rcases List.mem_append.1 hn with hn | hn
    · exact .inl ⟨n, hn, rfl⟩
    · exact .inr (congrArg triggerOf (List.mem_singleton.1 hn))

/-- **The creations succeed exactly if no table named has its trigger yet.** -/
theorem Tracks.createTriggers {tables : List String} : ∀ (names : List String) {triggers : List Trigger}
    {base : List String}, Tracks triggers base → names.Nodup → (∀ name ∈ names, name ∈ tables) →
    ((Api.createTriggers tables (names.map triggerOf) triggers).1 = .ok () ↔ ∀ name ∈ names, name ∉ base) ∧
    ((Api.createTriggers tables (names.map triggerOf) triggers).1 = .ok () →
      Tracks (Api.createTriggers tables (names.map triggerOf) triggers).2 (base ++ names))
  | [], _, _, h, _, _ => ⟨⟨fun _ _ hn => absurd hn List.not_mem_nil, fun _ => rfl⟩, fun _ => by rwa [List.append_nil]⟩
  | name :: names, triggers, base, h, hnd, hex => by
    obtain ⟨hnew, hnd⟩ := List.nodup_cons.1 hnd
    rw [List.map_cons, Api.createTriggers, h.createTrigger (hex name List.mem_cons_self)]
    by_cases hb : name ∈ base
    · rw [if_pos hb]
      exact ⟨⟨fun he => (by cases he), fun hall => absurd hb (hall name List.mem_cons_self)⟩, fun he => (by cases he)⟩
    · rw [if_neg hb]
      obtain ⟨hok, htracks⟩ := (h.concat name).createTriggers names hnd (fun n hn => hex n (List.mem_cons_of_mem _ hn))
      refine ⟨hok.trans ⟨fun hall n hn => ?_, fun hall n hn hmem => ?_⟩, fun he => ?_⟩
      · rcases List.mem_cons.1 hn with rfl | hn
        · exact hb
        · exact fun hnb => hall n hn (List.mem_append_left _ hnb)
      · rcases List.mem_append.1 hmem with hmem | hmem
        · exact hall n (List.mem_cons_of_mem _ hn) hmem
        · exact hnew (List.mem_singleton.1 hmem ▸ hn)
      · have := htracks he
        rwa [List.append_assoc] at this

/-! ## Runs of starts -/

/-- A database after the migrations: the tables audited by default exist, whatever others do. -/
structure Catalog where
  tables : List String
  migrated : ∀ name ∈ defaultAuditTables.map Prod.fst, name ∈ tables

theorem AuditConfig.Valid.exist {cat : Catalog} {config : AuditConfig} (h : config.Valid cat.tables) :
    ∀ name ∈ config.names, name ∈ cat.tables := by
  unfold names
  cases hc : config.trackedTables with
  | some names => exact (h names hc).2
  | none => exact cat.migrated

/-- **A start converges exactly if the one before left no trigger outside the default list.** -/
theorem converges_iff {cat : Catalog} {triggers : List Trigger} {prev : List String} (h : Tracks triggers prev)
    {config : AuditConfig} (hv : config.Valid cat.tables) :
    Converges cat.tables triggers config ↔ ∀ name ∈ prev, name ∈ defaultAuditTables.map Prod.fst := by
  obtain ⟨hok, htracks⟩ := h.drop.createTriggers config.names hv.nodup hv.exist
  have hrec : reconcileAuditTriggers .postgres cat.tables config triggers =
      createTriggers cat.tables (config.names.map triggerOf)
        (defaultAuditTables.foldl (fun triggers t => dropTrigger ("audit_" ++ t.1) t.1 triggers) triggers) := by
    rw [reconcileAuditTriggers, if_pos rfl, tracked_eq]
  rw [Converges, hrec]
  constructor
  · rintro ⟨hsucc, hall⟩ name hname
    by_contra hnot
    have hleft : name ∈ prev.filter (fun name => decide (name ∉ defaultAuditTables.map Prod.fst)) :=
      List.mem_filter.2 ⟨hname, decide_eq_true hnot⟩
    -- the trigger left over is not among those configured, else its creation had failed
    obtain ⟨n, hn, heq⟩ := (hall (triggerOf name)).1 ((htracks hsucc _).2 ⟨name, List.mem_append_left _ hleft, rfl⟩)
    exact hok.1 hsucc n hn (triggerOf_injective heq ▸ hleft)
  · intro hall
    have hnil : prev.filter (fun name => decide (name ∉ defaultAuditTables.map Prod.fst)) = [] :=
      List.filter_eq_nil_iff.2 (fun name hname => by simpa using hall name hname)
    rw [hnil] at hok htracks
    have hsucc := hok.2 (fun _ _ => List.not_mem_nil)
    exact ⟨hsucc, htracks hsucc⟩

/-- The triggers after a start, whether it succeeded or not. -/
def start (tables : List String) (triggers : List Trigger) (config : AuditConfig) : Option (List Trigger) :=
  some (reconcileAuditTriggers .postgres tables config triggers).2

theorem along_converges_iff {cat : Catalog} : ∀ (starts : List AuditConfig) {triggers : List Trigger} {prev : List String},
    Tracks triggers prev → (∀ config ∈ starts, config.Valid cat.tables) →
    (Runs.Along (start cat.tables) (Converges cat.tables) triggers starts ↔
      (starts ≠ [] → ∀ name ∈ prev, name ∈ defaultAuditTables.map Prod.fst) ∧
        ∀ config ∈ starts.dropLast, ∀ name ∈ config.names, name ∈ defaultAuditTables.map Prod.fst)
  | [], _, _, _, _ => by simp [Runs.Along]
  | config :: rest, triggers, prev, h, hv => by
    have hone := converges_iff h (hv config List.mem_cons_self)
    rw [Runs.Along, hone]
    simp only [start, Option.some.injEq, forall_eq']
    have hrest : Converges cat.tables triggers config →
        (Runs.Along (start cat.tables) (Converges cat.tables)
            (reconcileAuditTriggers .postgres cat.tables config triggers).2 rest ↔
          (rest ≠ [] → ∀ name ∈ config.names, name ∈ defaultAuditTables.map Prod.fst) ∧
            ∀ config ∈ rest.dropLast, ∀ name ∈ config.names, name ∈ defaultAuditTables.map Prod.fst) :=
      fun hc => along_converges_iff rest hc.2 (fun c hmem => hv c (List.mem_cons_of_mem _ hmem))
    constructor
    · rintro ⟨hprev, hall⟩
      obtain ⟨hnext, hlater⟩ := (hrest (hone.2 hprev)).1 hall
      refine ⟨fun _ => hprev, fun c hc => ?_⟩
      cases rest with
      | nil => cases hc
      | cons c' rest =>
        rw [List.dropLast_cons_cons] at hc
        rcases List.mem_cons.1 hc with rfl | hc
        · exact hnext (List.cons_ne_nil _ _)
        · exact hlater c hc
    · rintro ⟨hprev, hall⟩
      have hprev := hprev (List.cons_ne_nil _ _)
      refine ⟨hprev, (hrest (hone.2 hprev)).2 ⟨fun hne => ?_, fun c hc => ?_⟩⟩
      · cases rest with
        | nil => exact absurd rfl hne
        | cons c' rest => exact hall config (by rw [List.dropLast_cons_cons]; exact List.mem_cons_self)
      · cases rest with
        | nil => cases hc
        | cons c' rest => exact hall c (by rw [List.dropLast_cons_cons]; exact List.mem_cons_of_mem _ hc)

/-- **Every start of a migrated database converges exactly if all but the last are configured with tables of the default
list.** -/
theorem audit_triggers_converge_iff (cat : Catalog) (starts : List AuditConfig)
    (hv : ∀ config ∈ starts, config.Valid cat.tables) :
    Runs.Along (start cat.tables) (Converges cat.tables) migratedTriggers starts ↔
      ∀ config ∈ starts.dropLast, ∀ name ∈ config.names, name ∈ defaultAuditTables.map Prod.fst := by
  rw [along_converges_iff starts migratedTriggers_tracks hv]
  exact ⟨And.right, fun h => ⟨fun _ _ hname => hname, h⟩⟩

/-- A database with the table `users` besides the default ones. -/
def withUsers : Catalog := ⟨"users" :: defaultAuditTables.map Prod.fst, fun _ h => List.mem_cons_of_mem _ h⟩

theorem audit_triggers_converge_users : Runs.Along (start withUsers.tables) (Converges withUsers.tables) migratedTriggers
    [⟨some ["devices"]⟩, ⟨some ["users"]⟩] := by
  refine (audit_triggers_converge_iff withUsers _ ?_).2 (by decide)
  intro config hc names hn
  simp only [List.mem_cons, List.not_mem_nil, or_false] at hc
  rcases hc with rfl | rfl
  · obtain rfl := Option.some.inj hn
    decide
  · obtain rfl := Option.some.inj hn
    decide

/-- **A server that tracks `users` fails at its next start**, and one configured otherwise keeps the trigger. -/
theorem audit_triggers_diverge :
    (⟨some ["users"]⟩ : AuditConfig).Valid withUsers.tables ∧
    (reconcileAuditTriggers .postgres withUsers.tables ⟨some ["users"]⟩ migratedTriggers).1 = .ok () ∧
    (reconcileAuditTriggers .postgres withUsers.tables ⟨some ["users"]⟩
        (reconcileAuditTriggers .postgres withUsers.tables ⟨some ["users"]⟩ migratedTriggers).2).1 =
      .error (.duplicateObject "audit_users" "users") ∧
    ((reconcileAuditTriggers .postgres withUsers.tables ⟨some ["devices"]⟩
        (reconcileAuditTriggers .postgres withUsers.tables ⟨some ["users"]⟩ migratedTriggers).2).2.map Trigger.name) =
      ["audit_users", "audit_devices"] := by
  refine ⟨fun names h => ?_, by decide, by decide, by decide⟩
  obtain rfl := Option.some.inj h
  decide

end Api
end ZeroDowntime
