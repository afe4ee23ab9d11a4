import Mathlib.Data.Fintype.EquivFin
import ZeroDowntime.AppOrder
import ZeroDowntime.Runs
/-!
# AppLoop — the application loop, await by await

`run_apps_main_loop` reads the flag once, at its tick, and a cycle that has begun goes on through the fetch, the pulls and
every operation of its actions.  Each step ends at one await.  The steps of an undisturbed cycle are those of `try_update`
(`cycle_steps`); a cycle that has something left to do can do it (`exists_start`).
-/
namespace ZeroDowntime
namespace Apps

open Lifecycle (Error)
open Runs (run)

/-- What an action asks podman for: an update removes the application before it creates its successor. -/
inductive Op
  | create (target : TargetApp)
  | remove (index : Nat)

def ReconcileAction.ops : ReconcileAction TargetApp → List Op
  | .create image => [.create image]
  | .update index targetImage => [.remove index, .create targetImage]
  | .remove index => [.remove index]

inductive AppTask
  | tick
  | fetching
  | pulling (configs : List AppsGetResponseItem)
  /-- Between two operations; these are to come. -/
  | updating (ids : List Int) (ops : List Op)
  | operating (ids : List Int) (op : Op) (ops : List Op)
  | reporting (ids : List Int)
  | pruning

structure AppLoop where
  host : Host
  task : AppTask

inductive AppAction
  | tick
  | fetched (answer : Except Error (List AppsGetResponseItem))
  | pulled (image : Reference → Except Error (Option Image))
  /-- The next operation is started, or, if there is none, the report. -/
  | start
  | removed (r : Removal)
  | created (res : Except Error Unit)
  | reported (res : Except Error Unit)
  | pruned (res : Except Error Unit)

/-- An operation has ended.  One that never ends has no such step, nor has one whose panic ends the process. -/
def AppLoop.goOn (ids : List Int) (ops : List Op) (o : Outcome) : Option AppLoop :=
  match o.ended with
  | .ok => some ⟨o.host, .updating ids ops⟩
  | .failed _ => some ⟨o.host, .tick⟩
  | .pending => none
  | .panicked => none

def AppLoop.step (osUpgradeInProgress : Bool) (l : AppLoop) (a : AppAction) : Option AppLoop :=
  match l.task, a with
  | .tick, .tick => some (if osUpgradeInProgress then l else ⟨l.host, .fetching⟩)
  | .fetching, .fetched (.error _) => some ⟨l.host, .tick⟩
  | .fetching, .fetched (.ok configs) => some ⟨l.host, .pulling configs⟩
  | .pulling configs, .pulled image =>
    match configs.mapM (TargetApp.fromConfig image) with
    | .error _ => some ⟨l.host, .tick⟩
    | .ok targets => some ⟨l.host.sorted, .updating (configs.map AppsGetResponseItem.id)
        ((reconcile l.host.apps targets).flatMap ReconcileAction.ops)⟩
  | .updating ids (op :: ops), .start => some ⟨l.host, .operating ids op ops⟩
  | .updating ids [], .start => some ⟨l.host, .reporting ids⟩
  | .operating ids (.remove index) ops, .removed r => AppLoop.goOn ids ops (removeAt l.host index r)
  | .operating ids (.create target) ops, .created res => AppLoop.goOn ids ops (launch l.host target res)
  | .reporting _, .reported (.error _) => some ⟨l.host, .tick⟩
  | .reporting _, .reported (.ok _) => some ⟨l.host, .pruning⟩
  | .pruning, .pruned _ => some ⟨l.host, .tick⟩
  | _, _ => none

theorem pulled_step (osUpgradeInProgress : Bool) (h : Host) {image : Reference → Except Error (Option Image)}
    {configs : List AppsGetResponseItem} {targets : List TargetApp}
    (hm : configs.mapM (TargetApp.fromConfig image) = .ok targets) :
    (AppLoop.mk h (.pulling configs)).step osUpgradeInProgress (.pulled image)
      = some ⟨h.sorted, .updating (configs.map AppsGetResponseItem.id)
          ((reconcile h.apps targets).flatMap ReconcileAction.ops)⟩ := by
  simp only [AppLoop.step, hm]

/-! ## The steps of a cycle are those of `try_update` -/

/-- Some answers lead the unfrozen loop from one state to another. -/
def Leads (l l' : AppLoop) : Prop := ∃ as, run (AppLoop.step false) l as = some l'

theorem Leads.refl (l : AppLoop) : Leads l l := ⟨[], rfl⟩

theorem Leads.trans {l l' l'' : AppLoop} (h : Leads l l') (h' : Leads l' l'') : Leads l l'' := by
  obtain ⟨as, has⟩ := h
  obtain ⟨bs, hbs⟩ := h'
  exact ⟨as ++ bs, (Runs.run_append_eq_some _ l'' bs as l).2 ⟨l', has, hbs⟩⟩

theorem Leads.step {l l' : AppLoop} (a : AppAction) (h : l.step false a = some l') : Leads l l' :=
  ⟨[a], (Runs.run_cons_eq_some _ l l' a []).2 ⟨l', h, rfl⟩⟩

theorem Leads.goOn {l l' : AppLoop} {ids : List Int} {op : Op} {ops : List Op} {o : Outcome} {a : AppAction}
    (ht : l.task = .updating ids (op :: ops))
    (ha : (AppLoop.mk l.host (.operating ids op ops)).step false a = AppLoop.goOn ids ops o)
    (ho : AppLoop.goOn ids ops o = some l') : Leads l l' := by
  obtain ⟨h, task⟩ := l
  obtain rfl : task = _ := ht
  exact .trans (.step .start rfl) (.step a (ha.trans ho))

/-- Where the outcome of the rest of a cycle leads: past the operations, or back to the tick. -/
def LeadsAs (l : AppLoop) (ids : List Int) (ops : List Op) (o : Outcome) : Prop :=
  ∀ l', AppLoop.goOn ids ops o = some l' → Leads l l'

theorem leadsAs_andThen {l : AppLoop} {ids : List Int} {ops ops' : List Op} {o : Outcome} {f : Host → Outcome}
    (h : LeadsAs l ids ops o) (hf : ∀ h', LeadsAs ⟨h', .updating ids ops⟩ ids ops' (f h')) :
    LeadsAs l ids ops' (o.andThen f) := by
  intro l' hl
  cases hend : o.ended with
  | ok =>
    rw [andThen_of_ok o f hend] at hl
    refine (h ⟨o.host, .updating ids ops⟩ ?_).trans (hf o.host l' hl)
    simp only [AppLoop.goOn, hend]
  | failed e =>
    rw [andThen_of_ne_ok o f (by rw [hend]; simp)] at hl
    simp only [AppLoop.goOn, hend] at hl
    exact h l' (by simpa only [AppLoop.goOn, hend] using hl)
  | pending =>
    rw [andThen_of_ne_ok o f (by rw [hend]; simp)] at hl
    simp only [AppLoop.goOn, hend] at hl
    cases hl
  | panicked =>
    rw [andThen_of_ne_ok o f (by rw [hend]; simp)] at hl
    simp only [AppLoop.goOn, hend] at hl
    cases hl

theorem leadsAs_remove (h : Host) (ids : List Int) (index : Nat) (ops : List Op) (r : Removal) :
    LeadsAs ⟨h, .updating ids (.remove index :: ops)⟩ ids ops (removeAt h index r) := fun _ hl =>
  .goOn (a := .removed r) rfl rfl hl

theorem leadsAs_create (h : Host) (ids : List Int) (target : TargetApp) (ops : List Op) (res : Except Error Unit) :
    LeadsAs ⟨h, .updating ids (.create target :: ops)⟩ ids ops (launch h target res) := fun _ hl =>
  .goOn (a := .created res) rfl rfl hl

theorem leadsAs_act (env : CycleEnv) (n : Nat) (h : Host) (ids : List Int) (ops : List Op) :
    ∀ a : ReconcileAction TargetApp, LeadsAs ⟨h, .updating ids (a.ops ++ ops)⟩ ids ops (act env n h a)
  | .create image => leadsAs_create h ids image ops (env.created n)
  | .update index targetImage =>
    leadsAs_andThen (leadsAs_remove h ids index (.create targetImage :: ops) (env.removal n))
      (fun h' => leadsAs_create h' ids targetImage ops (env.created n))
  | .remove index => leadsAs_remove h ids index ops (env.removal n)

theorem leadsAs_actAll (env : CycleEnv) (ids : List Int) : ∀ (as : List (ReconcileAction TargetApp)) (n : Nat) (h : Host),
    LeadsAs ⟨h, .updating ids (as.flatMap ReconcileAction.ops)⟩ ids [] (actAll env n as h)
  | [], _, h => fun _ hl => Option.some.inj hl ▸ .refl _
  | a :: as, n, h => by
    rw [List.flatMap_cons]
    exact leadsAs_andThen (leadsAs_act env n h ids _ a) (fun h' => leadsAs_actAll env ids as (n + 1) h')

/-- **The steps of an undisturbed cycle lead where `try_update` does.** -/
theorem cycle_steps (env : CycleEnv) (h : Host) (hend : (tryUpdate env h).ended ≠ .pending) :
    Leads ⟨h, .tick⟩ ⟨(tryUpdate env h).host, .tick⟩ := by
  have hbegin : Leads ⟨h, .tick⟩ ⟨h, .fetching⟩ := .step .tick rfl
  have hpanic := (cycle_converges env h).1
  cases hp : env.pulled with
  | error e =>
    rw [tryUpdate_error env h e hp]
    cases ht : env.targets with
    | error e' => exact hbegin.trans (.step (.fetched (.error e')) rfl)
    | ok configs =>
      refine hbegin.trans (.trans (.step (.fetched (.ok configs)) rfl) (.step (.pulled env.image) ?_))
      have hm : configs.mapM (TargetApp.fromConfig env.image) = .error e := by
        unfold CycleEnv.pulled at hp
        rwa [ht] at hp
      simp only [AppLoop.step, hm]
  | ok targets =>
    obtain ⟨configs, ht, hhost, -, hres⟩ := tryUpdate_ok env h targets hp
    have hm : configs.mapM (TargetApp.fromConfig env.image) = .ok targets := by
      unfold CycleEnv.pulled at hp
      rwa [ht] at hp
    rw [hhost]
    refine hbegin.trans (.trans (.step (.fetched (.ok configs)) rfl)
      (.trans (.step (.pulled env.image) (pulled_step false h hm)) ?_))
    have hacted := leadsAs_actAll env (configs.map AppsGetResponseItem.id) (reconcile h.apps targets) 0 h.sorted
    rw [show actAll env 0 (reconcile h.apps targets) h.sorted = env.acted h targets from rfl] at hacted
    cases hended : (env.acted h targets).ended with
    | ok =>
      refine (hacted _ (by simp only [AppLoop.goOn, hended]; rfl)).trans (.trans (.step .start rfl) ?_)
      cases hr : env.reported with
      | error e => exact .step (.reported (.error e)) rfl
      | ok u => exact .trans (.step (.reported (.ok u)) rfl) (.step (.pruned env.pruned) rfl)
    | failed e => exact hacted _ (by simp only [AppLoop.goOn, hended])
    | pending =>
      rcases hres with ⟨-, heq, -⟩ | ⟨hok, -⟩
      · exact absurd (heq.trans hended) hend
      · rw [hended] at hok
        cases hok
    | panicked =>
      rcases hres with ⟨-, heq, -⟩ | ⟨hok, -⟩
      · exact absurd (heq.trans hended) hpanic
      · rw [hended] at hok
        cases hok

/-! ## What a cycle has left to start -/

/-- The next step starts an operation. -/
def AppLoop.starts (l : AppLoop) : Bool :=
  match l.task with
  | .updating _ (_ :: _) => true
  | _ => false

def Op.possible (h : Host) : Op → Bool
  | .create _ => true
  | .remove index => decide (index < h.apps.length)

/-- The cycle under way can still start an operation. -/
def AppLoop.unfinished (l : AppLoop) : Bool :=
  match l.task with
  | .tick => false
  | .fetching => true
  | .pulling configs => !configs.isEmpty || !l.host.apps.isEmpty
  | .updating _ ops => !ops.isEmpty
  | .operating _ op ops => op.possible l.host && !ops.isEmpty
  | .reporting _ => false
  | .pruning => false

theorem unfinished_of_starts {l : AppLoop} (h : l.starts = true) : l.unfinished = true := by
  unfold AppLoop.starts at h
  split at h
  · rename_i ht
    rw [AppLoop.unfinished, ht]
    rfl
  · cases h

theorem not_possible {h : Host} {index : Nat} {r : Removal} (hn : (Op.remove index).possible h = false) :
    (removeAt h index r).ended = .panicked := by
  have hnone : swapRemove h.apps index = none := by
    unfold swapRemove
    rw [List.getElem?_eq_none (Nat.le_of_not_lt (of_decide_eq_false hn))]
  unfold removeAt
  split
  · rfl
  · rename_i hs
    rw [hnone] at hs
    cases hs

theorem goOn_finished {ids : List Int} {ops : List Op} {o : Outcome} {l : AppLoop}
    (h : AppLoop.goOn ids ops o = some l) (hops : o.ended = .panicked ∨ ops = []) : l.unfinished = false := by
  rcases hops with hp | rfl
  · simp only [AppLoop.goOn, hp] at h
    cases h
  unfold AppLoop.goOn at h
  split at h
  · exact Option.some.inj h ▸ rfl
  · exact Option.some.inj h ▸ rfl
  · cases h
  · cases h

/-- **A frozen loop begins no cycle, and one that has nothing left to start finds nothing more.** -/
theorem finished_step {l l' : AppLoop} {a : AppAction} (hl : l.unfinished = false) (h : l.step true a = some l') :
    l'.unfinished = false := by
  obtain ⟨host, task⟩ := l
  cases task with
  | tick =>
    cases a with
    | tick => exact Option.some.inj h ▸ rfl
    | _ => cases h
  | fetching => cases hl
  | pulling configs =>
    cases a with
    | pulled image =>
      simp only [AppLoop.unfinished, Bool.or_eq_false_iff, Bool.not_eq_false', List.isEmpty_iff] at hl
      obtain ⟨rfl, happs⟩ := hl
      simp only [AppLoop.step, List.mapM_nil, pure, Except.pure, happs] at h
      exact Option.some.inj h ▸ rfl
    | _ => cases h
  | updating ids ops =>
    cases ops with
    | nil =>
      cases a with
      | start => exact Option.some.inj h ▸ rfl
      | _ => cases h
    | cons op ops => cases hl
  | operating ids op ops =>
    simp only [AppLoop.unfinished, Bool.and_eq_false_iff, Bool.not_eq_false', List.isEmpty_iff] at hl
    cases op with
    | create target =>
      cases a with
      | created res => exact goOn_finished h (hl.imp_left (fun h => nomatch h))
      | _ => cases h
    | remove index =>
      cases a with
      | removed r => exact goOn_finished h (hl.imp_left not_possible)
      | _ => cases h
  | reporting ids =>
    cases a with
    | reported res => cases res <;> exact Option.some.inj h ▸ rfl
    | _ => cases h
  | pruning =>
    cases a with
    | pruned res => exact Option.some.inj h ▸ rfl
    | _ => cases h

/-- Where there is an application or a config, some answer of the registry leaves an action. -/
theorem exists_reconcile (apps : List Application) (configs : List AppsGetResponseItem)
    (h : configs ≠ [] ∨ apps ≠ []) : ∃ image targets, configs.mapM (TargetApp.fromConfig image) = .ok targets ∧
      reconcile apps targets ≠ [] := by
  -- every image is answered with a digest that no application has
  obtain ⟨digest, hd⟩ := Infinite.exists_notMem_finset (apps.map Application.imageDigest).toFinset
  rw [List.mem_toFinset] at hd
  refine ⟨_, _, mapM_fromConfig digest configs, ?_⟩
  generalize htargets : configs.map _ = targets
  have hdigest : ∀ t ∈ targets, t.image.digest = digest := fun t ht => by
    rw [← htargets] at ht
    obtain ⟨c, -, rfl⟩ := List.mem_map.1 ht
    rfl
  have hact : ∀ s ∈ cycleSteps apps targets, ∃ a, actionOf s = some a := fun s hs => by
    cases s with
    | left p => exact ⟨_, rfl⟩
    | right t => exact ⟨_, rfl⟩
    | both p t =>
      have hp : p.1.imageDigest ∈ apps.map Application.imageDigest :=
        List.mem_map_of_mem ((mem_sortByReference apps p.1).1 (mem_of_left hs rfl))
      have ht : t.image.digest = digest := hdigest t ((mem_sortByReference targets t).1 (mem_of_right hs rfl))
      refine ⟨.update p.2 t, ?_⟩
      have hdiff : differs p.1 t = true := by
        have hne : PodmanImageInfo.digest p.1 ≠ PodmanImageInfo.digest t := fun heq => by
          rw [show p.1.imageDigest = t.image.digest from heq, ht] at hp
          exact hd hp
        rw [differs, decide_eq_true hne, Bool.true_or]
      rw [actionOf, if_pos hdiff]
  obtain ⟨s, hs⟩ : ∃ s, s ∈ cycleSteps apps targets := by
    rcases h with hc | ha
    · obtain ⟨t, ht⟩ := List.exists_mem_of_ne_nil targets (by rw [← htargets]; simpa using hc)
      obtain ⟨s, hs, -⟩ := (exists_right (sortByReference apps) (sortByReference targets) t).2
        ((mem_sortByReference targets t).2 ht)
      exact ⟨s, hs⟩
    · obtain ⟨a, ha⟩ := List.exists_mem_of_ne_nil apps ha
      obtain ⟨i, hi⟩ := List.mem_iff_getElem?.1 ((mem_sortByReference apps a).2 ha)
      obtain ⟨s, hs, -⟩ := (exists_left (sortByReference apps) (sortByReference targets) (a, i)).2 hi
      exact ⟨s, hs⟩
  obtain ⟨a, ha⟩ := hact s hs
  exact List.ne_nil_of_mem ((mem_reconcile apps targets a).2 ⟨s, hs, ha⟩)

theorem flatMap_ops_ne_nil {as : List (ReconcileAction TargetApp)} (h : as ≠ []) :
    as.flatMap ReconcileAction.ops ≠ [] := by
  obtain ⟨a, as, rfl⟩ := List.exists_cons_of_ne_nil h
  rw [List.flatMap_cons]
  cases a <;> exact List.cons_ne_nil _ _

theorem starts_updating {host : Host} {ids : List Int} {ops : List Op} (h : ops ≠ []) :
    (AppLoop.mk host (.updating ids ops)).starts = true := by
  obtain ⟨op, ops, rfl⟩ := List.exists_cons_of_ne_nil h
  rfl

/-- The answers with which the cycle under way comes to start an operation. -/
theorem exists_start_pulling (frozen : Bool) (host : Host) (configs : List AppsGetResponseItem)
    (h : configs ≠ [] ∨ host.apps ≠ []) : ∃ as l, run (AppLoop.step frozen) ⟨host, .pulling configs⟩ as = some l ∧
      l.starts = true := by
  obtain ⟨image, targets, hm, hne⟩ := exists_reconcile host.apps configs h
  exact ⟨[.pulled image], _, (Runs.run_cons_eq_some ..).2 ⟨_, pulled_step frozen host hm, rfl⟩,
    starts_updating (flatMap_ops_ne_nil hne)⟩

/-- **A cycle that has something left to do can come to do it**, whether or not the flag is up. -/
theorem exists_start (frozen : Bool) {l : AppLoop} (hl : l.unfinished = true) :
    ∃ as l', run (AppLoop.step frozen) l as = some l' ∧ l'.starts = true := by
  obtain ⟨host, task⟩ := l
  cases task with
  | tick => cases hl
  | reporting ids => cases hl
  | pruning => cases hl
  | fetching =>
    obtain ⟨as, l', hr, hs⟩ := exists_start_pulling frozen host [⟨0, 0, [], none⟩] (.inl (List.cons_ne_nil _ _))
    exact ⟨.fetched (.ok [⟨0, 0, [], none⟩]) :: as, l', (Runs.run_cons_eq_some ..).2 ⟨_, rfl, hr⟩, hs⟩
  | pulling configs =>
    refine exists_start_pulling frozen host configs ?_
    simpa [AppLoop.unfinished] using hl
  | updating ids ops => exact ⟨[], _, rfl, starts_updating (by simpa [AppLoop.unfinished] using hl)⟩
  | operating ids op ops =>
    obtain ⟨hp, hops⟩ : op.possible host = true ∧ ops ≠ [] := by simpa [AppLoop.unfinished] using hl
    obtain ⟨a, o, ha, hok⟩ : ∃ a o, (AppLoop.mk host (.operating ids op ops)).step frozen a = AppLoop.goOn ids ops o ∧
        o.ended = .ok := by
      cases op with
      | create target => exact ⟨.created (.ok ()), launch host target (.ok ()), rfl, rfl⟩
      | remove index =>
        refine ⟨.removed ((calm []).removal 0), removeAt host index ((calm []).removal 0), rfl, ?_⟩
        obtain ⟨app, rest, hs⟩ : ∃ app rest, swapRemove host.apps index = some (app, rest) := by
          unfold swapRemove
          rw [List.getElem?_eq_getElem (of_decide_eq_true hp)]
          exact ⟨_, _, rfl⟩
        obtain ⟨hrest, heq⟩ := removeAt_eq host index ((calm []).removal 0) app rest hs
        rw [heq]
        rfl
    refine ⟨[a], ⟨o.host, .updating ids ops⟩, (Runs.run_cons_eq_some ..).2 ⟨_, ?_, rfl⟩, starts_updating hops⟩
    rw [ha]
    simp only [AppLoop.goOn, hok]

end Apps
end ZeroDowntime
