import ZeroDowntime.AppLoop
/-!
# AppReports — what the applications are when a cycle reports

A cycle reports the ids it has fetched, and only after the last of its operations has succeeded.  Its invariant: the
operations that are still to come, if they succeed, leave one application for each of those ids (`Comes`).  Failed cycles,
frozen ticks and restarts may come before (`report_exact`).  What the loop holds comes from its targets (`AppLoop.All`).
-/
namespace ZeroDowntime
namespace Apps

open Lifecycle (Error)
open Runs (run)

/-! ## The operations that are to come -/

/-- The applications the operations leave if each succeeds, with no account of their containers. -/
def leftBy : List Op → List Application → Option (List Application)
  | [], apps => some apps
  | .create t :: ops, apps => leftBy ops (apps ++ [t.application 0])
  | .remove i :: ops, apps => (swapRemove apps i).bind fun r => leftBy ops r.2

theorem swapRemove_map {α β : Type} (f : α → β) (l : List α) (i : Nat) :
    swapRemove (l.map f) i = (swapRemove l i).map (fun r => (f r.1, r.2.map f)) := by
  unfold swapRemove
  rw [List.getElem?_map]
  cases hi : l[i]? with
  | none => rfl
  | some a =>
    simp only [Option.map_some, List.getLast?_map, List.map_dropLast, List.map_set]
    cases l.getLast? <;> rfl

theorem leftBy_launch {h : Host} {t : TargetApp} {res : Except Error Unit} (hok : (launch h t res).ended = .ok)
    (ops : List Op) : leftBy (.create t :: ops) (h.apps.map Application.bare) =
      leftBy ops ((launch h t res).host.apps.map Application.bare) := by
  unfold launch at hok ⊢
  cases res with
  | error e => cases hok
  | ok u =>
    show _ = leftBy ops ((h.apps ++ [t.application h.next]).map Application.bare)
    rw [List.map_append]
    rfl

theorem leftBy_removeAt {h : Host} {i : Nat} {r : Removal} (hok : (removeAt h i r).ended = .ok) (ops : List Op) :
    leftBy (.remove i :: ops) (h.apps.map Application.bare) =
      leftBy ops ((removeAt h i r).host.apps.map Application.bare) := by
  rw [leftBy, swapRemove_map]
  cases hs : swapRemove h.apps i with
  | none =>
    unfold removeAt at hok
    split at hok
    · cases hok
    · rename_i hs'
      rw [hs] at hs'
      cases hs'
  | some p =>
    obtain ⟨hrest, heq⟩ := removeAt_eq h i r p.1 p.2 hs
    rw [heq] at hok ⊢
    cases hr : r.ended with
    | returned d => rfl
    | failed e =>
      rw [hr] at hok
      cases hok
    | pending =>
      rw [hr] at hok
      cases hok

theorem leftBy_act (env : CycleEnv) (n : Nat) (h : Host) (ops : List Op) : ∀ a : ReconcileAction TargetApp,
    (act env n h a).ended = .ok → leftBy (a.ops ++ ops) (h.apps.map Application.bare) =
      leftBy ops ((act env n h a).host.apps.map Application.bare)
  | .create _, hok => leftBy_launch hok ops
  | .remove _, hok => leftBy_removeAt hok ops
  | .update i t, hok => by
    by_cases hrem : (removeAt h i (env.removal n)).ended = .ok
    · simp only [act] at hok ⊢
      rw [andThen_of_ok _ _ hrem] at hok ⊢
      exact (leftBy_removeAt hrem (.create t :: ops)).trans (leftBy_launch hok ops)
    · rw [act, andThen_of_ne_ok _ _ hrem] at hok
      exact absurd hok hrem

/-- **Actions that go through leave what their operations leave.** -/
theorem leftBy_actAll (env : CycleEnv) : ∀ (as : List (ReconcileAction TargetApp)) (n : Nat) (h : Host),
    (actAll env n as h).ended = .ok → leftBy (as.flatMap ReconcileAction.ops) (h.apps.map Application.bare) =
      some ((actAll env n as h).host.apps.map Application.bare)
  | [], _, _, _ => rfl
  | a :: as, n, h, hok => by
    by_cases ha : (act env n h a).ended = .ok
    · rw [actAll, andThen_of_ok _ _ ha] at hok ⊢
      rw [List.flatMap_cons, leftBy_act env n h _ a ha]
      exact leftBy_actAll env as (n + 1) _ hok
    · rw [actAll, andThen_of_ne_ok _ _ ha] at hok
      exact absurd hok ha

/-- The operations lead to one application for each of the ids. -/
def Comes (ids : List Int) (ops : List Op) (apps : List Application) : Prop :=
  ∃ left, leftBy ops (apps.map Application.bare) = some left ∧
    (left.map Application.applicationConfigId).Perm (ids.map some)

/-- The operations of a fresh cycle do. -/
theorem comes_reconcile (h : Host) {image : Reference → Except Error (Option Image)}
    {configs : List AppsGetResponseItem} {targets : List TargetApp}
    (hm : configs.mapM (TargetApp.fromConfig image) = .ok targets) :
    Comes (configs.map AppsGetResponseItem.id) ((reconcile h.apps targets).flatMap ReconcileAction.ops) h.sorted.apps := by
  have hs := acted_served (calm configs) h targets
  have hok := hs.complete (calm_faultless configs).toActionsSucceed
  refine ⟨_, leftBy_actAll (calm configs) (reconcile h.apps targets) 0 h.sorted hok, ?_⟩
  have hperm := (perm_identity _ _ _ (hs.result hok)).map (fun k : Reference × String × Option Int => k.2.2)
  rw [List.map_map, List.map_map] at hperm
  rw [← pulled_ids image configs targets hm, List.map_map, List.map_map]
  exact hperm

/-! ## The loop -/

def AppLoop.Exact (l : AppLoop) : Prop :=
  match l.task with
  | .updating ids ops => Comes ids ops l.host.apps
  | .operating ids op ops => Comes ids (op :: ops) l.host.apps
  | .reporting ids => Comes ids [] l.host.apps
  | _ => True

theorem exact_goOn {ids : List Int} {op : Op} {ops : List Op} {h : Host} {o : Outcome} {l : AppLoop}
    (hc : Comes ids (op :: ops) h.apps) (ho : AppLoop.goOn ids ops o = some l)
    (hleft : o.ended = .ok → leftBy (op :: ops) (h.apps.map Application.bare) =
      leftBy ops (o.host.apps.map Application.bare)) : l.Exact := by
  unfold AppLoop.goOn at ho
  split at ho
  · rename_i hok
    obtain rfl := Option.some.inj ho
    obtain ⟨left, hl, hperm⟩ := hc
    exact ⟨left, (hleft hok).symm.trans hl, hperm⟩
  · exact Option.some.inj ho ▸ trivial
  · cases ho
  · cases ho

theorem AppLoop.Exact.step {frozen : Bool} {l l' : AppLoop} {a : AppAction} (h : l.Exact)
    (hs : l.step frozen a = some l') : l'.Exact := by
  obtain ⟨host, task⟩ := l
  cases task with
  | tick =>
    cases a with
    | tick =>
      cases frozen with
      | true => exact Option.some.inj hs ▸ trivial
      | false => exact Option.some.inj hs ▸ trivial
    | _ => cases hs
  | fetching =>
    cases a with
    | fetched answer => cases answer <;> exact Option.some.inj hs ▸ trivial
    | _ => cases hs
  | pulling configs =>
    cases a with
    | pulled image =>
      cases hm : configs.mapM (TargetApp.fromConfig image) with
      | error e =>
        simp only [AppLoop.step, hm] at hs
        exact Option.some.inj hs ▸ trivial
      | ok targets =>
        rw [pulled_step frozen host hm] at hs
        exact Option.some.inj hs ▸ comes_reconcile host hm
    | _ => cases hs
  | updating ids ops =>
    cases ops with
    | nil =>
      cases a with
      | start => exact Option.some.inj hs ▸ h
      | _ => cases hs
    | cons op ops =>
      cases a with
      | start => exact Option.some.inj hs ▸ h
      | _ => cases hs
  | operating ids op ops =>
    cases op with
    | create t =>
      cases a with
      | created res => exact exact_goOn h hs (fun hok => leftBy_launch hok ops)
      | _ => cases hs
    | remove i =>
      cases a with
      | removed r => exact exact_goOn h hs (fun hok => leftBy_removeAt hok ops)
      | _ => cases hs
  | reporting ids =>
    cases a with
    | reported res => cases res <;> exact Option.some.inj hs ▸ trivial
    | _ => cases hs
  | pruning =>
    cases a with
    | pruned res => exact Option.some.inj hs ▸ trivial
    | _ => cases hs

theorem AppLoop.Exact.reported {l : AppLoop} (h : l.Exact) {ids : List Int} (ht : l.task = .reporting ids) :
    (l.host.apps.map Application.applicationConfigId).Perm (ids.map some) := by
  obtain ⟨host, task⟩ := l
  obtain rfl : task = .reporting ids := ht
  obtain ⟨left, hleft, hperm⟩ := h
  obtain rfl := Option.some.inj hleft
  rwa [List.map_map] at hperm

/-- A step of the loop, with the flag as it is read there, or a new process that finds the containers of podman. -/
inductive ProcessAction
  | app (osUpgradeInProgress : Bool) (a : AppAction)
  | restart

def AppLoop.restarted (l : AppLoop) : AppLoop := ⟨.start l.host.containers, .tick⟩

def AppLoop.processStep (l : AppLoop) : ProcessAction → Option AppLoop
  | .app osUpgradeInProgress a => l.step osUpgradeInProgress a
  | .restart => some l.restarted

/-- **Whenever the loop reports, the ids it sends are those of the applications it holds**, one for one: after any failures,
frozen ticks and restarts, and whatever the API answered. -/
theorem report_exact (found : List Container) (as : List ProcessAction) (l : AppLoop) (ids : List Int)
    (hr : run AppLoop.processStep ⟨.start found, .tick⟩ as = some l) (ht : l.task = .reporting ids) :
    (l.host.apps.map Application.applicationConfigId).Perm (ids.map some) := by
  refine AppLoop.Exact.reported ?_ ht
  refine Runs.run_invariant (I := AppLoop.Exact) (fun l a l' h hs => ?_)
    (show AppLoop.Exact ⟨.start found, .tick⟩ from trivial) hr
  cases a with
  | app frozen a => exact h.step hs
  | restart => exact Option.some.inj hs ▸ trivial

/-- The second application is created after a cycle that failed to. -/
def failedOnce : List ProcessAction :=
  let configs : List AppsGetResponseItem := [⟨1, 1, "registry/app:1".toList, none⟩]
  [.app false .tick, .app false (.fetched (.ok configs)), .app false (.pulled (calm []).image), .app false .start,
    .app false (.created (.error "name in use")), .restart, .app true .tick, .app false .tick,
    .app false (.fetched (.ok configs)), .app false (.pulled (calm []).image), .app false .start,
    .app false (.created (.ok ())), .app false .start]

def failedOnceLoop : AppLoop := (run AppLoop.processStep ⟨.start [], .tick⟩ failedOnce).getD ⟨.start [], .tick⟩

theorem failedOnce_run : run AppLoop.processStep ⟨.start [], .tick⟩ failedOnce = some failedOnceLoop := rfl

theorem failedOnce_reports : (failedOnceLoop.host.apps.map Application.applicationConfigId).Perm ([1].map some) :=
  report_exact [] failedOnce failedOnceLoop [1] failedOnce_run rfl

/-! ## Where what the loop holds comes from -/

/-- The container of an item, but for what the image was inspected to be. -/
structure Container.Runs (c : Container) (item : AppsGetResponseItem) : Prop where
  name : c.name = deriveName item.image
  env : c.env = (item.config.bind ContainerConfigV1.environment).getD []
  applicationId : c.applicationId = some item.applicationId
  applicationConfigId : c.applicationConfigId = some item.id

/-- It was found when the device was first started, or made for an item that meets `Q`. -/
def Known (found : List Container) (Q : AppsGetResponseItem → Prop) (c : Container) : Prop :=
  c ∈ found ∨ ∃ item, Q item ∧ c.Runs item

structure Host.All (P : Container → Prop) (h : Host) : Prop where
  containers : ∀ c ∈ h.containers, P c
  apps : ∀ a ∈ h.apps, ∃ c, P c ∧ a = .wrap c

def Op.All (P : Container → Prop) : Op → Prop
  | .create t => ∀ id, P (t.container id)
  | .remove _ => True

variable {found : List Container} {Q Q' : AppsGetResponseItem → Prop}

def AppTask.All (found : List Container) (Q : AppsGetResponseItem → Prop) : AppTask → Prop
  | .tick => True
  | .fetching => True
  | .pulling configs => ∀ c ∈ configs, Q c
  | .updating ids ops => (∀ id ∈ ids, ∃ c, Q c ∧ c.id = id) ∧ ∀ op ∈ ops, op.All (Known found Q)
  | .operating ids op ops => (∀ id ∈ ids, ∃ c, Q c ∧ c.id = id) ∧ ∀ op' ∈ op :: ops, op'.All (Known found Q)
  | .reporting ids => ∀ id ∈ ids, ∃ c, Q c ∧ c.id = id
  | .pruning => True

/-- Everything on the device was found or comes from items that meet `Q`, and so does what its loop is about to do. -/
structure AppLoop.All (found : List Container) (Q : AppsGetResponseItem → Prop) (l : AppLoop) : Prop where
  host : l.host.All (Known found Q)
  task : l.task.All found Q

theorem Known.imp (hq : ∀ c, Q c → Q' c) {c : Container} (h : Known found Q c) : Known found Q' c :=
  h.imp_right (fun ⟨item, hi, hr⟩ => ⟨item, hq item hi, hr⟩)

theorem Op.All.imp {P P' : Container → Prop} (hp : ∀ c, P c → P' c) : ∀ {op : Op}, op.All P → op.All P'
  | .create _, h => fun id => hp _ (h id)
  | .remove _, _ => trivial

theorem AppLoop.All.imp {l : AppLoop} (h : l.All found Q) (hq : ∀ c, Q c → Q' c) : l.All found Q' := by
  have hknown : ∀ c, Known found Q c → Known found Q' c := fun _ => Known.imp hq
  have hids : ∀ {ids : List Int}, (∀ id ∈ ids, ∃ c, Q c ∧ c.id = id) → ∀ id ∈ ids, ∃ c, Q' c ∧ c.id = id :=
    fun h id hid => (h id hid).imp (fun c hc => ⟨hq c hc.1, hc.2⟩)
  refine ⟨⟨fun c hc => hknown c (h.host.containers c hc), fun a ha => ?_⟩, ?_⟩
  · obtain ⟨c, hc, rfl⟩ := h.host.apps a ha
    exact ⟨c, hknown c hc, rfl⟩
  · obtain ⟨host, task⟩ := l
    have ht := h.task
    cases task with
    | tick => trivial
    | fetching => trivial
    | pulling configs => exact fun c hc => hq c (ht c hc)
    | updating ids ops => exact ⟨hids ht.1, fun op hop => (ht.2 op hop).imp hknown⟩
    | operating ids op ops => exact ⟨hids ht.1, fun op' hop => (ht.2 op' hop).imp hknown⟩
    | reporting ids => exact hids ht
    | pruning => trivial

theorem all_start (found : List Container) (Q : AppsGetResponseItem → Prop) : AppLoop.All found Q ⟨.start found, .tick⟩ where
  host :=
    { containers := fun _ hc => .inl hc
      apps := fun a ha => by
        obtain ⟨c, hc, rfl⟩ := List.mem_map.1 ha
        exact ⟨c, .inl hc, rfl⟩ }
  task := trivial

theorem AppLoop.All.restarted {l : AppLoop} (h : l.All found Q) : l.restarted.All found Q where
  host :=
    { containers := h.host.containers
      apps := fun a ha => by
        obtain ⟨c, hc, rfl⟩ := List.mem_map.1 ha
        exact ⟨c, h.host.containers c hc, rfl⟩ }
  task := trivial

theorem runs_of_fromConfig {image : Reference → Except Error (Option Image)} {c : AppsGetResponseItem} {t : TargetApp}
    (h : TargetApp.fromConfig image c = .ok t) (id : Nat) : (t.container id).Runs c := by
  unfold TargetApp.fromConfig at h
  split at h
  · cases h
  · cases h
  · obtain rfl := Except.ok.inj h
    exact ⟨rfl, rfl, rfl, rfl⟩

theorem mem_pulled {image : Reference → Except Error (Option Image)} : ∀ {configs : List AppsGetResponseItem}
    {targets : List TargetApp}, configs.mapM (TargetApp.fromConfig image) = .ok targets → ∀ t ∈ targets,
      ∃ c ∈ configs, TargetApp.fromConfig image c = .ok t
  | [], targets, h, t, ht => by
    simp only [List.mapM_nil, pure, Except.pure, Except.ok.injEq] at h
    subst h
    exact absurd ht List.not_mem_nil
  | c :: configs, targets, h, t, ht => by
    simp only [List.mapM_cons, bind, Except.bind] at h
    cases hc : TargetApp.fromConfig image c with
    | error e =>
      rw [hc] at h
      cases h
    | ok t₀ =>
      rw [hc] at h
      cases hm : configs.mapM (TargetApp.fromConfig image) with
      | error e =>
        rw [hm] at h
        cases h
      | ok ts =>
        rw [hm] at h
        obtain rfl := Except.ok.inj h
        rcases List.mem_cons.1 ht with rfl | ht
        · exact ⟨c, List.mem_cons_self, hc⟩
        · obtain ⟨c', hc', heq⟩ := mem_pulled hm t ht
          exact ⟨c', List.mem_cons_of_mem _ hc', heq⟩

/-- Only targets are created. -/
theorem mem_targets_of_create {apps : List Application} {targets : List TargetApp} {t : TargetApp}
    (h : Op.create t ∈ (reconcile apps targets).flatMap ReconcileAction.ops) : t ∈ targets := by
  obtain ⟨a, ha, hop⟩ := List.mem_flatMap.1 h
  obtain ⟨s, hs, hact⟩ := (mem_reconcile apps targets a).1 ha
  have hright : ∀ t', s.right? = some t' → t' ∈ targets := fun t' ht' =>
    (mem_sortByReference targets t').1 (mem_of_right hs ht')
  cases s with
  | left p =>
    obtain rfl := Option.some.inj hact
    simp [ReconcileAction.ops] at hop
  | right t' =>
    obtain rfl := Option.some.inj hact
    obtain rfl : t = t' := by simpa [ReconcileAction.ops] using hop
    exact hright t rfl
  | both p t' =>
    simp only [actionOf] at hact
    split at hact
    · obtain rfl := Option.some.inj hact
      obtain rfl : t = t' := by simpa [ReconcileAction.ops] using hop
      exact hright t rfl
    · cases hact

theorem Host.All.removeAt {P : Container → Prop} {h : Host} (hh : h.All P) (i : Nat) (r : Removal) :
    (removeAt h i r).host.All P := by
  have hdrop : ∀ (app : Application) (rest : List Application) (hrest : ∀ a ∈ rest, a ∈ h.apps) (d : Bool),
      (h.drop app rest hrest d).All P := fun app rest hrest d =>
    ⟨fun c hc => hh.containers c (by
      simp only [Host.drop] at hc
      split at hc
      · exact List.mem_of_mem_filter hc
      · exact hc), fun a ha => hh.apps a (hrest a ha)⟩
  cases hs : swapRemove h.apps i with
  | none =>
    unfold Apps.removeAt
    split
    · exact hh
    · rename_i hs'
      rw [hs] at hs'
      cases hs'
  | some p =>
    obtain ⟨hrest, heq⟩ := removeAt_eq h i r p.1 p.2 hs
    rw [heq]
    cases r.ended with
    | returned d => exact hdrop p.1 p.2 hrest d
    | failed e => exact hdrop p.1 p.2 hrest false
    | pending => exact hdrop p.1 p.2 hrest false

theorem Host.All.launch {P : Container → Prop} {h : Host} (hh : h.All P) {t : TargetApp} (ht : ∀ id, P (t.container id))
    (res : Except Error Unit) : (launch h t res).host.All P := by
  unfold Apps.launch
  cases res with
  | error e => exact hh
  | ok u =>
    refine ⟨fun c hc => ?_, fun a ha => ?_⟩
    · rcases List.mem_append.1 hc with hc | hc
      · exact hh.containers c hc
      · exact List.mem_singleton.1 hc ▸ ht h.next
    · rcases List.mem_append.1 ha with ha | ha
      · exact hh.apps a ha
      · exact ⟨t.container h.next, ht h.next, List.mem_singleton.1 ha⟩

theorem all_goOn {ids : List Int} {ops : List Op} {o : Outcome} {l : AppLoop} (ho : AppLoop.goOn ids ops o = some l)
    (hhost : o.host.All (Known found Q)) (htask : (AppTask.updating ids ops).All found Q) : l.All found Q := by
  unfold AppLoop.goOn at ho
  split at ho
  · exact Option.some.inj ho ▸ ⟨hhost, htask⟩
  · exact Option.some.inj ho ▸ ⟨hhost, trivial⟩
  · cases ho
  · cases ho

/-- **Nothing comes onto the device but what was fetched.** -/
theorem AppLoop.All.step {frozen : Bool} {l l' : AppLoop} {a : AppAction} (h : l.All found Q)
    (hs : l.step frozen a = some l') (hfetched : ∀ configs, a = .fetched (.ok configs) → ∀ c ∈ configs, Q c) :
    l'.All found Q := by
  obtain ⟨host, task⟩ := l
  obtain ⟨hhost, htask⟩ := h
  cases task with
  | tick =>
    cases a with
    | tick =>
      cases frozen with
      | true => exact Option.some.inj hs ▸ ⟨hhost, trivial⟩
      | false => exact Option.some.inj hs ▸ ⟨hhost, trivial⟩
    | _ => cases hs
  | fetching =>
    cases a with
    | fetched answer =>
      cases answer with
      | error e => exact Option.some.inj hs ▸ ⟨hhost, trivial⟩
      | ok configs => exact Option.some.inj hs ▸ ⟨hhost, hfetched configs rfl⟩
    | _ => cases hs
  | pulling configs =>
    cases a with
    | pulled image =>
      cases hm : configs.mapM (TargetApp.fromConfig image) with
      | error e =>
        simp only [AppLoop.step, hm] at hs
        exact Option.some.inj hs ▸ ⟨hhost, trivial⟩
      | ok targets =>
        rw [pulled_step frozen host hm] at hs
        refine Option.some.inj hs ▸ ⟨⟨hhost.containers, fun a ha => hhost.apps a ((mem_sortByReference _ a).1 ha)⟩,
          fun id hid => ?_, fun op hop => ?_⟩
        · obtain ⟨c, hc, rfl⟩ := List.mem_map.1 hid
          exact ⟨c, htask c hc, rfl⟩
        · cases op with
          | remove i => trivial
          | create t =>
            obtain ⟨c, hc, ht⟩ := mem_pulled hm t (mem_targets_of_create hop)
            exact fun id => .inr ⟨c, htask c hc, runs_of_fromConfig ht id⟩
    | _ => cases hs
  | updating ids ops =>
    cases ops with
    | nil =>
      cases a with
      | start => exact Option.some.inj hs ▸ ⟨hhost, htask.1⟩
      | _ => cases hs
    | cons op ops =>
      cases a with
      | start => exact Option.some.inj hs ▸ ⟨hhost, htask⟩
      | _ => cases hs
  | operating ids op ops =>
    have hrest : (AppTask.updating ids ops).All found Q :=
      ⟨htask.1, fun op' hop => htask.2 op' (List.mem_cons_of_mem _ hop)⟩
    cases op with
    | create t =>
      cases a with
      | created res => exact all_goOn hs (hhost.launch (htask.2 _ List.mem_cons_self) res) hrest
      | _ => cases hs
    | remove i =>
      cases a with
      | removed r => exact all_goOn hs (hhost.removeAt i r) hrest
      | _ => cases hs
  | reporting ids =>
    cases a with
    | reported res => cases res <;> exact Option.some.inj hs ▸ ⟨hhost, trivial⟩
    | _ => cases hs
  | pruning =>
    cases a with
    | pruned res => exact Option.some.inj hs ▸ ⟨hhost, trivial⟩
    | _ => cases hs

end Apps
end ZeroDowntime
