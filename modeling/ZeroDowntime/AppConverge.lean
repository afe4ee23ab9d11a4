import ZeroDowntime.AppCycle
import ZeroDowntime.Arrivals
/-!
# AppConverge — a cycle without faults brings the applications to the targets

The loop reorders and extends the vector it holds indices into.  Its invariant (`actAll_steps`): the applications whose
entries are still to come stand where they stood when the iterator was built, and behind them stand the ones that were
kept and launched so far.
-/
namespace ZeroDowntime
namespace Apps

open Lifecycle (Error)
open MergeJoin (Step lefts rights)

def Application.bare (a : Application) : Application := { a with container := 0 }

theorem imageReference_of_bare {a b : Application} (h : a.bare = b.bare) : a.imageReference = b.imageReference := by
  have := congrArg Application.imageReference h
  exact this

/-- The application a step leaves: the target launched, or the application kept. -/
def left? : Step (Application × Nat) TargetApp → Option Application
  | .left _ => none
  | .right t => some (t.application 0)
  | .both p t => some (if differs p.1 t then t.application 0 else p.1.bare)

def leaves (ss : List (Step (Application × Nat) TargetApp)) : List Application := ss.filterMap left?

@[simp] theorem leaves_left (p : Application × Nat) (ss : List (Step (Application × Nat) TargetApp)) :
    leaves (.left p :: ss) = leaves ss := rfl

@[simp] theorem leaves_right (t : TargetApp) (ss : List (Step (Application × Nat) TargetApp)) :
    leaves (.right t :: ss) = t.application 0 :: leaves ss := rfl

@[simp] theorem leaves_both (p : Application × Nat) (t : TargetApp) (ss : List (Step (Application × Nat) TargetApp)) :
    leaves (.both p t :: ss) = (if differs p.1 t then t.application 0 else p.1.bare) :: leaves ss := rfl

/-- Every call an action makes succeeds, and the containers of removed applications are destroyed. -/
structure CycleEnv.ActionsSucceed (env : CycleEnv) : Prop where
  removal : ∀ n, (env.removal n).ended = .returned true
  created : ∀ n, env.created n = .ok ()

def Event.Succeeded : Event → Prop
  | .removed _ _ (.returned _) => True
  | .removed _ _ _ => False
  | .created _ _ (.ok _) => True
  | .created _ _ (.error _) => False

/-- What executing actions has done whose indices point into `pre`: it stayed inside the vector and removed what stood
there, and if it went through, `R` holds afterwards and no action failed. -/
structure Served (env : CycleEnv) (pre : List Application) (R : Host → Prop) (o : Outcome) : Prop where
  bounds : o.ended ≠ .panicked
  indices : ∀ i a e, Event.removed i a e ∈ o.events → pre[i]? = some a
  result : o.ended = .ok → R o.host
  succeeded : o.ended = .ok → ∀ ev ∈ o.events, ev.Succeeded
  complete : env.ActionsSucceed → o.ended = .ok

theorem andThen_of_ok (o : Outcome) (f : Host → Outcome) (h : o.ended = .ok) :
    o.andThen f = ⟨(f o.host).ended, (f o.host).host, o.events ++ (f o.host).events⟩ := by
  unfold Outcome.andThen
  rw [h]

theorem andThen_of_ne_ok (o : Outcome) (f : Host → Outcome) (h : o.ended ≠ .ok) : o.andThen f = o := by
  unfold Outcome.andThen
  split
  · rename_i hok; exact absurd hok h
  · rfl

theorem Served.imp {env : CycleEnv} {pre pre' : List Application} {R R' : Host → Prop} {o : Outcome}
    (ho : Served env pre' R' o) (hR : ∀ h', R' h' → R h')
    (hpre : ∀ (i : Nat) (a : Application), pre'[i]? = some a → pre[i]? = some a) : Served env pre R o :=
  ⟨ho.bounds, fun i a e hev => hpre i a (ho.indices i a e hev), fun hok => hR _ (ho.result hok), ho.succeeded,
    ho.complete⟩

theorem Served.andThen {env : CycleEnv} {pre pre' : List Application} {R R' : Host → Prop} {o : Outcome}
    {f : Host → Outcome} (ho : Served env pre R o) (hf : ∀ h', R h' → Served env pre' R' (f h'))
    (hpre : ∀ (i : Nat) (a : Application), pre'[i]? = some a → pre[i]? = some a) :
    Served env pre R' (o.andThen f) := by
  by_cases hok : o.ended = .ok
  · rw [andThen_of_ok o f hok]
    have h := hf o.host (ho.result hok)
    refine ⟨h.bounds, fun i a e hev => ?_, h.result, fun he ev hev => ?_, h.complete⟩
    · rcases List.mem_append.1 hev with hev | hev
      · exact ho.indices i a e hev
      · exact hpre i a (h.indices i a e hev)
    · rcases List.mem_append.1 hev with hev | hev
      · exact ho.succeeded hok ev hev
      · exact h.succeeded he ev hev
  · rw [andThen_of_ne_ok o f hok]
    exact ⟨ho.bounds, ho.indices, fun he => absurd he hok, ho.succeeded, ho.complete⟩

theorem removeAt_eq (h : Host) (index : Nat) (r : Removal) (app : Application) (rest : List Application)
    (hs : swapRemove h.apps index = some (app, rest)) : ∃ hrest : ∀ a ∈ rest, a ∈ h.apps,
    removeAt h index r =
      match r.ended with
      | .returned destroyed => ⟨.ok, h.drop app rest hrest destroyed, [.removed index app (.returned destroyed)]⟩
      | .failed e => ⟨.failed e, h.drop app rest hrest false, [.removed index app (.failed e)]⟩
      | .pending => ⟨.pending, h.drop app rest hrest false, [.removed index app .pending]⟩ := by
  refine ⟨fun _ ha => (swapRemove_perm h.apps rest index app hs).symm.subset (List.mem_cons_of_mem _ ha), ?_⟩
  unfold removeAt
  split
  · rename_i hn; rw [hs] at hn; cases hn
  · rename_i app' rest' hs'
    have heq := hs.symm.trans hs'
    simp only [Option.some.injEq, Prod.mk.injEq] at heq
    obtain ⟨rfl, rfl⟩ := heq
    rfl

/-- **Removing the last application whose entry is still to come** leaves those before it in place. -/
theorem served_removeAt (env : CycleEnv) (h : Host) (pre post : List Application) (a : Application) (n : Nat)
    (happs : h.apps = pre ++ a :: post) :
    Served env (pre ++ [a]) (fun h' => h'.apps = pre ++ lastFirst post) (removeAt h pre.length (env.removal n)) := by
  obtain ⟨hrest, heq⟩ := removeAt_eq h pre.length (env.removal n) a (pre ++ lastFirst post)
    (by rw [happs]; exact swapRemove_append pre a post)
  rw [heq]
  have hget : ∀ k i a' e, Event.removed i a' e ∈ [Event.removed pre.length a k] → (pre ++ [a])[i]? = some a' := by
    intro k i a' e hev
    simp only [List.mem_singleton, Event.removed.injEq] at hev
    obtain ⟨rfl, rfl, -⟩ := hev
    simp
  cases hr : (env.removal n).ended with
  | returned d =>
    refine ⟨by simp, hget _, fun _ => rfl, fun _ ev hev => ?_, fun _ => rfl⟩
    rw [List.mem_singleton.1 hev]; trivial
  | failed e =>
    refine ⟨by simp, hget _, fun h => by (cases h), fun h => by (cases h), fun hs => ?_⟩
    rw [hs.removal n] at hr; cases hr
  | pending =>
    refine ⟨by simp, hget _, fun h => by (cases h), fun h => by (cases h), fun hs => ?_⟩
    rw [hs.removal n] at hr; cases hr

theorem served_launch (env : CycleEnv) (h : Host) (pre : List Application) (t : TargetApp) (n : Nat) :
    Served env pre (fun h' => ∃ id, h'.apps = h.apps ++ [t.application id]) (launch h t (env.created n)) := by
  unfold launch
  have hno : ∀ (res : Except Error Unit) i a e,
      Event.removed i a e ∈ [Event.created t (h.apps.map Application.appName) res] → pre[i]? = some a := by
    intro res i a e hev
    rw [List.mem_singleton] at hev; cases hev
  cases hc : env.created n with
  | error e =>
    refine ⟨by simp, hno _, fun h => by (cases h), fun h => by (cases h), fun hs => ?_⟩
    rw [hs.created n] at hc; cases hc
  | ok u =>
    refine ⟨by simp, hno _, fun _ => ⟨h.next, rfl⟩, fun _ ev hev => ?_, fun _ => rfl⟩
    rw [List.mem_singleton.1 hev]; trivial

theorem eq_of_zipIdx_reverse {α : Type} (l : List α) (p : α × Nat) (rest : List (α × Nat))
    (h : p :: rest = l.zipIdx.reverse) : ∃ pre, l = pre ++ [p.1] ∧ p.2 = pre.length ∧ rest = pre.zipIdx.reverse := by
  rcases List.eq_nil_or_concat l with rfl | ⟨pre, a, rfl⟩
  · cases h
  · rw [List.concat_eq_append] at h ⊢
    rw [List.zipIdx_append, List.reverse_append, List.zipIdx_singleton, List.reverse_singleton, List.singleton_append,
      List.cons.injEq] at h
    obtain ⟨rfl, rfl⟩ := h
    exact ⟨pre, rfl, by simp, rfl⟩

/-- **The loop's invariant**, by induction on the steps that are still to come. -/
theorem actAll_steps (env : CycleEnv) : ∀ (ss : List (Step (Application × Nat) TargetApp)) (n : Nat) (h : Host)
    (pre post : List Application), h.apps = pre ++ post → lefts ss = pre.zipIdx.reverse →
    Served env pre (fun h' => (h'.apps.map Application.bare).Perm (post.map Application.bare ++ leaves ss))
      (actAll env n (actionsOf ss) h)
  | [], n, h, pre, post, happs, hl => by
    obtain rfl : pre = [] := by
      cases pre with
      | nil => rfl
      | cons a pre => exact absurd (congrArg List.length hl) (by simp [lefts])
    refine ⟨fun hp => by (cases hp), fun i a e hev => by (cases hev), fun _ => ?_, fun _ ev hev => by (cases hev),
      fun _ => rfl⟩
    show (h.apps.map Application.bare).Perm (post.map Application.bare ++ [])
    rw [happs, List.nil_append, List.append_nil]
  | .left p :: ss, n, h, pre, post, happs, hl => by
    obtain ⟨pre', rfl, hidx, hl'⟩ := eq_of_zipIdx_reverse pre p (lefts ss) hl
    rw [List.append_assoc, List.singleton_append] at happs
    rw [actionsOf_left, actAll, act, hidx]
    refine (served_removeAt env h pre' post p.1 n happs).andThen (fun h' happs' => ?_) (Arrivals.getElem?_concat pre' p.1)
    refine (actAll_steps env ss (n + 1) h' pre' (lastFirst post) happs' hl').imp (fun h'' hperm => hperm.trans ?_)
      (fun _ _ hi => hi)
    exact ((lastFirst_perm post).map _).append_right _
  | .right t :: ss, n, h, pre, post, happs, hl => by
    rw [actionsOf_right, actAll, act]
    refine (served_launch env h pre t n).andThen (fun h' ⟨id, happs'⟩ => ?_) (fun _ _ hi => hi)
    refine (actAll_steps env ss (n + 1) h' pre (post ++ [t.application id]) (by rw [happs', happs, List.append_assoc])
      hl).imp (fun h'' hperm => hperm.trans (List.Perm.of_eq ?_)) (fun _ _ hi => hi)
    rw [List.map_append, List.append_assoc]
    rfl
  | .both p t :: ss, n, h, pre, post, happs, hl => by
    obtain ⟨pre', rfl, hidx, hl'⟩ := eq_of_zipIdx_reverse pre p (lefts ss) hl
    rw [List.append_assoc, List.singleton_append] at happs
    cases hd : differs p.1 t with
    | true =>
      rw [actionsOf_update p t ss hd, actAll, act, hidx]
      refine ((served_removeAt env h pre' post p.1 n happs).andThen (fun h' happs' =>
        (served_launch env h' pre' t n).imp (R := fun h'' => ∃ id, h''.apps = pre' ++ lastFirst post ++ [t.application id])
          (fun h'' ⟨id, hid⟩ => ⟨id, by rw [hid, happs']⟩) (fun _ _ hi => hi)) (Arrivals.getElem?_concat pre' p.1)).andThen
        (fun h' ⟨id, happs'⟩ => ?_) (Arrivals.getElem?_concat pre' p.1)
      refine (actAll_steps env ss (n + 1) h' pre' (lastFirst post ++ [t.application id])
        (by rw [happs', List.append_assoc]) hl').imp (fun h'' hperm => hperm.trans ?_) (fun _ _ hi => hi)
      rw [leaves_both, if_pos hd, List.map_append, List.append_assoc]
      exact ((lastFirst_perm post).map _).append_right _
    | false =>
      rw [actionsOf_keep p t ss hd]
      -- the application is kept, and is from now on one of those behind
      refine (actAll_steps env ss n h pre' (p.1 :: post) happs hl').imp (fun h'' hperm => hperm.trans ?_)
        (Arrivals.getElem?_concat pre' p.1)
      rw [leaves_both, hd, List.map_cons]
      exact List.perm_middle.symm

/-! ## A whole cycle -/

/-- What two applications or targets agree on when the one need not be replaced by the other. -/
def identity {α : Type} [PodmanImageInfo α] (x : α) : Reference × String × Option Int :=
  (repository x, PodmanImageInfo.digest x, PodmanImageInfo.applicationConfigId x)

theorem differs_eq_false (a : Application) (t : TargetApp) (hr : repository a = repository t) :
    differs a t = false ↔ identity a = identity t := by
  simp [differs, identity, hr]

/-- **What the steps leave is what the targets are.** -/
theorem leaves_identity : ∀ (ss : List (Step (Application × Nat) TargetApp)),
    (∀ p t, Step.both p t ∈ ss → repository p.1 = repository t) → (leaves ss).map identity = (rights ss).map identity
  | [], _ => rfl
  | .left p :: ss, h => leaves_identity ss (fun p' t' hm => h p' t' (List.mem_cons_of_mem _ hm))
  | .right t :: ss, h => by
    rw [leaves_right, MergeJoin.rights_right, List.map_cons, List.map_cons,
      leaves_identity ss (fun p' t' hm => h p' t' (List.mem_cons_of_mem _ hm))]
    rfl
  | .both p t :: ss, h => by
    rw [leaves_both, MergeJoin.rights_both, List.map_cons, List.map_cons,
      leaves_identity ss (fun p' t' hm => h p' t' (List.mem_cons_of_mem _ hm))]
    cases hd : differs p.1 t with
    | true => rfl
    | false =>
      have heq := (differs_eq_false p.1 t (h p t List.mem_cons_self)).1 hd
      exact congrArg (· :: _) heq

def CycleEnv.acted (env : CycleEnv) (h : Host) (targets : List TargetApp) : Outcome :=
  actAll env 0 (reconcile h.apps targets) h.sorted

def cycleSteps (apps : List Application) (targets : List TargetApp) : List (Step (Application × Nat) TargetApp) :=
  steps (sortByReference apps) (sortByReference targets)

theorem cycleSteps_both (apps : List Application) (targets : List TargetApp) (p : Application × Nat) (t : TargetApp)
    (h : Step.both p t ∈ cycleSteps apps targets) : repository p.1 = repository t :=
  MergeJoin.key_of_both _ _ _ _ p t h

/-- **The actions of a cycle are served**, and leave the targets. -/
theorem acted_served (env : CycleEnv) (h : Host) (targets : List TargetApp) :
    Served env (sortByReference h.apps)
      (fun h' => (h'.apps.map Application.bare).Perm (leaves (cycleSteps h.apps targets)))
      (env.acted h targets) := by
  unfold CycleEnv.acted reconcile
  rw [actions_new]
  exact actAll_steps env _ 0 h.sorted (sortByReference h.apps) [] (List.append_nil _).symm (lefts_steps _ _)

theorem perm_identity (apps' apps : List Application) (targets : List TargetApp)
    (hp : (apps'.map Application.bare).Perm (leaves (cycleSteps apps targets))) :
    (apps'.map identity).Perm (targets.map identity) := by
  have hbare : apps'.map identity = (apps'.map Application.bare).map identity := by
    rw [List.map_map]; rfl
  rw [hbare]
  refine (hp.map identity).trans ?_
  rw [leaves_identity _ (cycleSteps_both apps targets), cycleSteps, rights_steps]
  exact ((List.reverse_perm _).trans (List.perm_insertionSort _ _)).map identity

theorem pulled_ids (image : Reference → Except Error (Option Image)) : ∀ (configs : List AppsGetResponseItem)
    (targets : List TargetApp), configs.mapM (TargetApp.fromConfig image) = .ok targets →
    targets.map TargetApp.applicationConfigId = configs.map AppsGetResponseItem.id
  | [], targets, h => by
    simp only [List.mapM_nil, pure, Except.pure, Except.ok.injEq] at h
    subst h; rfl
  | c :: configs, targets, h => by
    simp only [List.mapM_cons, bind, Except.bind] at h
    cases hc : TargetApp.fromConfig image c with
    | error e => rw [hc] at h; cases h
    | ok t =>
      rw [hc] at h
      simp only at h
      cases hm : configs.mapM (TargetApp.fromConfig image) with
      | error e => rw [hm] at h; cases h
      | ok ts =>
        rw [hm] at h
        simp only [pure, Except.pure, Except.ok.injEq] at h
        subst h
        rw [List.map_cons, List.map_cons, pulled_ids image configs ts hm]
        unfold TargetApp.fromConfig at hc
        split at hc
        · cases hc
        · cases hc
        · simp only [Except.ok.injEq] at hc
          subst hc; rfl

structure CycleEnv.Faultless (env : CycleEnv) : Prop extends env.ActionsSucceed where
  pulled : ∃ targets, env.pulled = .ok targets
  reported : env.reported = .ok ()
  pruned : env.pruned = .ok ()

theorem tryUpdate_error (env : CycleEnv) (h : Host) (e : Error) (hp : env.pulled = .error e) :
    tryUpdate env h = ⟨⟨.failed e, h, []⟩, none⟩ := by
  unfold tryUpdate
  cases ht : env.targets with
  | error e' =>
    unfold CycleEnv.pulled at hp
    rw [ht] at hp
    simp only [Except.error.injEq] at hp
    rw [hp]
  | ok configs => simp only [hp]

/-- What a cycle adds to its actions: whether it reports, and what its last two calls answer. -/
theorem tryUpdate_ok (env : CycleEnv) (h : Host) (targets : List TargetApp) (hp : env.pulled = .ok targets) :
    ∃ configs, env.targets = .ok configs ∧ (tryUpdate env h).host = (env.acted h targets).host ∧
      (tryUpdate env h).events = (env.acted h targets).events ∧
      (((env.acted h targets).ended ≠ .ok ∧ (tryUpdate env h).ended = (env.acted h targets).ended ∧
          (tryUpdate env h).reported = none) ∨
        ((env.acted h targets).ended = .ok ∧ (tryUpdate env h).ended ≠ .panicked ∧
          (tryUpdate env h).reported = some (configs.map AppsGetResponseItem.id) ∧
          (env.reported = .ok () → env.pruned = .ok () → (tryUpdate env h).ended = .ok))) := by
  cases ht : env.targets with
  | error e =>
    unfold CycleEnv.pulled at hp
    rw [ht] at hp; cases hp
  | ok configs =>
    refine ⟨configs, rfl, ?_⟩
    unfold tryUpdate
    simp only [ht, hp]
    rw [show actAll env 0 (reconcile h.apps targets) h.sorted = env.acted h targets from rfl]
    cases hend : (env.acted h targets).ended with
    | ok =>
      cases hr : env.reported with
      | error e => exact ⟨rfl, rfl, Or.inr ⟨rfl, fun hp => by (cases hp), rfl, fun h => by (cases h)⟩⟩
      | ok u =>
        cases hpr : env.pruned with
        | error e => exact ⟨rfl, rfl, Or.inr ⟨rfl, fun hp => by (cases hp), rfl, fun _ h => by (cases h)⟩⟩
        | ok u => exact ⟨rfl, rfl, Or.inr ⟨rfl, by rw [hend]; simp, rfl, fun _ _ => hend⟩⟩
    | failed e => exact ⟨rfl, rfl, Or.inl ⟨by simp, hend, rfl⟩⟩
    | pending => exact ⟨rfl, rfl, Or.inl ⟨by simp, hend, rfl⟩⟩
    | panicked => exact ⟨rfl, rfl, Or.inl ⟨by simp, hend, rfl⟩⟩

/-- **A cycle stays inside its vector and removes what stood at each index; an action that fails keeps it from
reporting; and without faults it ends with the targets, and reports them.** -/
theorem cycle_converges (env : CycleEnv) (h : Host) :
    (tryUpdate env h).ended ≠ .panicked ∧
      (∀ i a e, Event.removed i a e ∈ (tryUpdate env h).events → (sortByReference h.apps)[i]? = some a) ∧
      ((∃ ev ∈ (tryUpdate env h).events, ¬ ev.Succeeded) → (tryUpdate env h).reported = none) ∧
      (env.Faultless → (tryUpdate env h).ended = .ok ∧
        ∃ targets ids, env.pulled = .ok targets ∧
          ((tryUpdate env h).host.apps.map identity).Perm (targets.map identity) ∧
          (tryUpdate env h).reported = some ids ∧
          (ids.map some).Perm ((tryUpdate env h).host.apps.map Application.applicationConfigId)) := by
  cases hp : env.pulled with
  | error e =>
    rw [tryUpdate_error env h e hp]
    refine ⟨by simp, fun i a e hev => by (cases hev), fun ⟨ev, hev, _⟩ => by (cases hev), fun hf => ?_⟩
    obtain ⟨targets, ht⟩ := hf.pulled
    rw [hp] at ht; cases ht
  | ok targets =>
    obtain ⟨configs, hconfigs, hhost, hevents, hcases⟩ := tryUpdate_ok env h targets hp
    have hs := acted_served env h targets
    rw [hhost, hevents]
    refine ⟨?_, hs.indices, ?_, fun hf => ?_⟩
    · rcases hcases with ⟨-, he, -⟩ | ⟨-, he, -, -⟩
      · rw [he]; exact hs.bounds
      · exact he
    · rintro ⟨ev, hev, hno⟩
      rcases hcases with ⟨-, -, hrep⟩ | ⟨hok, -, -, -⟩
      · exact hrep
      · exact absurd (hs.succeeded hok ev hev) hno
    · have hok := hs.complete hf.toActionsSucceed
      rcases hcases with ⟨hne, -, -⟩ | ⟨-, -, hrep, hend⟩
      · exact absurd hok hne
      have hperm := perm_identity _ _ _ (hs.result hok)
      refine ⟨hend hf.reported hf.pruned, targets, _, rfl, hperm, hrep, ?_⟩
      have hids : configs.map AppsGetResponseItem.id = targets.map TargetApp.applicationConfigId := by
        unfold CycleEnv.pulled at hp
        rw [hconfigs] at hp
        exact (pulled_ids env.image configs targets hp).symm
      rw [hids, List.map_map]
      have h2 := (hperm.map (fun k : Reference × String × Option Int => k.2.2)).symm
      rw [List.map_map, List.map_map] at h2
      exact h2

/-- An API and a podman that never fail, and lifecycle tasks that are running when they are told to delete. -/
def calm (configs : List AppsGetResponseItem) : CycleEnv where
  targets := .ok configs
  image := fun r => .ok (some ⟨r, "sha256:1"⟩)
  removal := fun _ => .served .init [⟨.ok .running, true, .ok (), .notified (.ok ()) (.ok ())⟩]
  created := fun _ => .ok ()
  reported := .ok ()
  pruned := .ok ()

theorem mapM_fromConfig (digest : String) (configs : List AppsGetResponseItem) :
    configs.mapM (TargetApp.fromConfig fun r => .ok (some ⟨r, digest⟩))
      = .ok (configs.map (fun c => ⟨⟨c.image, digest⟩, deriveName c.image, c.config, c.applicationId, c.id⟩)) := by
  induction configs with
  | nil => rfl
  | cons c configs ih =>
    rw [List.mapM_cons, ih]
    rfl

theorem calm_pulled (configs : List AppsGetResponseItem) : (calm configs).pulled
    = .ok (configs.map (fun c => ⟨⟨c.image, "sha256:1"⟩, deriveName c.image, c.config, c.applicationId, c.id⟩)) :=
  mapM_fromConfig "sha256:1" configs

theorem calm_faultless (configs : List AppsGetResponseItem) : (calm configs).Faultless where
  removal := fun _ => rfl
  created := fun _ => rfl
  pulled := ⟨_, calm_pulled configs⟩
  reported := rfl
  pruned := rfl

def containerOf (id : Nat) (image : String) (configId : Int) : Container :=
  ⟨id, deriveName image.toList, image.toList, "sha256:1", [], some 1, some configId⟩

theorem cycle_converges_replacing :
    (tryUpdate (calm [⟨2, 1, "registry/app:2".toList, none⟩, ⟨3, 2, "registry/db:1".toList, none⟩])
      (.start [containerOf 0 "registry/app:1" 1])).ended = .ok :=
  ((cycle_converges _ _).2.2.2 (calm_faultless _)).1

end Apps
end ZeroDowntime
