import ZeroDowntime.AppConverge
/-!
# AppOrphans — containers that no application owns any more

An application leaves the vector before its removal is tried, and a removal that returned may have left its container
behind.  After every cycle of a run the applications own the containers exactly if every removal a cycle came to found
its task alive and was told by podman that the container is destroyed (`no_orphans_iff`): a container that is lost once
is lost for good.
-/
namespace ZeroDowntime
namespace Apps

open Lifecycle (Error Responses containerState containerStart containerStop)

/-- Every container is owned by exactly one application. -/
def Owned (h : Host) : Prop :=
  ∀ c ∈ h.containers, (h.apps.filter (fun a => decide (a.container = c.id))).length = 1

structure Tracked (h : Host) : Prop where
  perm : (h.apps.map Application.container).Perm (h.containers.map Container.id)
  nodup : (h.containers.map Container.id).Nodup

def Orphan (h : Host) (c : Container) : Prop := c ∈ h.containers ∧ ∀ a ∈ h.apps, a.container ≠ c.id

/-- A removal ended with its container destroyed. -/
def Event.Clean : Event → Prop
  | .removed _ _ e => e = .returned true
  | .created _ _ _ => True

theorem length_filter_eq_one {α : Type} (f : α → Nat) (k : Nat) : ∀ (l : List α), (l.map f).Nodup → k ∈ l.map f →
    (l.filter (fun a => decide (f a = k))).length = 1
  | [], _, h => by cases h
  | a :: l, hd, h => by
    rw [List.map_cons, List.nodup_cons] at hd
    rw [List.filter_cons]
    by_cases ha : f a = k
    · rw [if_pos (decide_eq_true ha), List.length_cons]
      have hnone : l.filter (fun b => decide (f b = k)) = [] := by
        refine List.filter_eq_nil_iff.2 (fun b hb hk => hd.1 ?_)
        rw [ha, ← of_decide_eq_true hk]
        exact List.mem_map_of_mem hb
      rw [hnone]
      rfl
    · rw [if_neg (by simpa using ha)]
      exact length_filter_eq_one f k l hd.2 ((List.mem_cons.1 h).resolve_left (Ne.symm ha))

theorem Tracked.owned {h : Host} (ht : Tracked h) : Owned h := fun c hc =>
  length_filter_eq_one Application.container c.id h.apps (ht.perm.nodup_iff.2 ht.nodup)
    (ht.perm.symm.subset (List.mem_map_of_mem hc))

theorem Orphan.not_owned {h : Host} {c : Container} (ho : Orphan h c) : ¬ Owned h := fun hw => by
  have hnone : h.apps.filter (fun a => decide (a.container = c.id)) = [] :=
    List.filter_eq_nil_iff.2 (fun a ha hk => ho.2 a ha (of_decide_eq_true hk))
  have := hw c ho.1
  rw [hnone] at this
  cases this

/-- What executing actions does to the containers: from tracked ones, clean removals keep them so and any other loses
one; a lost one stays. -/
structure Accounts (h : Host) (o : Outcome) : Prop where
  tracked : Tracked h → (∀ ev ∈ o.events, ev.Clean) → Tracked o.host
  lost : Tracked h → (∃ ev ∈ o.events, ¬ ev.Clean) → ∃ c, Orphan o.host c
  stays : ∀ c, Orphan h c → Orphan o.host c

theorem Accounts.andThen {h : Host} {o : Outcome} {f : Host → Outcome} (ho : Accounts h o)
    (hf : ∀ h', Accounts h' (f h')) : Accounts h (o.andThen f) := by
  by_cases hok : o.ended = .ok
  · rw [andThen_of_ok o f hok]
    refine ⟨fun ht hc => ?_, fun ht ⟨ev, hev, hno⟩ => ?_, fun c hc => (hf o.host).stays c (ho.stays c hc)⟩
    · exact (hf o.host).tracked (ho.tracked ht (fun ev hev => hc ev (List.mem_append_left _ hev)))
        (fun ev hev => hc ev (List.mem_append_right _ hev))
    · by_cases hclean : ∀ ev ∈ o.events, ev.Clean
      · rcases List.mem_append.1 hev with hev | hev
        · exact absurd (hclean ev hev) hno
        · exact (hf o.host).lost (ho.tracked ht hclean) ⟨ev, hev, hno⟩
      · have : ∃ ev ∈ o.events, ¬ ev.Clean := by
          by_contra hcon
          exact hclean (fun ev hev => by_contra (fun hn => hcon ⟨ev, hev, hn⟩))
        obtain ⟨c, hc⟩ := ho.lost ht this
        exact ⟨c, (hf o.host).stays c hc⟩
  · rw [andThen_of_ne_ok o f hok]
    exact ho

section Drop

variable {h : Host} {app : Application} {rest : List Application}

theorem Tracked.perm_taken (ht : Tracked h) (hperm : h.apps.Perm (app :: rest)) :
    (app.container :: rest.map Application.container).Perm (h.containers.map Container.id) :=
  (hperm.map Application.container).symm.trans ht.perm

theorem Tracked.not_mem_taken (ht : Tracked h) (hperm : h.apps.Perm (app :: rest)) :
    app.container ∉ rest.map Application.container :=
  (List.nodup_cons.1 ((ht.perm_taken hperm).nodup_iff.2 ht.nodup)).1

theorem Tracked.drop (ht : Tracked h) (hrest : ∀ a ∈ rest, a ∈ h.apps) (hperm : h.apps.Perm (app :: rest)) :
    Tracked (h.drop app rest hrest true) := by
  have hfilter : (h.containers.filter (fun c => decide (c.id ≠ app.container))).map Container.id
      = (h.containers.map Container.id).filter (fun i => decide (i ≠ app.container)) := by
    rw [List.filter_map]; rfl
  have hkeep : (rest.map Application.container).filter (fun i => decide (i ≠ app.container))
      = rest.map Application.container :=
    List.filter_eq_self.2 (fun i hi => decide_eq_true (fun he => ht.not_mem_taken hperm (he ▸ hi)))
  constructor
  · show (rest.map Application.container).Perm (List.map Container.id (h.containers.filter _))
    rw [hfilter]
    have := (ht.perm_taken hperm).filter (fun i => decide (i ≠ app.container))
    rw [List.filter_cons_of_neg (by simp), hkeep] at this
    exact this
  · show (List.map Container.id (h.containers.filter _)).Nodup
    rw [hfilter]
    exact ht.nodup.filter _

/-- The container of the dropped application is still there, and nobody owns it. -/
theorem Tracked.lost (ht : Tracked h) (hrest : ∀ a ∈ rest, a ∈ h.apps) (hperm : h.apps.Perm (app :: rest)) :
    ∃ c, Orphan (h.drop app rest hrest false) c := by
  obtain ⟨c, hc, hid⟩ := List.mem_map.1 ((ht.perm_taken hperm).subset List.mem_cons_self)
  refine ⟨c, hc, fun a ha hac => ?_⟩
  exact ht.not_mem_taken hperm (List.mem_map.2 ⟨a, ha, hac.trans hid⟩)

theorem Orphan.drop {c : Container} (hc : Orphan h c) (hrest : ∀ a ∈ rest, a ∈ h.apps)
    (hperm : h.apps.Perm (app :: rest)) (deleted : Bool) : Orphan (h.drop app rest hrest deleted) c := by
  refine ⟨?_, fun a ha => hc.2 a (hrest a ha)⟩
  simp only [Host.drop]
  split
  · have happ : app ∈ h.apps := hperm.symm.subset List.mem_cons_self
    exact List.mem_filter.2 ⟨hc.1, decide_eq_true (Ne.symm (hc.2 app happ))⟩
  · exact hc.1

end Drop

theorem accounts_removeAt (h : Host) (index : Nat) (r : Removal) : Accounts h (removeAt h index r) := by
  cases hs : swapRemove h.apps index with
  | none =>
    have heq : removeAt h index r = ⟨.panicked, h, []⟩ := by
      unfold removeAt
      split
      · rfl
      · rename_i hs'; rw [hs] at hs'; cases hs'
    rw [heq]
    exact ⟨fun ht _ => ht, fun _ ⟨ev, hev, _⟩ => by (cases hev), fun _ hc => hc⟩
  | some p =>
    obtain ⟨app, rest⟩ := p
    obtain ⟨hrest, heq⟩ := removeAt_eq h index r app rest hs
    have hperm := swapRemove_perm h.apps rest index app hs
    rw [heq]
    cases r.ended with
    | returned d =>
      refine ⟨fun ht hclean => ?_, fun ht ⟨ev, hev, hno⟩ => ?_, fun c hc => hc.drop hrest hperm d⟩
      · have hd := hclean _ (List.mem_singleton_self _)
        simp only [Event.Clean, RemoveEnd.returned.injEq] at hd
        subst hd
        exact ht.drop hrest hperm
      · rw [List.mem_singleton.1 hev] at hno
        cases d with
        | true => exact absurd rfl hno
        | false => exact ht.lost hrest hperm
    | failed e =>
      refine ⟨fun _ hclean => ?_, fun ht _ => ht.lost hrest hperm, fun c hc => hc.drop hrest hperm false⟩
      have := hclean _ (List.mem_singleton_self _)
      cases this
    | pending =>
      refine ⟨fun _ hclean => ?_, fun ht _ => ht.lost hrest hperm, fun c hc => hc.drop hrest hperm false⟩
      have := hclean _ (List.mem_singleton_self _)
      cases this

theorem accounts_launch (h : Host) (t : TargetApp) (res : Except Error Unit) : Accounts h (launch h t res) := by
  unfold launch
  cases res with
  | error e =>
    refine ⟨fun ht _ => ht, fun _ ⟨ev, hev, hno⟩ => ?_, fun _ hc => hc⟩
    rw [List.mem_singleton.1 hev] at hno
    exact absurd trivial hno
  | ok u =>
    refine ⟨fun ht _ => ⟨?_, ?_⟩, fun _ ⟨ev, hev, hno⟩ => ?_, fun c hc => ⟨List.mem_append_left _ hc.1, fun a ha => ?_⟩⟩
    · show (List.map _ (h.apps ++ [_])).Perm (List.map _ (h.containers ++ [_]))
      rw [List.map_append, List.map_append]
      exact ht.perm.append_right _
    · show (List.map Container.id (h.containers ++ [t.container h.next])).Nodup
      rw [List.map_append, List.map_singleton, List.nodup_append]
      refine ⟨ht.nodup, List.nodup_singleton _, fun i hi j hj hij => ?_⟩
      obtain ⟨c, hc, rfl⟩ := List.mem_map.1 hi
      have := h.containers_lt c hc
      rw [hij, List.mem_singleton.1 hj] at this
      exact Nat.lt_irrefl _ this
    · rw [List.mem_singleton.1 hev] at hno
      exact absurd trivial hno
    · rcases List.mem_append.1 ha with ha | ha
      · exact hc.2 a ha
      · rw [List.mem_singleton.1 ha]
        have := h.containers_lt c hc.1
        exact Nat.ne_of_gt this

theorem accounts_act (env : CycleEnv) (n : Nat) (h : Host) (a : ReconcileAction TargetApp) :
    Accounts h (act env n h a) := by
  cases a with
  | create image => exact accounts_launch h image _
  | update index targetImage => exact (accounts_removeAt h index _).andThen (fun h' => accounts_launch h' targetImage _)
  | remove index => exact accounts_removeAt h index _

theorem accounts_actAll (env : CycleEnv) : ∀ (as : List (ReconcileAction TargetApp)) (n : Nat) (h : Host),
    Accounts h (actAll env n as h)
  | [], _, h => ⟨fun ht _ => ht, fun _ ⟨_, hev, _⟩ => by (cases hev), fun _ hc => hc⟩
  | a :: as, n, h => (accounts_act env n h a).andThen (fun h' => accounts_actAll env as (n + 1) h')

/-- **A cycle accounts for its containers**: the sort changes no owner, and the report no container. -/
theorem accounts_tryUpdate (env : CycleEnv) (h : Host) : Accounts h (tryUpdate env h).toOutcome := by
  cases hp : env.pulled with
  | error e =>
    rw [tryUpdate_error env h e hp]
    exact ⟨fun ht _ => ht, fun _ ⟨_, hev, _⟩ => by (cases hev), fun _ hc => hc⟩
  | ok targets =>
    obtain ⟨configs, -, hhost, hevents, -⟩ := tryUpdate_ok env h targets hp
    have hacc := accounts_actAll env (reconcile h.apps targets) 0 h.sorted
    have hsort : (sortByReference h.apps).Perm h.apps := List.perm_insertionSort _ _
    have htracked : Tracked h → Tracked h.sorted := fun ht => ⟨(hsort.map _).trans ht.perm, ht.nodup⟩
    refine ⟨fun ht hc => ?_, fun ht hc => ?_, fun c hc => ?_⟩
    · rw [hhost]; rw [hevents] at hc
      exact hacc.tracked (htracked ht) hc
    · rw [hhost]; rw [hevents] at hc
      exact hacc.lost (htracked ht) hc
    · rw [hhost]
      exact hacc.stays c ⟨hc.1, fun a ha => hc.2 a (hsort.subset ha)⟩

/-! ## What podman has to answer -/

/-- The removal finds its task alive, and `destroy` is answered `Ok` in the first iteration that takes the permit; the
answers are ones the task can be given. -/
def Removal.Destroys : Removal → Prop
  | .died _ => False
  | .served s rs => (Lifecycle.run true s rs).isSome ∧ rs.findSome? Responses.destroyed = some (.ok ())

/-- Every removal that executing the actions comes to destroys its container; a container that cannot be created ends
the cycle. -/
def CycleEnv.Removes (env : CycleEnv) : Nat → List (ReconcileAction TargetApp) → Prop
  | _, [] => True
  | n, .create _ :: as => (env.created n).isOk → env.Removes (n + 1) as
  | n, .update _ _ :: as => (env.removal n).Destroys ∧ ((env.created n).isOk → env.Removes (n + 1) as)
  | n, .remove _ :: as => (env.removal n).Destroys ∧ env.Removes (n + 1) as

theorem ended_returned_iff (r : Removal) : r.ended = .returned true ↔ r.Destroys := by
  cases r with
  | died e => exact ⟨fun h => by (cases h), fun h => h.elim⟩
  | served s rs =>
    simp only [Removal.ended, Removal.Destroys]
    cases hrun : Lifecycle.run true s rs with
    | none => simp
    | some p =>
      obtain ⟨out, t⟩ := p
      have hd := Lifecycle.run_destroyed true rs s out t hrun
      cases t with
      | live s' =>
        rw [Option.map_eq_none_iff.1 hd.symm]
        simp
      | returned d =>
        obtain ⟨destroy, hfind, rfl⟩ := Option.map_eq_some_iff.1 hd.symm
        rw [hfind]
        cases destroy <;> simp [Except.isOk, Except.toBool]

theorem removeAt_clean (h : Host) (index : Nat) (r : Removal) (hp : (removeAt h index r).ended ≠ .panicked) :
    ((∀ ev ∈ (removeAt h index r).events, ev.Clean) ↔ r.Destroys) ∧
      (r.Destroys → (removeAt h index r).ended = .ok) := by
  cases hs : swapRemove h.apps index with
  | none =>
    refine absurd ?_ hp
    unfold removeAt
    split
    · rfl
    · rename_i hs'; rw [hs] at hs'; cases hs'
  | some p =>
    obtain ⟨hrest, heq⟩ := removeAt_eq h index r p.1 p.2 hs
    rw [heq, ← ended_returned_iff]
    cases hr : r.ended <;> simp [Event.Clean]

theorem launch_clean (h : Host) (t : TargetApp) (res : Except Error Unit) :
    (∀ ev ∈ (launch h t res).events, ev.Clean) ∧ ((launch h t res).ended = .ok ↔ res.isOk) := by
  cases res <;> simp [launch, Event.Clean, Except.isOk, Except.toBool]

theorem andThen_clean (o : Outcome) (f : Host → Outcome) : (∀ ev ∈ (o.andThen f).events, ev.Clean) ↔
    (∀ ev ∈ o.events, ev.Clean) ∧ (o.ended = .ok → ∀ ev ∈ (f o.host).events, ev.Clean) := by
  by_cases hok : o.ended = .ok
  · rw [andThen_of_ok o f hok]
    simp only [List.mem_append, or_imp, forall_and, hok, true_implies]
  · rw [andThen_of_ne_ok o f hok]
    simp only [hok, false_implies, and_true]

theorem panicked_andThen (o : Outcome) (f : Host → Outcome) (h : (o.andThen f).ended ≠ .panicked) :
    o.ended ≠ .panicked ∧ (o.ended = .ok → (f o.host).ended ≠ .panicked) := by
  by_cases hok : o.ended = .ok
  · rw [andThen_of_ok o f hok] at h
    exact ⟨by rw [hok]; simp, fun _ => h⟩
  · rw [andThen_of_ne_ok o f hok] at h
    exact ⟨h, fun hok' => absurd hok' hok⟩

/-- **Actions end every removal with its container destroyed exactly if podman answers so.** -/
theorem actAll_clean (env : CycleEnv) : ∀ (as : List (ReconcileAction TargetApp)) (n : Nat) (h : Host),
    (actAll env n as h).ended ≠ .panicked → ((∀ ev ∈ (actAll env n as h).events, ev.Clean) ↔ env.Removes n as)
  | [], n, h, _ => by simp [actAll, CycleEnv.Removes]
  | a :: as, n, h, hp => by
    obtain ⟨hact, hrest⟩ := panicked_andThen (act env n h a) _ hp
    rw [actAll, andThen_clean]
    have ih := fun hok => actAll_clean env as (n + 1) (act env n h a).host (hrest hok)
    cases a with
    | create image =>
      obtain ⟨hclean, hok⟩ := launch_clean h image (env.created n)
      rw [CycleEnv.Removes, ← hok]
      exact ⟨fun hc he => (ih he).1 (hc.2 he), fun hr => ⟨hclean, fun he => (ih he).2 (hr he)⟩⟩
    | update index targetImage =>
      obtain ⟨hremove, hlaunch⟩ := panicked_andThen (removeAt h index (env.removal n)) _ hact
      obtain ⟨hiff, hgoes⟩ := removeAt_clean h index (env.removal n) hremove
      obtain ⟨hclean, hok⟩ := launch_clean (removeAt h index (env.removal n)).host targetImage (env.created n)
      rw [CycleEnv.Removes, ← hok]
      have hended : (env.removal n).Destroys → ((act env n h (.update index targetImage)).ended = .ok ↔
          (launch (removeAt h index (env.removal n)).host targetImage (env.created n)).ended = .ok) := fun hd => by
        rw [act, andThen_of_ok _ _ (hgoes hd)]
      have hevents : (∀ ev ∈ (act env n h (.update index targetImage)).events, ev.Clean) ↔ (env.removal n).Destroys := by
        rw [act, andThen_clean, hiff]
        exact ⟨And.left, fun hd => ⟨hd, fun _ => hclean⟩⟩
      rw [hevents]
      refine and_congr_right (fun hd => ?_)
      rw [← hended hd]
      exact forall_congr' ih
    | remove index =>
      obtain ⟨hiff, hgoes⟩ := removeAt_clean h index (env.removal n) hact
      rw [CycleEnv.Removes]
      refine (and_congr hiff Iff.rfl).trans (and_congr_right (fun hd => ?_))
      exact ⟨fun hc => (ih (hgoes hd)).1 (hc (hgoes hd)), fun hr hok => (ih hok).2 hr⟩

/-- **A cycle ends every removal with its container destroyed exactly if podman answers so**: what it does never leaves
the vector, so it comes to all its actions unless one fails. -/
theorem tryUpdate_clean (env : CycleEnv) (h : Host) : (∀ ev ∈ (tryUpdate env h).events, ev.Clean) ↔
    ∀ targets, env.pulled = .ok targets → env.Removes 0 (reconcile h.apps targets) := by
  cases hp : env.pulled with
  | error e =>
    rw [tryUpdate_error env h e hp]
    exact ⟨fun _ _ ht => by (cases ht), fun _ _ hev => by (cases hev)⟩
  | ok targets =>
    obtain ⟨configs, -, -, hevents, -⟩ := tryUpdate_ok env h targets hp
    have hall := actAll_clean env (reconcile h.apps targets) 0 h.sorted (acted_served env h targets).bounds
    rw [hevents]
    refine hall.trans ⟨fun hr targets' ht => ?_, fun hr => hr targets rfl⟩
    obtain rfl := Except.ok.inj ht
    exact hr

/-! ## Runs -/

def afterCycles : Host → List CycleEnv → List Host
  | _, [] => []
  | h, env :: envs => (tryUpdate env h).host :: afterCycles (tryUpdate env h).host envs

/-- In every cycle of the run each removal that is come to finds its task alive and its `destroy` answered `Ok`. -/
def CleanRun : Host → List CycleEnv → Prop
  | _, [] => True
  | h, env :: envs => (∀ targets, env.pulled = .ok targets → env.Removes 0 (reconcile h.apps targets)) ∧
      CleanRun (tryUpdate env h).host envs

theorem owned_iff_clean (env : CycleEnv) (h : Host) (ht : Tracked h) : Owned (tryUpdate env h).host ↔
    ∀ targets, env.pulled = .ok targets → env.Removes 0 (reconcile h.apps targets) := by
  rw [← tryUpdate_clean]
  have hacc := accounts_tryUpdate env h
  constructor
  · intro hw
    by_contra hcon
    simp only [not_forall, exists_prop] at hcon
    obtain ⟨c, hc⟩ := hacc.lost ht hcon
    exact hc.not_owned hw
  · exact fun hclean => (hacc.tracked ht hclean).owned

theorem owned_afterCycles_iff : ∀ (envs : List CycleEnv) (h : Host), Tracked h →
    ((∀ h' ∈ afterCycles h envs, Owned h') ↔ CleanRun h envs)
  | [], _, _ => by simp [afterCycles, CleanRun]
  | env :: envs, h, ht => by
    rw [afterCycles, List.forall_mem_cons, CleanRun, owned_iff_clean env h ht]
    refine and_congr_right (fun hclean => ?_)
    exact owned_afterCycles_iff envs _
      ((accounts_tryUpdate env h).tracked ht ((tryUpdate_clean env h).2 hclean))

theorem start_tracked (containers : List Container) (hd : (containers.map Container.id).Nodup) :
    Tracked (Host.start containers) where
  perm := by
    show ((containers.map Application.wrap).map Application.container).Perm _
    rw [List.map_map]
    exact List.Perm.refl _
  nodup := hd

/-- **After every cycle of a run each container is owned by exactly one application, exactly if every removal that the
cycles come to finds its lifecycle task alive and podman answers that task's `destroy` with success.** -/
theorem no_orphans_iff (containers : List Container) (hd : (containers.map Container.id).Nodup) (envs : List CycleEnv) :
    (∀ h ∈ afterCycles (Host.start containers) envs, Owned h) ↔ CleanRun (Host.start containers) envs :=
  owned_afterCycles_iff envs _ (start_tracked containers hd)

theorem no_orphans_idle : Owned (tryUpdate (calm []) (.start [containerOf 0 "registry/app:1" 1])).host :=
  (no_orphans_iff [containerOf 0 "registry/app:1" 1] (by decide) [calm []]).2 ⟨fun targets ht => by
    obtain rfl : [] = targets := Except.ok.inj ht
    exact ⟨⟨rfl, rfl⟩, trivial⟩, trivial⟩ _ List.mem_cons_self

/-- The application is no longer assigned; its container runs, does not stop in time, and a running container cannot be
deleted. -/
def stopFails : CycleEnv :=
  { calm [] with
    removal := fun _ => .served .init [⟨containerState (.ok (some "running")), true, .ok (),
      .notified (containerStop (.ok (some "running")) (.error "timeout"))
        (.error "cannot remove a running container")⟩] }

/-- **The removal returns, the cycle ends well and reports, and the container runs on without an application.** -/
theorem container_orphaned :
    (tryUpdate stopFails (.start [containerOf 0 "registry/app:1" 1])).ended = .ok ∧
      (tryUpdate stopFails (.start [containerOf 0 "registry/app:1" 1])).reported = some [] ∧
      (tryUpdate stopFails (.start [containerOf 0 "registry/app:1" 1])).host.apps = [] ∧
      (tryUpdate stopFails (.start [containerOf 0 "registry/app:1" 1])).host.containers
        = [containerOf 0 "registry/app:1" 1] ∧
      ¬ Owned (tryUpdate stopFails (.start [containerOf 0 "registry/app:1" 1])).host := by
  have hcont : (tryUpdate stopFails (.start [containerOf 0 "registry/app:1" 1])).host.containers
      = [containerOf 0 "registry/app:1" 1] := rfl
  refine ⟨rfl, rfl, rfl, hcont, fun hw => ?_⟩
  exact Nat.zero_ne_one (hw _ (by rw [hcont]; exact List.mem_singleton_self _))

end Apps
end ZeroDowntime
