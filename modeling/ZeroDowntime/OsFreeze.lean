import ZeroDowntime.OsCountdown
/-!
# OsFreeze — the flag that stops the application loop

Three places raise `os_switch_in_progress`, each right before a command that may fail, and none lowers it: only a new
process starts with the flag down.  An attempt that fails leaves it as it was exactly if it has not got that far
(`failed_attempt_flag_iff`); otherwise applications stay frozen until a reboot or a restart (`frozen_until_reboot`).
-/
namespace ZeroDowntime
namespace Os

open Runs (run Along)

/-- The step stores `true`: a countdown's sleep ends, or `try_switch` is named an immediate target that is not booted. -/
def Config.raises (c : Config) : Action → Bool
  | .expire _ => true
  | .target (some target) =>
    match c.task with
    | .running s .target => !s.upToDate target && target.immediate
    | _ => false
  | _ => false

/-- No process ends: it is not restarted, and no apply reboots the host. -/
def Action.keepsProcess : Action → Bool
  | .restart => false
  | .apply .rebooted => false
  | .applied _ .rebooted => false
  | _ => true

/-- The answer at which `try_switch` leaves with an error. -/
def Config.errs (c : Config) (a : Action) : Bool :=
  match c.task, a with
  | .running _ .status, .status ok => !ok
  | .running _ .target, .target answer => answer.isNone
  | .running _ (.report _), .report ok => !ok
  | .running _ .applyStaged, .apply ended => ended.errs
  | .running _ (.switchNow _), .switch staged => staged.isNone
  | .running _ .applyNow, .apply ended => ended.errs
  | .running _ (.switchDeferred _), .switch staged => staged.isNone
  | .running _ (.statusBeforeTimer _ _), .status ok => !ok
  | _, _ => false

def Config.idle (c : Config) : Bool :=
  match c.task with
  | .starting => true
  | .running _ .tick => true
  | _ => false

/-- A call of `try_switch`, from its tick to the answer at which it leaves with an error. -/
def FailedCall (deferredTimer : Nat) (c : Config) (as : List Action) : Prop :=
  ∃ s mid a c', as = .tick :: mid ++ [a] ∧ c.At s .tick ∧
    Along (step deferredTimer) (fun c _ => c.idle = false) (c.goTo s .status) mid ∧
    run (step deferredTimer) c (.tick :: mid) = some c' ∧ c'.errs a = true

/-- A countdown task, from the end of its sleep to the end of an apply that fails. -/
def FailedTimer (deferredTimer : Nat) (c : Config) (as : List Action) : Prop :=
  ∃ t i mid j ended c', as = .expire i :: mid ++ [.applied j ended] ∧ c.task ≠ .starting ∧ c.timers[i]? = some t ∧
    run (step deferredTimer) c (.expire i :: mid) = some c' ∧ c'.timers[j]? = some { t with applying := true } ∧
    ended.errs = true

/-- **An attempt that fails, with all that happens meanwhile**: no apply reboots the host and the process is not
restarted. -/
structure FailedAttempt (deferredTimer : Nat) (c : Config) (as : List Action) (c' : Config) : Prop where
  reached : run (step deferredTimer) c as = some c'
  keepsProcess : ∀ a ∈ as, a.keepsProcess = true
  attempt : FailedCall deferredTimer c as ∨ FailedTimer deferredTimer c as

/-! ## The flag along a run -/

variable {d : Nat} {c c' : Config}

theorem locks_next (s : OsState) (target : OsGetResponse) :
    (s.next target).locks = (!s.upToDate target && target.immediate) := by
  unfold OsState.next
  cases s.upToDate target <;> cases s.isTargetStaged target <;> cases target.immediate <;> rfl

/-- The process goes on, with the flag up if it was up or is raised. -/
structure Flagged (c : Config) (a : Action) (c' : Config) : Prop where
  running : c.task ≠ .starting → c'.task ≠ .starting
  flag : c'.osSwitchInProgress = (c.osSwitchInProgress || c.raises a)

theorem Flagged.goTo {a : Action} {s : OsState} {await : Await} (h : await.locks = c.raises a) :
    Flagged c a (c.goTo s await) :=
  ⟨fun _ h => (nomatch h), congrArg (c.osSwitchInProgress || ·) h⟩

/-- A new process, with the flag down. -/
structure Restarted (c : Config) (a : Action) (c' : Config) : Prop where
  ended : c.task = .starting ∨ a.keepsProcess = false
  starting : c'.task = .starting
  flag : c'.osSwitchInProgress = false

/-- **Only a new process lowers the flag.** -/
theorem flag_step {a : Action} (hc : step d c a = some c') : Restarted c a c' ∨ Flagged c a c' := by
  cases a with
  | elapse k => exact Option.some.inj hc ▸ .inr ⟨id, (Bool.or_false _).symm⟩
  | tick =>
    obtain ⟨s, -, rfl⟩ := onTick_eq_some (show c.onTick = some c' from hc)
    exact .inr (.goTo rfl)
  | status ok =>
    rcases onStatus_eq_some (show c.onStatus d ok = some c' from hc) with ⟨hst, rfl | ⟨-, s, -, rfl⟩⟩ |
      ⟨s, -, rfl | ⟨-, s', -, rfl⟩⟩ | ⟨s, target, g, -, ⟨-, rfl⟩ | ⟨-, rfl⟩⟩
    · exact .inl ⟨.inl hst, rfl, rfl⟩
    all_goals exact .inr ⟨fun _ h => (nomatch h), rfl⟩
  | target answer =>
    obtain ⟨s, hat, ⟨rfl, rfl⟩ | ⟨target, rfl, rfl⟩⟩ := onTarget_eq_some (show c.onTarget answer = some c' from hc)
    · exact .inr (.goTo rfl)
    · refine .inr ⟨fun _ h => (nomatch h), congrArg (c.osSwitchInProgress || ·) ?_⟩
      simp only [locks_next, Config.raises, show c.task = .running s .target from hat]
  | report ok =>
    obtain ⟨s, id, -, rfl⟩ := onReport_eq_some (show c.onReport = some c' from hc)
    exact .inr (.goTo rfl)
  | switch staged =>
    obtain ⟨s, target, -, ⟨-, rfl⟩ | ⟨info, -, ⟨-, rfl⟩ | ⟨-, rfl⟩⟩⟩ :=
      onSwitch_eq_some (show c.onSwitch staged = some c' from hc)
    · exact .inr (.goTo rfl)
    all_goals exact .inr ⟨fun _ h => (nomatch h), rfl⟩
  | apply ended =>
    obtain ⟨s, -, h | ⟨-, rfl⟩⟩ := onApply_eq_some (show c.onApply ended = some c' from hc)
    · obtain ⟨rfl, rfl⟩ := (apply_eq_some c c' ended).1 h
      exact .inl ⟨.inr rfl, rfl, rfl⟩
    · exact .inr (.goTo rfl)
  | expire i =>
    obtain ⟨t, -, -, -, rfl⟩ := expire_eq_some (show c.expire i = some c' from hc)
    exact .inr ⟨id, (Bool.or_true _).symm⟩
  | applied i ended =>
    obtain ⟨t, -, -, h | ⟨-, rfl⟩⟩ := applied_eq_some (show c.applied i ended = some c' from hc)
    · obtain ⟨rfl, rfl⟩ := (apply_eq_some c c' ended).1 h
      exact .inl ⟨.inr rfl, rfl, rfl⟩
    · exact .inr ⟨id, (Bool.or_false _).symm⟩
  | restart => exact Option.some.inj hc ▸ .inl ⟨.inr rfl, rfl, rfl⟩

theorem flagged_step {a : Action} (hs : c.task ≠ .starting) (hk : a.keepsProcess = true) (hc : step d c a = some c') :
    Flagged c a c' := by
  refine (flag_step hc).resolve_left fun h => ?_
  rcases h.ended with hst | hf
  · exact hs hst
  · exact absurd (hk.symm.trans hf) (by decide)

theorem keepsProcess_of_raises {a : Action} (h : c.raises a = true) : a.keepsProcess = true := by
  unfold Config.raises at h
  split at h
  · rfl
  · rfl
  · cases h

theorem flagged_run : ∀ (as : List Action) (c c' : Config), c.task ≠ .starting → (∀ a ∈ as, a.keepsProcess = true) →
    run (step d) c as = some c' → c'.task ≠ .starting ∧
      (c'.osSwitchInProgress = c.osSwitchInProgress ↔
        c.osSwitchInProgress = true ∨ Along (step d) (fun c a => c.raises a = false) c as)
  | [], c, c', hs, _, hr => by
    obtain rfl := Option.some.inj hr
    exact ⟨hs, fun _ => .inr trivial, fun _ => rfl⟩
  | a :: as, c, c', hs, hk, hr => by
    obtain ⟨c₁, h₁, hr⟩ := (Runs.run_cons_eq_some _ c c' a as).1 hr
    obtain ⟨hs₁, hf⟩ := flagged_step hs (hk a (List.mem_cons_self ..)) h₁
    obtain ⟨hs', hiff⟩ := flagged_run as c₁ c' (hs₁ hs) (fun b hb => hk b (List.mem_cons_of_mem _ hb)) hr
    refine ⟨hs', ?_⟩
    have hcons : Along (step d) (fun c a => c.raises a = false) c (a :: as) ↔
        c.raises a = false ∧ Along (step d) (fun c a => c.raises a = false) c₁ as :=
      and_congr_right fun _ => ⟨fun h => h c₁ h₁, fun h c₂ h₂ => Option.some.inj (h₁.symm.trans h₂) ▸ h⟩
    rw [hcons]
    cases hflag : c.osSwitchInProgress <;> cases hraise : c.raises a <;> simp_all

/-- **Once up, the flag stays up until the process ends**: the application loop reads it before each cycle. -/
theorem frozen_until_reboot (as : List Action) (hs : c.task ≠ .starting) (hk : ∀ a ∈ as, a.keepsProcess = true)
    (hr : run (step d) c as = some c') (hf : c.osSwitchInProgress = true) : c'.osSwitchInProgress = true :=
  (((flagged_run as c c' hs hk hr).2).2 (.inl hf)).trans hf

/-! ## Attempts -/

theorem FailedAttempt.running {as : List Action} (h : FailedAttempt d c as c') : c.task ≠ .starting := by
  rcases h.attempt with ⟨s, -, -, -, -, hat, -⟩ | ⟨-, -, -, -, -, -, -, hs, -⟩
  · rw [show c.task = .running s .tick from hat]
    exact fun h => nomatch h
  · exact hs

/-- **An attempt that fails leaves the flag as it was exactly if it was up before, or no step raised it.** -/
theorem failed_attempt_flag_iff (deferredTimer : Nat) (c c' : Config) (as : List Action)
    (h : FailedAttempt deferredTimer c as c') : c'.osSwitchInProgress = c.osSwitchInProgress ↔
      c.osSwitchInProgress = true ∨ Along (step deferredTimer) (fun c a => c.raises a = false) c as :=
  (flagged_run as c c' h.running h.keepsProcess h.reached).2

def immediateTarget : OsGetResponse := ⟨1, "os:1".toList, true⟩

/-- The host once its orchestrator has started. -/
def idleHost : Config := freshHost.goTo ⟨false, "c0".toList, none, none, none, false⟩ .tick

/-- The host with a countdown that is due. -/
def dueHost : Config := { idleHost with
  now := 43200, staged := some firstStaging, switches := 1, timers := [⟨firstTarget, firstStaging, 43200, false⟩] }

def failedStaging : List Action := [.tick, .status true, .target (some firstTarget), .switch none]

def failedSwitch : List Action := [.tick, .status true, .target (some immediateTarget), .switch none]

def failedApply : List Action := [.expire 0, .applied 0 (.exited (some 1))]

theorem failedCall_staging : FailedCall 43200 idleHost failedStaging :=
  ⟨_, [.status true, .target (some firstTarget)], .switch none, _, rfl, rfl, by decide, rfl, rfl⟩

theorem failedCall_switch : FailedCall 43200 idleHost failedSwitch :=
  ⟨_, [.status true, .target (some immediateTarget)], .switch none, _, rfl, rfl, by decide, rfl, rfl⟩

theorem failedTimer_apply : FailedTimer 43200 dueHost failedApply :=
  ⟨_, 0, [], 0, .exited (some 1), _, rfl, by decide, rfl, rfl, rfl, rfl⟩

/-- A switch to a target that is not immediate fails, and the flag is as before. -/
theorem failed_staging_flag : ∃ c', FailedAttempt 43200 idleHost failedStaging c' ∧
    c'.osSwitchInProgress = idleHost.osSwitchInProgress := by
  have h : FailedAttempt 43200 idleHost failedStaging _ := ⟨rfl, by decide, .inl failedCall_staging⟩
  exact ⟨_, h, (failed_attempt_flag_iff 43200 idleHost _ _ h).2 (.inr (by decide))⟩

/-- **An immediate switch that fails leaves the flag up, and so does a countdown whose apply fails.** -/
theorem failed_attempt_freezes :
    (∃ c', FailedAttempt 43200 idleHost failedSwitch c' ∧
      idleHost.osSwitchInProgress = false ∧ c'.osSwitchInProgress = true) ∧
    ∃ c', FailedAttempt 43200 dueHost failedApply c' ∧
      dueHost.osSwitchInProgress = false ∧ c'.osSwitchInProgress = true :=
  ⟨⟨_, ⟨rfl, by decide, .inl failedCall_switch⟩, rfl, rfl⟩, ⟨_, ⟨rfl, by decide, .inr failedTimer_apply⟩, rfl, rfl⟩⟩

/-- Both hosts are reached from the start. -/
example : run (step 43200) freshHost [.status true] = some idleHost ∧
    (run (step 43200) freshHost (countingDown ++ [.elapse 43200])).map (fun c => (c.timers, c.staged))
      = some (dueHost.timers, dueHost.staged) := by decide

end Os
end ZeroDowntime
