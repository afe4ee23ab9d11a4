import ZeroDowntime.Common
import ZeroDowntime.Runs
/-!
# OsLoop — the loop that stages and boots the target operating system

`try_switch` compares the target the server names with the booted and the staged deployment, and switches, applies,
waits or reports.  Between its awaits the countdown tasks it has spawned run, and time passes.  Each step ends at one
await; what bootc and the server answer there is the action, so that a list of actions is any interleaving of the loop
with its timers.

`bootc switch` that succeeds stages a deployment in the place of the one before; one that fails leaves what is staged.
`bootc upgrade --apply` is to reboot the host into the staged deployment, and with it to end the orchestrator process.
Where its command ends and the process lives on, the exit code says nothing about the host: a command that any signal
has killed counts as one that succeeded.
-/
namespace ZeroDowntime
namespace Os

/-! ## What bootc reports -/

structure BootcDeploymentInfo where
  checksum : List Char
  imageRef : Option (List Char)
  deriving DecidableEq, Repr

structure BootcStatus where
  booted : Option BootcDeploymentInfo
  staged : Option BootcDeploymentInfo
  deriving DecidableEq, Repr

structure OsState where
  updatePending : Bool
  bootedChecksum : List Char
  bootedImageRef : Option (List Char)
  stagedChecksum : Option (List Char)
  stagedImageRef : Option (List Char)
  countdownStarted : Bool
  deriving DecidableEq, Repr

def OsState.new (status : BootcStatus) : Option OsState :=
  status.booted.map fun booted =>
    { updatePending := status.staged.isSome
      bootedChecksum := booted.checksum
      bootedImageRef := booted.imageRef
      stagedChecksum := status.staged.map BootcDeploymentInfo.checksum
      stagedImageRef := status.staged.bind BootcDeploymentInfo.imageRef
      countdownStarted := false }

/-- `Bootc::apply` succeeded: `bootc upgrade --apply` exited with 0, or was killed by a signal, which the executer reports
as 137. -/
def handleExitCode (code : Option Int) : Bool := decide (code = some 0 ∨ code = some 137)

/-- How an apply ends: the host reboots, and nothing of the process is left; or the process lives on and is given the
exit code of the command, `none` where the command could not be run. -/
inductive ApplyEnd
  | rebooted
  | exited (code : Option Int)
  deriving DecidableEq, Repr

/-- `Bootc::apply` returns with an error. -/
def ApplyEnd.errs : ApplyEnd → Bool
  | .rebooted => false
  | .exited code => !handleExitCode code

/-! ## The decision of `try_switch` -/

def OsState.upToDate (state : OsState) (target : OsGetResponse) : Bool :=
  decide (state.bootedChecksum = target.commitHash ∨ state.bootedImageRef = some target.commitHash)

def OsState.isTargetStaged (state : OsState) (target : OsGetResponse) : Bool :=
  decide (state.stagedChecksum = some target.commitHash ∨ state.stagedImageRef = some target.commitHash)

/-- A deployment as a successful switch has staged it: the number of the switch, counted from 1, and when it ended. -/
structure Staging where
  number : Nat
  time : Nat
  info : BootcDeploymentInfo
  deriving DecidableEq, Repr

inductive Await
  | tick
  | status
  | target
  | report (osVersionId : Int)
  | applyStaged
  | switchNow (target : OsGetResponse)
  | applyNow
  | switchDeferred (target : OsGetResponse)
  | statusBeforeTimer (target : OsGetResponse) (staging : Staging)
  deriving DecidableEq, Repr

/-- Where `try_switch` goes on once it knows the target. -/
def OsState.next (state : OsState) (target : OsGetResponse) : Await :=
  if state.upToDate target then .report target.id
  else if state.isTargetStaged target then
    if target.immediate then .applyStaged else .tick
  else if target.immediate then .switchNow target
  else .switchDeferred target

def Await.locks : Await → Bool
  | .applyStaged => true
  | .switchNow _ => true
  | _ => false

/-! ## The process and the host -/

/-- A countdown task.  The task itself holds only the bootc handle and the flag; the target and the staging are those
of the call that spawned it. -/
structure Timer where
  target : OsGetResponse
  staging : Staging
  wakes : Nat
  applying : Bool
  deriving DecidableEq, Repr

inductive Task
  | starting
  | running (state : OsState) (await : Await)
  deriving DecidableEq, Repr

structure Config where
  now : Nat
  booted : Option BootcDeploymentInfo
  staged : Option Staging
  /-- How many switches have succeeded. -/
  switches : Nat
  osSwitchInProgress : Bool
  timers : List Timer
  task : Task
  /-- What `get_target_os_version` returned last. -/
  lastTarget : Option OsGetResponse
  deriving DecidableEq, Repr

/-- The orchestrator is started on a host with these deployments. -/
def Config.start (now : Nat) (booted staged : Option BootcDeploymentInfo) : Config where
  now := now
  booted := booted
  staged := staged.map fun info => ⟨0, now, info⟩
  switches := 0
  osSwitchInProgress := false
  timers := []
  task := .starting
  lastTarget := none

def Config.status (c : Config) : BootcStatus := ⟨c.booted, c.staged.map Staging.info⟩

/-- A new process: its flag is cleared and the tasks of the old one are gone. -/
def Config.restart (c : Config) : Config :=
  { c with osSwitchInProgress := false, timers := [], task := .starting }

/-- A reboot, into the staged deployment if there is one. -/
def Config.reboot (c : Config) : Config :=
  { c with booted := (c.staged.map Staging.info).or c.booted, staged := none }.restart

/-- The host after an apply that has not left the process running. -/
def Config.apply (c : Config) : ApplyEnd → Option Config
  | .rebooted => some c.reboot
  | .exited _ => none

def Config.switch (c : Config) (info : BootcDeploymentInfo) : Config :=
  { c with staged := some ⟨c.switches + 1, c.now, info⟩, switches := c.switches + 1 }

/-- A countdown task is spawned; its sleep begins no earlier. -/
def Config.spawn (c : Config) (target : OsGetResponse) (staging : Staging) (deferredTimer : Nat) : Config :=
  { c with timers := c.timers ++ [⟨target, staging, c.now + deferredTimer, false⟩] }

def Config.goTo (c : Config) (state : OsState) (await : Await) : Config :=
  { c with osSwitchInProgress := c.osSwitchInProgress || await.locks, task := .running state await }

/-! ## Steps -/

/-- What happens next: time passes, the loop's await ends with an answer (a failed command or request is `false` or
`none`), a timer's sleep or its apply ends, or the process is restarted. -/
inductive Action
  | elapse (d : Nat)
  | tick
  | status (ok : Bool)
  | target (answer : Option OsGetResponse)
  | report (ok : Bool)
  | switch (staged : Option BootcDeploymentInfo)
  | apply (ended : ApplyEnd)
  | expire (i : Nat)
  | applied (i : Nat) (ended : ApplyEnd)
  | restart
  deriving DecidableEq, Repr

def Config.onTick (c : Config) : Option Config :=
  match c.task with
  | .running s .tick => some (c.goTo s .status)
  | _ => none

/-- A status: the one `main` starts with, the one of a new cycle, or the one before a timer is spawned. -/
def Config.onStatus (deferredTimer : Nat) (c : Config) (ok : Bool) : Option Config :=
  match c.task with
  | .starting =>
    match ok, OsState.new c.status with
    | true, some s => some (c.goTo s .tick)
    | _, _ => some c.restart
  | .running s .status =>
    match ok, OsState.new c.status with
    | true, some s' => some (c.goTo { s' with countdownStarted := s.countdownStarted } .target)
    | _, _ => some (c.goTo s .tick)
  | .running s (.statusBeforeTimer target staging) =>
    if ok then some ((c.spawn target staging deferredTimer).goTo s .tick) else some (c.goTo s .tick)
  | _ => none

def Config.onTarget (c : Config) (answer : Option OsGetResponse) : Option Config :=
  match c.task with
  | .running s .target =>
    match answer with
    | some target => some ({ c with lastTarget := some target }.goTo s (s.next target))
    | none => some (c.goTo s .tick)
  | _ => none

def Config.onReport (c : Config) : Option Config :=
  match c.task with
  | .running s (.report _) => some (c.goTo s .tick)
  | _ => none

def Config.onSwitch (c : Config) (staged : Option BootcDeploymentInfo) : Option Config :=
  match c.task, staged with
  | .running s (.switchNow _), some info => some ((c.switch info).goTo s .applyNow)
  | .running s (.switchDeferred target), some info =>
    some ((c.switch info).goTo { s with countdownStarted := true }
      (.statusBeforeTimer target ⟨c.switches + 1, c.now, info⟩))
  | .running s (.switchNow _), none => some (c.goTo s .tick)
  | .running s (.switchDeferred _), none => some (c.goTo s .tick)
  | _, _ => none

def Config.onApply (c : Config) (ended : ApplyEnd) : Option Config :=
  match c.task with
  | .running s .applyStaged => some ((c.apply ended).getD (c.goTo s .tick))
  | .running s .applyNow => some ((c.apply ended).getD (c.goTo s .tick))
  | _ => none

/-- The sleep of a timer ends: it locks the application loops and runs its apply. -/
def Config.expire (c : Config) (i : Nat) : Option Config :=
  (c.timers[i]?).bind fun t =>
    if t.applying = false ∧ t.wakes ≤ c.now then
      some { c with osSwitchInProgress := true, timers := c.timers.set i { t with applying := true } }
    else none

/-- The apply of a timer ends, and with it the task; its error is only logged. -/
def Config.applied (c : Config) (i : Nat) (ended : ApplyEnd) : Option Config :=
  (c.timers[i]?).bind fun t =>
    if t.applying then some ((c.apply ended).getD { c with timers := c.timers.eraseIdx i }) else none

def step (deferredTimer : Nat) (c : Config) : Action → Option Config
  | .elapse d => some { c with now := c.now + d }
  | .tick => c.onTick
  | .status ok => c.onStatus deferredTimer ok
  | .target answer => c.onTarget answer
  | .report _ => c.onReport
  | .switch staged => c.onSwitch staged
  | .apply ended => c.onApply ended
  | .expire i => c.expire i
  | .applied i ended => c.applied i ended
  | .restart => some c.restart

/-! ## What bootc promises -/

/-- The target whose image a switch is pulling. -/
def Config.switching (c : Config) : Option OsGetResponse :=
  match c.task with
  | .running _ (.switchNow target) => some target
  | .running _ (.switchDeferred target) => some target
  | _ => none

/-- A deployment that `bootc switch` has staged is reported with the image reference the switch was given. -/
def StagesByName (c : Config) : Action → Prop
  | .switch (some info) => ∀ target ∈ c.switching, info.imageRef = some target.commitHash
  | _ => True

instance (c : Config) : ∀ a, Decidable (StagesByName c a)
  | .switch (some info) =>
    inferInstanceAs (Decidable (∀ target ∈ c.switching, info.imageRef = some target.commitHash))
  | .switch none | .elapse _ | .tick | .status _ | .target _ | .report _ | .apply _ | .expire _ | .applied _ _
  | .restart => .isTrue trivial

/-! ## What a status shows -/

/-- A deployment goes by its checksum and by its image reference. -/
def BootcDeploymentInfo.Named (info : BootcDeploymentInfo) (name : List Char) : Prop :=
  info.checksum = name ∨ info.imageRef = some name

instance (info : BootcDeploymentInfo) (name : List Char) : Decidable (info.Named name) := by
  unfold BootcDeploymentInfo.Named; infer_instance

def Config.Booted (c : Config) (name : List Char) : Prop := ∃ b ∈ c.booted, b.Named name

def Config.Staged (c : Config) (name : List Char) : Prop := ∃ g ∈ c.staged, g.info.Named name

instance (c : Config) (name : List Char) : Decidable (c.Booted name) := by
  unfold Config.Booted; infer_instance

instance (c : Config) (name : List Char) : Decidable (c.Staged name) := by
  unfold Config.Staged; infer_instance

/-- The state is what a status of this host shows. -/
structure OsState.Shows (s : OsState) (c : Config) : Prop where
  isSome : c.booted.isSome
  upToDate : ∀ target, s.upToDate target = true ↔ c.Booted target.commitHash
  isTargetStaged : ∀ target, s.isTargetStaged target = true ↔ c.Staged target.commitHash

theorem shows_of_new {c : Config} {s : OsState} (h : OsState.new c.status = some s) : s.Shows c := by
  obtain ⟨b, hb, rfl⟩ := Option.map_eq_some_iff.1 h
  change c.booted = some b at hb
  refine ⟨by rw [hb]; rfl, fun target => ?_, fun target => ?_⟩
  · simp [OsState.upToDate, Config.Booted, BootcDeploymentInfo.Named, hb]
  · cases hs : c.staged with
    | none => simp [OsState.isTargetStaged, Config.Staged, Config.status, hs]
    | some g => simp [OsState.isTargetStaged, Config.Staged, Config.status, BootcDeploymentInfo.Named, hs]

theorem OsState.Shows.counting {s : OsState} {c : Config} (h : s.Shows c) (started : Bool) :
    OsState.Shows { s with countdownStarted := started } c :=
  ⟨h.isSome, h.upToDate, h.isTargetStaged⟩

theorem OsState.Shows.congr {s : OsState} {c c' : Config} (h : s.Shows c) (hb : c'.booted = c.booted)
    (hs : c'.staged = c.staged) : s.Shows c' := by
  constructor
  · rw [hb]
    exact h.isSome
  · unfold Config.Booted
    rw [hb]
    exact h.upToDate
  · unfold Config.Staged
    rw [hs]
    exact h.isTargetStaged

/-! ## What an answer can lead to -/

theorem apply_eq_some (c c' : Config) (ended : ApplyEnd) :
    c.apply ended = some c' ↔ ended = .rebooted ∧ c' = c.reboot := by
  cases ended <;> simp [Config.apply, eq_comm]

theorem apply_eq_none (c : Config) (ended : ApplyEnd) : c.apply ended = none ↔ ended ≠ .rebooted := by
  cases ended <;> simp [Config.apply]

def Config.At (c : Config) (s : OsState) (await : Await) : Prop := c.task = .running s await

theorem onTick_eq_some {c c' : Config} (h : c.onTick = some c') : ∃ s, c.At s .tick ∧ c' = c.goTo s .status := by
  unfold Config.onTick at h
  split at h
  · exact ⟨_, ‹_›, (Option.some.inj h).symm⟩
  · cases h

theorem onStatus_eq_some {d : Nat} {c c' : Config} {ok : Bool} (h : c.onStatus d ok = some c') :
    (c.task = .starting ∧ (c' = c.restart ∨ ok = true ∧ ∃ s, OsState.new c.status = some s ∧ c' = c.goTo s .tick)) ∨
    (∃ s, c.At s .status ∧ (c' = c.goTo s .tick ∨ ok = true ∧ ∃ s', OsState.new c.status = some s' ∧
      c' = c.goTo { s' with countdownStarted := s.countdownStarted } .target)) ∨
    ∃ s target g, c.At s (.statusBeforeTimer target g) ∧
      (ok = false ∧ c' = c.goTo s .tick ∨ ok = true ∧ c' = (c.spawn target g d).goTo s .tick) := by
  unfold Config.onStatus at h
  split at h
  · refine .inl ⟨‹_›, ?_⟩
    split at h
    · exact .inr ⟨rfl, _, ‹_›, (Option.some.inj h).symm⟩
    · exact .inl (Option.some.inj h).symm
  · refine .inr (.inl ⟨_, ‹_›, ?_⟩)
    split at h
    · exact .inr ⟨rfl, _, ‹_›, (Option.some.inj h).symm⟩
    · exact .inl (Option.some.inj h).symm
  · refine .inr (.inr ⟨_, _, _, ‹_›, ?_⟩)
    split at h
    · exact .inr ⟨‹_›, (Option.some.inj h).symm⟩
    · exact .inl ⟨by simpa using ‹¬ ok = true›, (Option.some.inj h).symm⟩
  · cases h

theorem onTarget_eq_some {c c' : Config} {answer : Option OsGetResponse} (h : c.onTarget answer = some c') :
    ∃ s, c.At s .target ∧ (answer = none ∧ c' = c.goTo s .tick ∨
      ∃ target, answer = some target ∧ c' = { c with lastTarget := some target }.goTo s (s.next target)) := by
  unfold Config.onTarget at h
  split at h
  · refine ⟨_, ‹_›, ?_⟩
    split at h
    · exact .inr ⟨_, rfl, (Option.some.inj h).symm⟩
    · exact .inl ⟨rfl, (Option.some.inj h).symm⟩
  · cases h

theorem onReport_eq_some {c c' : Config} (h : c.onReport = some c') :
    ∃ s id, c.At s (.report id) ∧ c' = c.goTo s .tick := by
  unfold Config.onReport at h
  split at h
  · exact ⟨_, _, ‹_›, (Option.some.inj h).symm⟩
  · cases h

theorem onSwitch_eq_some {c c' : Config} {staged : Option BootcDeploymentInfo} (h : c.onSwitch staged = some c') :
    ∃ s target, (c.At s (.switchNow target) ∨ c.At s (.switchDeferred target)) ∧
      (staged = none ∧ c' = c.goTo s .tick ∨ ∃ info, staged = some info ∧
        (c.At s (.switchNow target) ∧ c' = (c.switch info).goTo s .applyNow ∨
          c.At s (.switchDeferred target) ∧ c' = (c.switch info).goTo { s with countdownStarted := true }
            (.statusBeforeTimer target ⟨c.switches + 1, c.now, info⟩))) := by
  unfold Config.onSwitch at h
  split at h
  · exact ⟨_, _, .inl ‹_›, .inr ⟨_, rfl, .inl ⟨‹_›, (Option.some.inj h).symm⟩⟩⟩
  · exact ⟨_, _, .inr ‹_›, .inr ⟨_, rfl, .inr ⟨‹_›, (Option.some.inj h).symm⟩⟩⟩
  · exact ⟨_, _, .inl ‹_›, .inl ⟨rfl, (Option.some.inj h).symm⟩⟩
  · exact ⟨_, _, .inr ‹_›, .inl ⟨rfl, (Option.some.inj h).symm⟩⟩
  · cases h

theorem onApply_eq_some {c c' : Config} {ended : ApplyEnd} (h : c.onApply ended = some c') :
    ∃ s, (c.At s .applyStaged ∨ c.At s .applyNow) ∧
      (c.apply ended = some c' ∨ c.apply ended = none ∧ c' = c.goTo s .tick) := by
  unfold Config.onApply at h
  split at h
  all_goals
    first
    | refine ⟨_, .inl ‹_›, ?_⟩
    | refine ⟨_, .inr ‹_›, ?_⟩
    | cases h
  all_goals
    cases ha : c.apply ended with
    | none => rw [ha] at h; exact .inr ⟨rfl, (Option.some.inj h).symm⟩
    | some c₁ => rw [ha] at h; exact .inl h

theorem expire_eq_some {c c' : Config} {i : Nat} (h : c.expire i = some c') :
    ∃ t, c.timers[i]? = some t ∧ t.applying = false ∧ t.wakes ≤ c.now ∧
      c' = { c with osSwitchInProgress := true, timers := c.timers.set i { t with applying := true } } := by
  obtain ⟨t, ht, h⟩ := Option.bind_eq_some_iff.1 h
  by_cases hw : t.applying = false ∧ t.wakes ≤ c.now
  · rw [if_pos hw] at h
    exact ⟨t, ht, hw.1, hw.2, (Option.some.inj h).symm⟩
  · rw [if_neg hw] at h
    cases h

theorem applied_eq_some {c c' : Config} {i : Nat} {ended : ApplyEnd} (h : c.applied i ended = some c') :
    ∃ t, c.timers[i]? = some t ∧ t.applying = true ∧
      (c.apply ended = some c' ∨ c.apply ended = none ∧ c' = { c with timers := c.timers.eraseIdx i }) := by
  obtain ⟨t, ht, h⟩ := Option.bind_eq_some_iff.1 h
  split at h
  · refine ⟨t, ht, ‹_›, ?_⟩
    cases ha : c.apply ended with
    | none => rw [ha] at h; exact .inr ⟨rfl, (Option.some.inj h).symm⟩
    | some c₁ => rw [ha] at h; exact .inl h
  · cases h

/-! ## What a step changes on the host -/

/-- A switch succeeds. -/
def Action.stages : Action → Bool
  | .switch staged => staged.isSome
  | _ => false

/-- The step ends an apply, of the loop or of a timer. -/
def EndsApply (c : Config) (a : Action) (ended : ApplyEnd) : Prop :=
  (a = .apply ended ∧ ∃ s, c.At s .applyStaged ∨ c.At s .applyNow) ∨
  ∃ i t, a = .applied i ended ∧ c.timers[i]? = some t ∧ t.applying = true

/-- **Only a switch stages, and only an apply boots.** -/
theorem step_host {d : Nat} {c c' : Config} {a : Action} (hc : step d c a = some c') :
    (∃ ended, EndsApply c a ended ∧ c.apply ended = some c') ∨
    (a.stages = true ∧ c'.booted = c.booted ∧ c'.switches = c.switches + 1) ∨
    (a.stages = false ∧ c'.booted = c.booted ∧ c'.staged = c.staged ∧ c'.switches = c.switches) := by
  cases a with
  | elapse k => exact Option.some.inj hc ▸ .inr (.inr ⟨rfl, rfl, rfl, rfl⟩)
  | tick =>
    obtain ⟨s, -, rfl⟩ := onTick_eq_some (show c.onTick = some c' from hc)
    exact .inr (.inr ⟨rfl, rfl, rfl, rfl⟩)
  | status ok =>
    rcases onStatus_eq_some (show c.onStatus d ok = some c' from hc) with ⟨-, rfl | ⟨-, s, -, rfl⟩⟩ |
      ⟨s, -, rfl | ⟨-, s', -, rfl⟩⟩ | ⟨s, target, g, -, ⟨-, rfl⟩ | ⟨-, rfl⟩⟩
    all_goals exact .inr (.inr ⟨rfl, rfl, rfl, rfl⟩)
  | target answer =>
    obtain ⟨s, -, ⟨-, rfl⟩ | ⟨target, -, rfl⟩⟩ := onTarget_eq_some (show c.onTarget answer = some c' from hc)
    all_goals exact .inr (.inr ⟨rfl, rfl, rfl, rfl⟩)
  | report ok =>
    obtain ⟨s, id, -, rfl⟩ := onReport_eq_some (show c.onReport = some c' from hc)
    exact .inr (.inr ⟨rfl, rfl, rfl, rfl⟩)
  | switch staged =>
    obtain ⟨s, target, -, ⟨rfl, rfl⟩ | ⟨info, rfl, ⟨-, rfl⟩ | ⟨-, rfl⟩⟩⟩ :=
      onSwitch_eq_some (show c.onSwitch staged = some c' from hc)
    · exact .inr (.inr ⟨rfl, rfl, rfl, rfl⟩)
    all_goals exact .inr (.inl ⟨rfl, rfl, rfl⟩)
  | apply ended =>
    obtain ⟨s, hat, ha | ⟨-, rfl⟩⟩ := onApply_eq_some (show c.onApply ended = some c' from hc)
    · exact .inl ⟨ended, .inl ⟨rfl, s, hat⟩, ha⟩
    · exact .inr (.inr ⟨rfl, rfl, rfl, rfl⟩)
  | expire i =>
    obtain ⟨t, -, -, -, rfl⟩ := expire_eq_some (show c.expire i = some c' from hc)
    exact .inr (.inr ⟨rfl, rfl, rfl, rfl⟩)
  | applied i ended =>
    obtain ⟨t, hi, hap, ha | ⟨-, rfl⟩⟩ := applied_eq_some (show c.applied i ended = some c' from hc)
    · exact .inl ⟨ended, .inr ⟨i, t, rfl, hi, hap⟩, ha⟩
    · exact .inr (.inr ⟨rfl, rfl, rfl, rfl⟩)
  | restart => exact Option.some.inj hc ▸ .inr (.inr ⟨rfl, rfl, rfl, rfl⟩)

end Os
end ZeroDowntime
