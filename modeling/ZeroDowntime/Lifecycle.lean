/-!
# Lifecycle — the task that keeps one container alive

`run_lifecycle_loop` observes its container, starts it when it is stopped, and waits: for a timeout, for a change of
state, or for the delete permit that `Application::remove` leaves.  What podman answers to each call is the input; what
the task sends is the output.  A task that takes the permit stops and destroys its container and then returns, whatever
the two calls answered (`step_destroyed`).
-/
namespace ZeroDowntime
namespace Lifecycle

abbrev Error := String

inductive PodmanContainerState
  | stopped
  | ambiguous
  | running
  deriving DecidableEq, Repr

def PodmanContainerState.ofStatus (value : String) : PodmanContainerState :=
  if value ∈ ["created", "initialized", "stopped", "exited", "paused"] then .stopped
  else if value = "running" then .running
  else .ambiguous

/-! ## The podman wrapper -/

def containerState (inspect : Except Error (Option String)) : Except Error PodmanContainerState :=
  match inspect with
  | .error e => .error e
  | .ok (some s) => .ok (.ofStatus s)
  | .ok none => .ok .ambiguous

def containerStart (inspect : Except Error (Option String)) (start : Except Error Unit) : Except Error Unit :=
  match containerState inspect with
  | .error e => .error e
  | .ok s => if s = .stopped then start else .ok ()

def containerStop (inspect : Except Error (Option String)) (stop : Except Error Unit) : Except Error Unit :=
  match containerState inspect with
  | .error e => .error e
  | .ok s => if s = .running then stop else .ok ()

/-! ## One iteration -/

inductive LifecycleEvent
  | stateChange (old : Option PodmanContainerState) (new : PodmanContainerState)
  | stoppedUnexpectedly
  | failureThresholdReached (failures : UInt32)
  | attemptingStart
  | fatalError (e : Error)
  deriving DecidableEq, Repr

/-- What the task sends: an event, or a log stream to the registry, with `since` or from the beginning. -/
inductive Output
  | event (e : LifecycleEvent)
  | addLogs (since : Bool)
  deriving DecidableEq, Repr

structure LoopState where
  failureCounter : UInt32
  oldState : Option PodmanContainerState
  hasLogHandle : Bool
  everRegistered : Bool
  deriving DecidableEq, Repr

def LoopState.init : LoopState := ⟨0, none, false, false⟩

/-- The branch of `select!` that completes, with what the calls in it answered. -/
inductive Branch
  | slept
  | waited (res : Except Error Unit)
  | notified (stop destroy : Except Error Unit)

structure Responses where
  state : Except Error PodmanContainerState
  takeLogHandle : Bool
  start : Except Error Unit
  select : Branch

/-- Seconds; `none` is `Duration::MAX`. -/
abbrev Timeout := Option Nat

def increaseFailures (s : LoopState) : LoopState × List Output :=
  let counter := s.failureCounter + 1
  ({ s with failureCounter := counter },
    if counter = 10 then [.event (.failureThresholdReached counter)] else [])

def registerLogs (s : LoopState) (takeLogHandle : Bool) : LoopState × List Output :=
  if s.hasLogHandle || takeLogHandle then
    ({ s with hasLogHandle := true, everRegistered := true }, [.addLogs s.everRegistered])
  else (s, [])

/-- Report a state that was not observed before, and register the logs of a container that entered `running`. -/
def observe (s : LoopState) (state : PodmanContainerState) (takeLogHandle : Bool) : LoopState × List Output :=
  if s.oldState = some state then (s, [])
  else
    let change : List Output := [.event (.stateChange s.oldState state)]
    if state = .running then
      let (s', out) := registerLogs s takeLogHandle
      (s', change ++ out)
    else (s, change)

/-- Act on the state: the timeout to wait for, or the error of a failed start. -/
def react (s : LoopState) (state : PodmanContainerState) (start : Except Error Unit) :
    List Output × LoopState × Except Error Timeout :=
  match state with
  | .stopped =>
    let (s', failed) := if s.oldState.isSome then increaseFailures s else (s, []) -- not for the initial start
    let unexpected : List Output := if s.oldState = some .running then [.event .stoppedUnexpectedly] else []
    match start with
    | .error e => (failed ++ unexpected, s', .error e)
    | .ok _ => (failed ++ unexpected ++ [.event .attemptingStart], s', .ok (some 10))
  | .ambiguous =>
    let (s', failed) := increaseFailures s
    (failed, s', .ok (some 10))
  | .running =>
    if s.oldState.isSome && decide (s.oldState ≠ some .running) then ([], s, .ok (some 600))
    else ([], { s with failureCounter := 0 }, .ok none)

def Branch.enabled (permit : Bool) (timeout : Timeout) : Branch → Bool
  | .slept => timeout.isSome
  | .waited _ => true
  | .notified _ _ => permit

/-- The task after an iteration: it goes on, an error ends the pass, or it has returned. -/
inductive Task
  | live (s : LoopState)
  | returned (destroyed : Bool)
  deriving DecidableEq, Repr

/-- An error is reported, and a new pass begins: only the log handle and the registration are kept. -/
def fatal (s : LoopState) (e : Error) : List Output × Task :=
  ([.event (.fatalError e)], .live { s with failureCounter := 0, oldState := none })

def reportError : Except Error Unit → List Output
  | .error e => [.event (.fatalError e)]
  | .ok _ => []

def complete (s : LoopState) : Branch → List Output × Task
  | .slept => ([], .live s)
  | .waited (.ok _) => ([], .live s)
  | .waited (.error e) => fatal s e
  | .notified stop destroy => (reportError stop ++ reportError destroy, .returned (destroy.isOk))

/-- One iteration; `none` if the branch that is said to complete cannot. -/
def step (permit : Bool) (s : LoopState) (r : Responses) : Option (List Output × Task) :=
  match r.state with
  | .error e => some (fatal s e)
  | .ok state =>
    let (s₁, seen) := observe s state r.takeLogHandle
    match react s₁ state r.start with
    | (acted, s₂, .error e) =>
      let (failed, t) := fatal s₂ e
      some (seen ++ acted ++ failed, t)
    | (acted, s₂, .ok timeout) =>
      if r.select.enabled permit timeout then
        let (done, t) := complete { s₂ with oldState := some state } r.select
        some (seen ++ acted ++ done, t)
      else none

def run (permit : Bool) : LoopState → List Responses → Option (List Output × Task)
  | s, [] => some ([], .live s)
  | s, r :: rs =>
    match step permit s r with
    | none => none
    | some (out, .returned d) => some (out, .returned d)
    | some (out, .live s') => (run permit s' rs).map (fun p => (out ++ p.1, p.2))

/-! ## The end of the task -/

/-- What `destroy` answered, in an iteration that comes to its `select!` and takes the permit there. -/
def Responses.destroyed (r : Responses) : Option (Except Error Unit) :=
  match r.state, r.select with
  | .ok .stopped, .notified _ destroy => if r.start.isOk then some destroy else none
  | .ok _, .notified _ destroy => some destroy
  | _, _ => none

def Task.destroyed : Task → Option Bool
  | .live _ => none
  | .returned destroyed => some destroyed

theorem complete_destroyed (s : LoopState) (b : Branch) :
    (complete s b).2.destroyed = match b with
      | .notified _ destroy => some destroy.isOk
      | _ => none := by
  cases b with
  | slept => rfl
  | waited res => cases res <;> rfl
  | notified stop destroy => rfl

/-- Only a failed start of a stopped container keeps an iteration from its `select!`. -/
theorem react_error (s : LoopState) (state : PodmanContainerState) (start : Except Error Unit) :
    (∃ e, (react s state start).2.2 = .error e) ↔ state = .stopped ∧ start.isOk = false := by
  cases state with
  | stopped => cases start <;> simp [react, Except.isOk, Except.toBool]
  | ambiguous => simp [react]
  | running => simp only [react]; split <;> simp

/-- **An iteration ends the task exactly if it takes the permit, whatever `stop` answered; the container is gone exactly
if `destroy` answered so.** -/
theorem step_destroyed (permit : Bool) (s : LoopState) (r : Responses) (out : List Output) (t : Task)
    (h : step permit s r = some (out, t)) : t.destroyed = r.destroyed.map Except.isOk := by
  unfold step at h
  cases hst : r.state with
  | error e =>
    rw [hst] at h
    obtain rfl : (fatal s e).2 = t := congrArg Prod.snd (Option.some.inj h)
    simp [Responses.destroyed, hst, fatal, Task.destroyed]
  | ok state =>
    rw [hst] at h
    dsimp only at h
    have herr := react_error (observe s state r.takeLogHandle).1 state r.start
    split at h
    · rename_i acted s₂ e hre
      rw [hre] at herr
      obtain ⟨rfl, hstart⟩ := herr.1 ⟨e, rfl⟩
      obtain rfl : (fatal s₂ e).2 = t := congrArg Prod.snd (Option.some.inj h)
      cases hsel : r.select <;> simp [Responses.destroyed, hst, hsel, hstart, fatal, Task.destroyed]
    · rename_i acted s₂ timeout hre
      rw [hre] at herr
      have hgo : state = .stopped → r.start.isOk = true := fun hs => by
        cases hstart : r.start.isOk with
        | true => rfl
        | false =>
          obtain ⟨e, he⟩ := herr.2 ⟨hs, hstart⟩
          cases he
      split at h
      · obtain rfl : (complete { s₂ with oldState := some state } r.select).2 = t := congrArg Prod.snd (Option.some.inj h)
        rw [complete_destroyed]
        cases hsel : r.select with
        | slept => cases state <;> simp [Responses.destroyed, hst, hsel]
        | waited res => cases state <;> simp [Responses.destroyed, hst, hsel]
        | notified stop destroy =>
          cases state with
          | stopped => simp [Responses.destroyed, hst, hsel, hgo rfl]
          | ambiguous => simp [Responses.destroyed, hst, hsel]
          | running => simp [Responses.destroyed, hst, hsel]
      · cases h

/-- **A task has returned exactly if an iteration took the permit, and its container is gone exactly if `destroy`
answered so in the first one that did.** -/
theorem run_destroyed (permit : Bool) : ∀ (rs : List Responses) (s : LoopState) (out : List Output) (t : Task),
    run permit s rs = some (out, t) → t.destroyed = (rs.findSome? Responses.destroyed).map Except.isOk
  | [], s, out, t, h => by
    obtain rfl : Task.live s = t := congrArg Prod.snd (Option.some.inj h)
    rfl
  | r :: rs, s, out, t, h => by
    rw [run] at h
    cases hs : step permit s r with
    | none => rw [hs] at h; cases h
    | some p =>
      obtain ⟨o, t'⟩ := p
      have hr := step_destroyed permit s r o t' hs
      rw [hs] at h
      cases t' with
      | returned d =>
        obtain rfl : Task.returned d = t := congrArg Prod.snd (Option.some.inj h)
        obtain ⟨destroy, hd, he⟩ := Option.map_eq_some_iff.1 hr.symm
        rw [List.findSome?_cons, hd]
        exact congrArg some he.symm
      | live s' =>
        have hd : r.destroyed = none := Option.map_eq_none_iff.1 hr.symm
        rw [List.findSome?_cons, hd]
        obtain ⟨q, hq, hqe⟩ := Option.map_eq_some_iff.1 h
        exact run_destroyed permit rs s' q.1 t (by rw [hq]; exact congrArg some (Prod.ext rfl (Prod.mk.inj hqe).2))

end Lifecycle
end ZeroDowntime
