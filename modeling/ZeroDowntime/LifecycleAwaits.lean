import ZeroDowntime.Lifecycle
import ZeroDowntime.Runs
/-!
# LifecycleAwaits — the task of a container, await by await

`run_lifecycle_loop` looks at the delete permit in its `select!` alone; an error of `state` or `start` ends the iteration
before that, and the task sleeps without looking (`removal_heeded_iff`).  An undisturbed iteration is a step of the loop
(`resume_step`).
-/
namespace ZeroDowntime
namespace Lifecycle

open Runs (Along)

/-- Where the task is suspended. -/
inductive Await
  | state
  | start
  | select (timeout : Timeout)
  | stop
  | destroy
  /-- The ten seconds before the next pass. -/
  | retry
  | returned (destroyed : Bool)
  deriving DecidableEq, Repr

/-- An iteration ends before its `select!`, through a branch of it, or with the container removed. -/
inductive Ending
  | stateFailed
  | startFailed
  | slept
  | waited (ok : Bool)
  | removed (destroyed : Bool)
  deriving DecidableEq, Repr

structure Iteration where
  pending : Bool
  ending : Ending
  deriving DecidableEq, Repr

/-- The task, with what it has sent and the iterations that have ended; `pending`: the permit was there when the present
iteration began. -/
structure LifecycleLoop where
  await : Await
  vars : LoopState
  permit : Bool
  pending : Bool
  sent : List Output
  iterations : List Iteration
  deriving DecidableEq, Repr

/-- The permit may have been left before the task is first polled. -/
def LifecycleLoop.init (permit : Bool) : LifecycleLoop := ⟨.state, .init, permit, permit, [], []⟩

/-- `notify_one` by `Application::remove`; the others are the answers the task waits for, `notified` the permit taken. -/
inductive LifecycleAction
  | notify
  | state (res : Except Error PodmanContainerState) (takeLogHandle : Bool)
  | start (res : Except Error Unit)
  | slept
  | waited (res : Except Error Unit)
  | notified
  | stop (res : Except Error Unit)
  | destroy (res : Except Error Unit)
  | retry

def LifecycleLoop.ended (l : LifecycleLoop) (ending : Ending) : LifecycleLoop :=
  { l with iterations := l.iterations ++ [⟨l.pending, ending⟩] }

def LifecycleLoop.again (l : LifecycleLoop) : LifecycleLoop := { l with await := .state, pending := l.permit }

/-- An error leaves the inner loop: it is reported, and the task sleeps. -/
def LifecycleLoop.fail (l : LifecycleLoop) (ending : Ending) (e : Error) : LifecycleLoop :=
  { l.ended ending with await := .retry, sent := l.sent ++ [.event (.fatalError e)] }

def LifecycleLoop.select (l : LifecycleLoop) (s : LoopState) (state : PodmanContainerState) (out : List Output)
    (timeout : Timeout) : LifecycleLoop :=
  { l with await := .select timeout, vars := { s with oldState := some state }, sent := l.sent ++ out }

/-- What precedes the start of a stopped container. -/
def beforeStart (s : LoopState) : LoopState × List Output :=
  let (s', failed) := if s.oldState.isSome then increaseFailures s else (s, []) -- not for the initial start
  let unexpected : List Output := if s.oldState = some .running then [.event .stoppedUnexpectedly] else []
  (s', failed ++ unexpected)

def LifecycleLoop.observed (l : LifecycleLoop) (state : PodmanContainerState) (takeLogHandle : Bool) : LifecycleLoop :=
  let (s, seen) := observe l.vars state takeLogHandle
  match state with
  | .stopped => { l with await := .start, vars := (beforeStart s).1, sent := l.sent ++ (seen ++ (beforeStart s).2) }
  | .ambiguous => l.select (increaseFailures s).1 .ambiguous (seen ++ (increaseFailures s).2) (some 10)
  | .running =>
    if s.oldState.isSome && decide (s.oldState ≠ some .running) then l.select s .running seen (some 600)
    else l.select { s with failureCounter := 0 } .running seen none

def resume (l : LifecycleLoop) (a : LifecycleAction) : Option LifecycleLoop :=
  match l.await, a with
  | _, .notify => some { l with permit := true }
  | .state, .state (.error e) _ => some (l.fail .stateFailed e)
  | .state, .state (.ok state) takeLogHandle => some (l.observed state takeLogHandle)
  | .start, .start (.error e) => some (l.fail .startFailed e)
  | .start, .start (.ok _) => some (l.select l.vars .stopped [.event .attemptingStart] (some 10))
  | .select timeout, .slept => if timeout.isSome then some (l.ended .slept).again else none
  | .select _, .waited (.ok _) => some (l.ended (.waited true)).again
  | .select _, .waited (.error e) => some (l.fail (.waited false) e)
  | .select _, .notified => if l.permit then some { l with await := .stop, permit := false } else none
  | .stop, .stop res => some { l with await := .destroy, sent := l.sent ++ reportError res }
  | .destroy, .destroy res =>
    some { l.ended (.removed res.isOk) with await := .returned res.isOk, sent := l.sent ++ reportError res }
  | .retry, .retry => some { l with vars := { l.vars with failureCounter := 0, oldState := none } }.again
  | _, _ => none

/-! ## An undisturbed iteration is a step of the loop -/

def Branch.actions : Branch → List LifecycleAction
  | .slept => [.slept]
  | .waited (.ok _) => [.waited (.ok ())]
  | .waited (.error e) => [.waited (.error e), .retry]
  | .notified stop destroy => [.notified, .stop stop, .destroy destroy]

/-- The answers of one iteration, in the order the task waits for them. -/
def Responses.actions (r : Responses) : List LifecycleAction :=
  .state r.state r.takeLogHandle ::
    match r.state, r.start with
    | .error _, _ => [.retry]
    | .ok .stopped, .error e => [.start (.error e), .retry]
    | .ok .stopped, .ok _ => .start (.ok ()) :: r.select.actions
    | .ok _, _ => r.select.actions

/-- The task after the iteration, as the loop has it. -/
def LifecycleLoop.Shows (l : LifecycleLoop) : Task → Prop
  | .live s => l.await = .state ∧ l.vars = s
  | .returned d => l.await = .returned d

theorem complete_actions {l : LifecycleLoop} {timeout : Timeout} (hl : l.await = .select timeout) {b : Branch}
    (hb : b.enabled l.permit timeout = true) : ∃ l', Runs.run resume l b.actions = some l' ∧
      l'.sent = l.sent ++ (complete l.vars b).1 ∧ l'.Shows (complete l.vars b).2 := by
  obtain ⟨await, vars, permit, pending, sent, iterations⟩ := l
  obtain rfl : await = .select timeout := hl
  cases b with
  | slept =>
    obtain ⟨t, rfl⟩ := Option.isSome_iff_exists.1 hb
    exact ⟨_, rfl, (List.append_nil _).symm, rfl, rfl⟩
  | waited res =>
    cases res with
    | ok _ => exact ⟨_, rfl, (List.append_nil _).symm, rfl, rfl⟩
    | error e => exact ⟨_, rfl, rfl, rfl, rfl⟩
  | notified stop destroy =>
    obtain rfl : permit = true := hb
    exact ⟨_, rfl, List.append_assoc .., rfl⟩

theorem select_actions (l : LifecycleLoop) {timeout : Timeout} (hl : l.await = .select timeout) {b : Branch}
    (before : List Output) {out : List Output} {t : Task} (h : (if b.enabled l.permit timeout
      then some (before ++ (complete l.vars b).1, (complete l.vars b).2) else none) = some (out, t)) :
    ∃ l' done, Runs.run resume l b.actions = some l' ∧ out = before ++ done ∧ l'.sent = l.sent ++ done ∧ l'.Shows t := by
  split at h
  · rename_i hb
    obtain ⟨rfl, rfl⟩ := Prod.mk.inj (Option.some.inj h)
    obtain ⟨l', hrun, hsent, hshows⟩ := complete_actions hl hb
    exact ⟨l', _, hrun, rfl, hsent, hshows⟩
  · cases h

theorem react_stopped (s : LoopState) (start : Except Error Unit) : react s .stopped start =
    match start with
    | .error e => ((beforeStart s).2, (beforeStart s).1, .error e)
    | .ok _ => ((beforeStart s).2 ++ [.event .attemptingStart], (beforeStart s).1, .ok (some 10)) := by
  cases start <;> rfl

/-- **The awaits of an iteration and the iteration agree**: on what is sent, and on the state they leave. -/
theorem resume_step {l : LifecycleLoop} (hl : l.await = .state) {r : Responses} {out : List Output} {t : Task}
    (h : step l.permit l.vars r = some (out, t)) : ∃ l', Runs.run resume l r.actions = some l' ∧
      l'.sent = l.sent ++ out ∧ l'.Shows t := by
  obtain ⟨await, vars, permit, pending, sent, iterations⟩ := l
  obtain rfl : await = .state := hl
  obtain ⟨state, takeLogHandle, start, select⟩ := r
  unfold step at h
  cases state with
  | error e =>
    obtain ⟨rfl, rfl⟩ := Prod.mk.inj (Option.some.inj h)
    exact ⟨_, rfl, rfl, rfl, rfl⟩
  | ok state =>
    let l₁ := (LifecycleLoop.mk .state vars permit pending sent iterations).observed state takeLogHandle
    let p := observe vars state takeLogHandle
    cases state with
    | stopped =>
      simp only [react_stopped] at h
      cases start with
      | error e =>
        obtain ⟨rfl, rfl⟩ := Prod.mk.inj (Option.some.inj h)
        exact ⟨_, rfl, by simp [LifecycleLoop.again, LifecycleLoop.fail, LifecycleLoop.observed, fatal], rfl, rfl⟩
      | ok _ =>
        obtain ⟨l', done, hrun, rfl, hsent, hshows⟩ := select_actions
          (l₁.select l₁.vars .stopped [.event .attemptingStart] (some 10)) rfl _ h
        refine ⟨l', hrun, ?_, hshows⟩
        rw [hsent]
        simp [l₁, LifecycleLoop.select, LifecycleLoop.observed]
    | ambiguous =>
      obtain ⟨l', done, hrun, rfl, hsent, hshows⟩ := select_actions l₁ rfl (p.2 ++ (increaseFailures p.1).2) h
      exact ⟨l', hrun, by rw [hsent]; exact List.append_assoc .., hshows⟩
    | running =>
      obtain ⟨s', timeout, hreact, hl₁⟩ : ∃ s' timeout, react p.1 .running start = ([], s', .ok timeout) ∧
          l₁ = LifecycleLoop.select ⟨.state, vars, permit, pending, sent, iterations⟩ s' .running p.2 timeout := by
        by_cases hc : (p.1.oldState.isSome && decide (p.1.oldState ≠ some .running)) = true
        · exact ⟨_, _, if_pos hc, if_pos hc⟩
        · exact ⟨_, _, if_neg hc, if_neg hc⟩
      simp only [p] at hreact
      simp only [hreact, List.append_nil] at h
      obtain ⟨l', done, hrun, rfl, hsent, hshows⟩ := select_actions l₁ (congrArg LifecycleLoop.await hl₁) p.2
        (by rw [hl₁]; exact h)
      refine ⟨l', hrun, ?_, hshows⟩
      rw [hsent, hl₁]
      exact List.append_assoc ..

/-! ## Which iterations look at the permit -/

variable {l l' : LifecycleLoop} {a : LifecycleAction}

/-- `select!` was reached, and it or one of its branches ended the iteration. -/
def Ending.checked : Ending → Bool
  | .stateFailed | .startFailed => false
  | .slept | .waited _ | .removed _ => true

/-- **Every iteration that began with the permit has taken it, and returned when the container was stopped and destroyed,
or has ended through another branch of `select!`.** -/
def LifecycleLoop.Heeded (l : LifecycleLoop) : Prop :=
  ∀ it ∈ l.iterations, it.pending = true → it.ending.checked = true

instance (l : LifecycleLoop) : Decidable l.Heeded :=
  inferInstanceAs (Decidable (∀ it ∈ l.iterations, it.pending = true → it.ending.checked = true))

/-- Neither `state` nor `start` fails in an iteration that began with the permit. -/
def LifecycleLoop.Answers (l : LifecycleLoop) : LifecycleAction → Prop
  | .state (.error _) _ => l.pending = false
  | .start (.error _) => l.pending = false
  | _ => True

instance (l : LifecycleLoop) : ∀ a, Decidable (l.Answers a)
  | .state (.error _) _ => inferInstanceAs (Decidable (l.pending = false))
  | .start (.error _) => inferInstanceAs (Decidable (l.pending = false))
  | .state (.ok _) _ | .start (.ok _) | .notify | .slept | .waited _ | .notified | .stop _ | .destroy _ | .retry =>
    .isTrue trivial

theorem LifecycleLoop.heeded_ended (l : LifecycleLoop) (ending : Ending) :
    (l.ended ending).Heeded ↔ l.Heeded ∧ (l.pending = true → ending.checked = true) := by
  simp only [LifecycleLoop.Heeded, LifecycleLoop.ended, List.mem_append, List.mem_singleton]
  constructor
  · exact fun h => ⟨fun it hit => h it (.inl hit), h _ (.inr rfl)⟩
  · rintro ⟨h, hnew⟩ it (hit | rfl)
    · exact h it hit
    · exact hnew

theorem LifecycleLoop.Heeded.ended (h : l.Heeded) {ending : Ending} (he : ending.checked = true) :
    (l.ended ending).Heeded :=
  (l.heeded_ended ending).2 ⟨h, fun _ => he⟩

theorem LifecycleLoop.Heeded.ended_iff (h : l.Heeded) {ending : Ending} (he : ending.checked = false) :
    (l.ended ending).Heeded ↔ l.pending = false := by
  rw [l.heeded_ended, he]
  simp [h]

theorem LifecycleLoop.Heeded.observed (h : l.Heeded) (state : PodmanContainerState) (takeLogHandle : Bool) :
    (l.observed state takeLogHandle).Heeded := by
  cases state with
  | stopped => exact h
  | ambiguous => exact h
  | running =>
    simp only [LifecycleLoop.observed]
    split
    · exact h
    · exact h

/-- **A step that is not such a failure ends no iteration unchecked; a failure does.** -/
theorem LifecycleLoop.Heeded.resume (h : l.Heeded) (hs : Lifecycle.resume l a = some l') : l'.Heeded ↔ l.Answers a := by
  unfold Lifecycle.resume at hs
  split at hs
  · exact Option.some.inj hs ▸ iff_of_true h trivial
  · exact Option.some.inj hs ▸ h.ended_iff rfl
  · exact Option.some.inj hs ▸ iff_of_true (h.observed _ _) trivial
  · exact Option.some.inj hs ▸ h.ended_iff rfl
  · exact Option.some.inj hs ▸ iff_of_true h trivial
  · split at hs
    · exact Option.some.inj hs ▸ iff_of_true (h.ended rfl) trivial
    · cases hs
  · exact Option.some.inj hs ▸ iff_of_true (h.ended rfl) trivial
  · exact Option.some.inj hs ▸ iff_of_true (h.ended rfl) trivial
  · split at hs
    · exact Option.some.inj hs ▸ iff_of_true h trivial
    · cases hs
  · exact Option.some.inj hs ▸ iff_of_true h trivial
  · exact Option.some.inj hs ▸ iff_of_true (h.ended rfl) trivial
  · exact Option.some.inj hs ▸ iff_of_true h trivial
  · cases hs

/-- **Every iteration that begins with the permit pending looks at it, exactly if no call of `state` or `start` fails in
such an iteration.** -/
theorem removal_heeded_iff (permit : Bool) (as : List LifecycleAction) (l : LifecycleLoop)
    (hrun : Runs.run resume (.init permit) as = some l) :
    (∀ pre post l₁, as = pre ++ post → Runs.run resume (.init permit) pre = some l₁ → l₁.Heeded) ↔
      Along resume LifecycleLoop.Answers (.init permit) as :=
  Runs.reached_iff (I := fun _ => True) (fun _ _ _ _ _ => trivial) (fun _ _ _ _ h hs => h.resume hs) trivial
    (fun _ hit => nomatch hit) hrun

/-- A stopped container is started; the permit comes while the task waits, and is taken. -/
def removedInTime : List LifecycleAction :=
  [.state (.ok .stopped) true, .start (.ok ()), .notify, .waited (.ok ()), .state (.ok .running) true, .notified,
    .stop (.ok ()), .destroy (.ok ())]

theorem removal_heeded_in_time : ∃ l, Runs.run resume (.init false) removedInTime = some l ∧
    l.iterations = [⟨false, .waited true⟩, ⟨true, .removed true⟩] ∧ l.Heeded :=
  ⟨_, rfl, rfl, (removal_heeded_iff false removedInTime _ rfl).2 (by decide) removedInTime [] _ rfl rfl⟩

/-- **The permit is there, and the task sleeps all the same**, as often as podman fails to tell the state. -/
theorem failing_state_bypasses : ∃ l, Runs.run resume (.init true)
      [.state (.error "no such container") false, .retry, .state (.error "no such container") false] = some l ∧
    l.await = .retry ∧ l.permit = true ∧ l.iterations = [⟨true, .stateFailed⟩, ⟨true, .stateFailed⟩] ∧ ¬ l.Heeded :=
  ⟨_, rfl, rfl, rfl, rfl, by decide⟩

end Lifecycle
end ZeroDowntime
