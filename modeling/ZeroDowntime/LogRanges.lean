import ZeroDowntime.LifecycleAwaits
/-!
# LogRanges — which lines the log streams of a container ask for

`run_lifecycle_loop` opens a stream whenever it sees its container enter `running`: the first without `since`, a later one
with the second it is opened in.  A stream ends when the container stops.  What the container prints from its restart on is
lost until that second begins (`lines_requested_iff`, `missed_for_good`).
-/
namespace ZeroDowntime
namespace Lifecycle

/-- In nanoseconds. -/
def second : Int := 1000000000

/-- `DateTime::timestamp`: whole seconds. -/
def timestamp (t : Int) : Int := t / second

structure Line where
  number : Nat
  time : Int
  deriving DecidableEq, Repr

/-- A follow stream of podman, with the lines it has yielded so far. -/
structure FollowStream where
  since : Option Int
  yielded : List Line
  ended : Bool
  deriving DecidableEq, Repr

def FollowStream.wants (f : FollowStream) (line : Line) : Bool := f.since.all fun s => decide (s * second ≤ line.time)

def FollowStream.receive (f : FollowStream) (line : Line) : FollowStream :=
  if !f.ended && f.wants line then { f with yielded := f.yielded ++ [line] } else f

def FollowStream.stop (f : FollowStream) : FollowStream := { f with ended := true }

/-! ## The container and its task -/

/-- A container from when it was wrapped on: what it has printed, the task that looks after it, and the streams the task has
registered. -/
structure Watched where
  now : Int
  running : Bool
  lines : List Line
  task : LifecycleLoop
  streams : List FollowStream
  deriving DecidableEq, Repr

def Watched.wrap (now : Int) (running : Bool) : Watched := ⟨now, running, [], .init false, []⟩

inductive Happening
  | started
  | stopped
  | line
  | loop (a : LifecycleAction)

/-- The answer `running` comes from a container that runs; its log handle can be taken. -/
def LifecycleAction.possible (running : Bool) : LifecycleAction → Bool
  | .state (.ok .running) takeLogHandle => running && takeLogHandle
  | _ => true

def Output.since? : Output → Option Bool
  | .addLogs since => some since
  | .event _ => none

/-- What the task has sent to the registry in a step. -/
def requests (before after : LifecycleLoop) : List Bool := (after.sent.drop before.sent.length).filterMap Output.since?

/-- `PodmanWrapperLogHandle::logs`: what has been printed is yielded at once. -/
def Watched.logs (s : Watched) (since : Bool) : FollowStream :=
  let f : FollowStream := ⟨if since then some (timestamp s.now) else none, [], !s.running⟩
  { f with yielded := s.lines.filter f.wants }

def Watched.resumed (s : Watched) (task : LifecycleLoop) : Watched :=
  { s with task, streams := s.streams ++ (requests s.task task).map s.logs }

def Watched.emit (s : Watched) : Watched :=
  { s with
    lines := s.lines ++ [⟨s.lines.length, s.now⟩]
    streams := s.streams.map (FollowStream.receive · ⟨s.lines.length, s.now⟩) }

def Watched.occur (s : Watched) : Happening → Option Watched
  | .started => if s.running then none else some { s with running := true }
  | .stopped => if s.running then some { s with running := false, streams := s.streams.map FollowStream.stop } else none
  | .line => if s.running then some s.emit else none
  | .loop a => if a.possible s.running then (resume s.task a).map s.resumed else none

/-- Something happens, not before what has happened so far. -/
def Watched.step (s : Watched) (p : Int × Happening) : Option Watched :=
  if s.now ≤ p.1 then { s with now := p.1 }.occur p.2 else none

/-- The line is in the range of a stream. -/
def Watched.Yields (s : Watched) (line : Line) : Prop := ∃ f ∈ s.streams, line ∈ f.yielded

instance (s : Watched) (line : Line) : Decidable (s.Yields line) :=
  inferInstanceAs (Decidable (∃ f ∈ s.streams, line ∈ f.yielded))

/-! ## What can be seen without the streams -/

/-- The state the loop saw last in this pass; whether it has ever seen the container enter `running`, and the container has
not stopped since. -/
structure Sight where
  state : Option PodmanContainerState
  entered : Bool
  following : Bool
  deriving DecidableEq, Repr

def Sight.init : Sight := ⟨none, false, false⟩

def Sight.enters (v : Sight) : Happening → Bool
  | .loop (.state (.ok .running) _) => decide (v.state ≠ some .running)
  | _ => false

def Sight.next (v : Sight) : Happening → Sight
  | .stopped => { v with following := false }
  | .loop (.state (.ok .running) _) => if v.state = some .running then v else ⟨some .running, true, true⟩
  | .loop (.state (.ok state) _) => { v with state := some state }
  | .loop .retry => { v with state := none }
  | _ => v

/-- At some later time the loop sees the container enter `running`, for the first time or in a second that has begun by
`time`. -/
def LookedBack (time : Int) : Sight → List (Int × Happening) → Prop
  | _, [] => False
  | v, (t, h) :: rest =>
    (v.enters h = true ∧ (v.entered = false ∨ timestamp t * second ≤ time)) ∨ LookedBack time (v.next h) rest

/-- Every line comes after such a sight without a stop between them, or the loop looks back to it. -/
def Caught : Sight → List (Int × Happening) → Prop
  | _, [] => True
  | v, (t, .line) :: rest => (v.following = true ∨ LookedBack t v rest) ∧ Caught v rest
  | v, (_, h) :: rest => Caught (v.next h) rest

/-! ## The sight is that of the loop -/

/-- Where the loop goes on to observe, it remembers what it saw; while a container starts, what it will remember is known. -/
def Await.remembers (seen : Option PodmanContainerState) (s : LoopState) : Await → Prop
  | .state | .select _ => s.oldState = seen
  | .start => seen = some .stopped
  | .retry | .stop | .destroy | .returned _ => True

/-- The sight has what the loop decides by. -/
structure Sight.Of (v : Sight) (l : LifecycleLoop) : Prop where
  state : l.await.remembers v.state l.vars
  registered : l.vars.everRegistered = v.entered

theorem Sight.Of.remembers {v : Sight} {l : LifecycleLoop} (h : v.Of l) {await : Await} (hl : l.await = await) :
    await.remembers v.state l.vars :=
  hl ▸ h.state

theorem requests_of_sent {before after : LifecycleLoop} (out : List Output) (h : after.sent = before.sent ++ out) :
    requests before after = out.filterMap Output.since? := by
  rw [requests, h, List.drop_left]

theorem requests_self {before after : LifecycleLoop} (h : after.sent = before.sent) : requests before after = [] :=
  requests_of_sent [] (h.trans (List.append_nil _).symm)

theorem event_since (b : Prop) [Decidable b] (e : LifecycleEvent) :
    (if b then [Output.event e] else []).filterMap Output.since? = [] := by
  split <;> rfl

theorem increaseFailures_since (s : LoopState) : (increaseFailures s).2.filterMap Output.since? = [] :=
  event_since ..

theorem reportError_since (res : Except Error Unit) : (reportError res).filterMap Output.since? = [] := by
  cases res <;> rfl

theorem beforeStart_registered (s : LoopState) : (beforeStart s).1.everRegistered = s.everRegistered := by
  obtain ⟨failureCounter, oldState, hasLogHandle, everRegistered⟩ := s
  cases oldState <;> rfl

theorem beforeStart_since (s : LoopState) : (beforeStart s).2.filterMap Output.since? = [] := by
  obtain ⟨failureCounter, oldState, hasLogHandle, everRegistered⟩ := s
  cases oldState with
  | none => rfl
  | some state =>
    refine (List.filterMap_append ..).trans (List.append_eq_nil_iff.2 ⟨?_, ?_⟩)
    · exact increaseFailures_since _
    · exact event_since ..

/-- A state other than `running` registers nothing. -/
theorem observe_other (state : PodmanContainerState) (h : state ≠ .running) (s : LoopState) (takeLogHandle : Bool) :
    (observe s state takeLogHandle).1 = s ∧ (observe s state takeLogHandle).2.filterMap Output.since? = [] := by
  unfold observe
  split
  · exact ⟨rfl, rfl⟩
  · exact ⟨rfl, rfl⟩

theorem observe_again {s : LoopState} (h : s.oldState = some .running) (takeLogHandle : Bool) :
    observe s .running takeLogHandle = (s, []) :=
  if_pos h

theorem observe_running {s : LoopState} (h : s.oldState ≠ some .running) :
    observe s .running true = ({ s with hasLogHandle := true, everRegistered := true },
      [.event (.stateChange s.oldState .running), .addLogs s.everRegistered]) := by
  unfold observe registerLogs
  simp only [if_neg h, if_pos, Bool.or_true]
  rfl

/-- An error ends the pass, and the loop sees nothing until the next. -/
theorem Sight.Of.fail {v : Sight} {l : LifecycleLoop} (h : v.Of l) (ending : Ending) (e : Error) :
    v.Of (l.fail ending e) ∧ requests l (l.fail ending e) = [] :=
  ⟨⟨trivial, h.registered⟩, requests_of_sent [.event (.fatalError e)] rfl⟩

theorem observed_again {l : LifecycleLoop} (h : l.vars.oldState = some .running) :
    l.observed .running true = l.select { l.vars with failureCounter := 0 } .running [] none := by
  simp [LifecycleLoop.observed, observe_again h, h]

theorem observed_entering {l : LifecycleLoop} (h : l.vars.oldState ≠ some .running) :
    ∃ s timeout, l.observed .running true = l.select s .running
      [.event (.stateChange l.vars.oldState .running), .addLogs l.vars.everRegistered] timeout ∧
      s.everRegistered = true := by
  unfold LifecycleLoop.observed
  rw [observe_running h]
  simp only
  split
  · exact ⟨_, _, rfl, rfl⟩
  · exact ⟨_, _, rfl, rfl⟩

theorem Sight.Of.observed {v : Sight} {l : LifecycleLoop} (h : v.Of l) (hl : l.await = .state) {running : Bool}
    {state : PodmanContainerState} {takeLogHandle : Bool}
    (hp : (LifecycleAction.state (.ok state) takeLogHandle).possible running = true) :
    (v.next (.loop (.state (.ok state) takeLogHandle))).Of (l.observed state takeLogHandle) ∧
      requests l (l.observed state takeLogHandle) =
        if v.enters (.loop (.state (.ok state) takeLogHandle)) then [v.entered] else [] := by
  cases state with
  | stopped =>
    obtain ⟨hvars, hseen⟩ := observe_other .stopped (by decide) l.vars takeLogHandle
    refine ⟨⟨rfl, ?_⟩, ?_⟩
    · exact (congrArg (fun s => (beforeStart s).1.everRegistered) hvars).trans
        ((beforeStart_registered l.vars).trans h.registered)
    · have hsent : (l.observed .stopped takeLogHandle).sent = l.sent ++ ((observe l.vars .stopped takeLogHandle).2 ++
          (beforeStart (observe l.vars .stopped takeLogHandle).1).2) := rfl
      rw [requests_of_sent _ hsent, List.filterMap_append, hseen, beforeStart_since]
      rfl
  | ambiguous =>
    obtain ⟨hvars, hseen⟩ := observe_other .ambiguous (by decide) l.vars takeLogHandle
    refine ⟨⟨rfl, ?_⟩, ?_⟩
    · exact (congrArg LoopState.everRegistered hvars).trans h.registered
    · have hsent : (l.observed .ambiguous takeLogHandle).sent = l.sent ++
          ((observe l.vars .ambiguous takeLogHandle).2 ++
            (increaseFailures (observe l.vars .ambiguous takeLogHandle).1).2) := rfl
      rw [requests_of_sent _ hsent, List.filterMap_append, hseen, increaseFailures_since]
      rfl
  | running =>
    obtain ⟨-, rfl⟩ := Bool.and_eq_true_iff.1 hp
    have hold : l.vars.oldState = v.state := h.remembers hl
    by_cases ho : l.vars.oldState = some .running
    · have hstate : v.state = some .running := hold.symm.trans ho
      have hnext : v.next (.loop (.state (.ok .running) true)) = v := if_pos hstate
      rw [observed_again ho, hnext]
      refine ⟨⟨hstate.symm, h.registered⟩, ?_⟩
      rw [Sight.enters, hstate]
      exact requests_self (List.append_nil _)
    · have hstate : v.state ≠ some .running := fun hv => ho (hold.trans hv)
      have hnext : v.next (.loop (.state (.ok .running) true)) = ⟨some .running, true, true⟩ := if_neg hstate
      obtain ⟨s', timeout, hobserved, hs'⟩ := observed_entering ho
      rw [hobserved, hnext]
      refine ⟨⟨rfl, hs'⟩, ?_⟩
      rw [requests_of_sent _ rfl, Sight.enters, decide_eq_true hstate, ← h.registered]
      rfl

/-- **A step of the task: what it sees, and that it opens a stream exactly if it sees its container enter `running`**, with
`since` if it has seen that before. -/
theorem Sight.Of.resume {v : Sight} {l l' : LifecycleLoop} {a : LifecycleAction} {running : Bool} (h : v.Of l)
    (hp : a.possible running = true) (hs : Lifecycle.resume l a = some l') :
    (v.next (.loop a)).Of l' ∧ requests l l' = if v.enters (.loop a) then [v.entered] else [] := by
  unfold Lifecycle.resume at hs
  split at hs
  · obtain rfl := Option.some.inj hs
    exact ⟨⟨h.state, h.registered⟩, requests_self rfl⟩
  · exact Option.some.inj hs ▸ h.fail _ _
  · rename_i hl
    exact Option.some.inj hs ▸ h.observed hl hp
  · exact Option.some.inj hs ▸ h.fail _ _
  · rename_i hl
    obtain rfl := Option.some.inj hs
    have hstopped : v.state = some .stopped := h.remembers hl
    exact ⟨⟨hstopped.symm, h.registered⟩, requests_of_sent [.event .attemptingStart] rfl⟩
  · rename_i hl
    split at hs
    · obtain rfl := Option.some.inj hs
      have hold : l.vars.oldState = v.state := h.remembers hl
      exact ⟨⟨hold, h.registered⟩, requests_self rfl⟩
    · cases hs
  · rename_i hl
    obtain rfl := Option.some.inj hs
    have hold : l.vars.oldState = v.state := h.remembers hl
    exact ⟨⟨hold, h.registered⟩, requests_self rfl⟩
  · exact Option.some.inj hs ▸ h.fail _ _
  · split at hs
    · obtain rfl := Option.some.inj hs
      exact ⟨⟨trivial, h.registered⟩, requests_self rfl⟩
    · cases hs
  · rename_i res _
    obtain rfl := Option.some.inj hs
    exact ⟨⟨trivial, h.registered⟩, (requests_of_sent (reportError res) rfl).trans (reportError_since res)⟩
  · rename_i res _
    obtain rfl := Option.some.inj hs
    exact ⟨⟨trivial, h.registered⟩, (requests_of_sent (reportError res) rfl).trans (reportError_since res)⟩
  · obtain rfl := Option.some.inj hs
    exact ⟨⟨rfl, h.registered⟩, requests_self rfl⟩
  · cases hs

/-! ## What every step keeps -/

/-- The sight of the task; a stream is open exactly if the container is followed; no stream asks for less than what is to
come; every line yielded has been printed. -/
structure Watched.Seen (s : Watched) (v : Sight) : Prop where
  task : v.Of s.task
  following : (∃ f ∈ s.streams, f.ended = false) ↔ v.following = true
  since : ∀ f ∈ s.streams, ∀ line : Line, s.now ≤ line.time → f.wants line = true
  printed : ∀ f ∈ s.streams, ∀ line ∈ f.yielded, line ∈ s.lines
  numbered : ∀ line ∈ s.lines, line.number < s.lines.length

theorem timestamp_le (t : Int) : timestamp t * second ≤ t := by
  unfold timestamp second
  omega

theorem Watched.seen_wrap (now : Int) (running : Bool) : (Watched.wrap now running).Seen .init where
  task := ⟨rfl, rfl⟩
  following := iff_of_false (fun ⟨_, hf, _⟩ => nomatch hf) Bool.false_ne_true
  since := fun _ hf => nomatch hf
  printed := fun _ hf => nomatch hf
  numbered := fun _ hl => nomatch hl

theorem FollowStream.mem_receive {f : FollowStream} {line line' : Line} :
    line' ∈ (f.receive line).yielded ↔ line' ∈ f.yielded ∨ (line' = line ∧ f.ended = false ∧ f.wants line = true) := by
  unfold FollowStream.receive
  split
  · rename_i h
    simp only [Bool.and_eq_true, Bool.not_eq_true'] at h
    simp [h]
  · rename_i h
    simp only [Bool.and_eq_true, Bool.not_eq_true'] at h
    simp [h]

@[simp] theorem FollowStream.receive_ended (f : FollowStream) (line : Line) : (f.receive line).ended = f.ended := by
  unfold FollowStream.receive
  split <;> rfl

@[simp] theorem FollowStream.receive_since (f : FollowStream) (line : Line) : (f.receive line).since = f.since := by
  unfold FollowStream.receive
  split <;> rfl

theorem Watched.logs_wants (s : Watched) (since : Bool) (line : Line) :
    (s.logs since).wants line = true ↔ since = false ∨ timestamp s.now * second ≤ line.time := by
  cases since
  · exact iff_of_true rfl (.inl rfl)
  · simp [Watched.logs, FollowStream.wants]

theorem Watched.mem_logs (s : Watched) (since : Bool) (line : Line) :
    line ∈ (s.logs since).yielded ↔ line ∈ s.lines ∧ (since = false ∨ timestamp s.now * second ≤ line.time) := by
  rw [← s.logs_wants]
  exact List.mem_filter

theorem Sight.next_enters {v : Sight} {h : Happening} (he : v.enters h = true) :
    v.next h = ⟨some .running, true, true⟩ := by
  unfold Sight.enters at he
  split at he
  · exact if_neg (of_decide_eq_true he)
  · cases he

theorem Sight.next_following {v : Sight} {a : LifecycleAction} (he : v.enters (.loop a) = false) :
    (v.next (.loop a)).following = v.following := by
  unfold Sight.next
  split
  · rename_i heq
    cases heq
  · rename_i heq
    cases heq
    rw [if_pos (Decidable.not_not.1 (of_decide_eq_false he))]
  · rfl
  · rfl
  · rfl

theorem Sight.next_entered {v : Sight} (h : v.entered = true) (a : Happening) : (v.next a).entered = true := by
  unfold Sight.next
  split
  · exact h
  · split
    · exact h
    · rfl
  · exact h
  · exact h
  · exact h

theorem running_of_enters {v : Sight} {a : LifecycleAction} {running : Bool} (he : v.enters (.loop a) = true)
    (hp : a.possible running = true) : running = true := by
  unfold Sight.enters at he
  split at he
  · rename_i heq
    cases heq
    exact (Bool.and_eq_true_iff.1 hp).1
  · cases he

/-- What the task registers in a step. -/
theorem Watched.Seen.resumed {s : Watched} {v : Sight} (h : s.Seen v) {a : LifecycleAction} {task : LifecycleLoop}
    (hp : a.possible s.running = true) (hs : resume s.task a = some task) :
    s.resumed task = { s with task, streams := s.streams ++ if v.enters (.loop a) then [s.logs v.entered] else [] } := by
  rw [Watched.resumed, (h.task.resume hp hs).2]
  split <;> rfl

theorem Watched.Seen.emit {s : Watched} {v : Sight} (h : s.Seen v) : s.emit.Seen v where
  task := h.task
  following := by
    refine Iff.trans ⟨?_, ?_⟩ h.following
    · rintro ⟨f, hf, hopen⟩
      obtain ⟨g, hg, rfl⟩ := List.mem_map.1 hf
      exact ⟨g, hg, (g.receive_ended _).symm.trans hopen⟩
    · rintro ⟨g, hg, hopen⟩
      exact ⟨_, List.mem_map_of_mem hg, (g.receive_ended _).trans hopen⟩
  since := by
    intro f hf line hline
    obtain ⟨g, hg, rfl⟩ := List.mem_map.1 hf
    rw [FollowStream.wants, FollowStream.receive_since]
    exact h.since g hg line hline
  printed := by
    intro f hf line hline
    obtain ⟨g, hg, rfl⟩ := List.mem_map.1 hf
    rcases FollowStream.mem_receive.1 hline with hold | ⟨rfl, -⟩
    · exact List.mem_append_left _ (h.printed g hg line hold)
    · exact List.mem_concat_self
  numbered := by
    intro line hline
    rw [Watched.emit, List.length_append]
    rcases List.mem_append.1 hline with hold | hnew
    · exact Nat.lt_succ_of_lt (h.numbered line hold)
    · rw [List.mem_singleton.1 hnew]
      exact Nat.lt_succ_self _

theorem Watched.Seen.occur {s s' : Watched} {v : Sight} (h : s.Seen v) {a : Happening} (hs : s.occur a = some s') :
    s'.Seen (v.next a) := by
  cases a with
  | started =>
    obtain ⟨-, hs⟩ := Option.ite_none_left_eq_some.1 hs
    exact Option.some.inj hs ▸ ⟨h.task, h.following, h.since, h.printed, h.numbered⟩
  | stopped =>
    obtain ⟨-, hs⟩ := Option.ite_none_right_eq_some.1 hs
    refine Option.some.inj hs ▸ ⟨⟨h.task.state, h.task.registered⟩, ?_, ?_, ?_, h.numbered⟩
    · refine iff_of_false ?_ Bool.false_ne_true
      rintro ⟨f, hf, hopen⟩
      obtain ⟨g, -, rfl⟩ := List.mem_map.1 hf
      cases hopen
    · intro f hf
      obtain ⟨g, hg, rfl⟩ := List.mem_map.1 hf
      exact h.since g hg
    · intro f hf
      obtain ⟨g, hg, rfl⟩ := List.mem_map.1 hf
      exact h.printed g hg
  | line =>
    obtain ⟨-, hs⟩ := Option.ite_none_right_eq_some.1 hs
    exact Option.some.inj hs ▸ h.emit
  | loop a =>
    obtain ⟨hp, hs⟩ := Option.ite_none_right_eq_some.1 hs
    obtain ⟨task, hresume, rfl⟩ := Option.map_eq_some_iff.1 hs
    have htask := (h.task.resume hp hresume).1
    rw [h.resumed hp hresume]
    cases he : v.enters (.loop a) with
    | false =>
      rw [if_neg Bool.false_ne_true, List.append_nil]
      exact ⟨htask, (Sight.next_following he).symm ▸ h.following, h.since, h.printed, h.numbered⟩
    | true =>
      have hopen : (s.logs v.entered).ended = false := by rw [Watched.logs, running_of_enters he hp]; rfl
      refine ⟨htask, iff_of_true ⟨_, List.mem_concat_self, hopen⟩ (Sight.next_enters he ▸ rfl), ?_, ?_, h.numbered⟩
      · intro f hf line hline
        rcases List.mem_append.1 hf with hold | hnew
        · exact h.since f hold line hline
        · rw [List.mem_singleton.1 hnew, s.logs_wants]
          exact .inr (Int.le_trans (timestamp_le s.now) hline)
      · intro f hf line hline
        rcases List.mem_append.1 hf with hold | hnew
        · exact h.printed f hold line hline
        · rw [List.mem_singleton.1 hnew, s.mem_logs] at hline
          exact hline.1

theorem Watched.Seen.wait {s : Watched} {v : Sight} (h : s.Seen v) {t : Int} (ht : s.now ≤ t) :
    Watched.Seen { s with now := t } v :=
  ⟨h.task, h.following, fun f hf line hline => h.since f hf line (Int.le_trans ht hline), h.printed, h.numbered⟩

theorem Watched.Seen.step {s s' : Watched} {v : Sight} (h : s.Seen v) {t : Int} {a : Happening}
    (hs : s.step (t, a) = some s') : s'.Seen (v.next a) :=
  have ⟨ht, hoccur⟩ := Option.ite_none_right_eq_some.1 hs
  (h.wait ht).occur hoccur

/-! ## Which lines the streams ask for -/

/-- **A line just printed is yielded exactly if the container is followed.** -/
theorem Watched.Seen.yields_new {s : Watched} {v : Sight} (h : s.Seen v) :
    s.emit.Yields ⟨s.lines.length, s.now⟩ ↔ v.following = true := by
  rw [← h.following]
  constructor
  · rintro ⟨f, hf, hline⟩
    obtain ⟨g, hg, rfl⟩ := List.mem_map.1 hf
    rcases FollowStream.mem_receive.1 hline with hold | ⟨-, hopen, -⟩
    · exact absurd (h.numbered _ (h.printed g hg _ hold)) (Nat.lt_irrefl _)
    · exact ⟨g, hg, hopen⟩
  · rintro ⟨g, hg, hopen⟩
    refine ⟨_, List.mem_map_of_mem hg, FollowStream.mem_receive.2 (.inr ⟨rfl, hopen, ?_⟩)⟩
    exact h.since g hg _ (Int.le_refl _)

theorem Watched.yields_map {s s' : Watched} {line : Line} {f : FollowStream → FollowStream} (hs : s'.streams = s.streams.map f)
    (hf : ∀ g, line ∈ (f g).yielded ↔ line ∈ g.yielded) : s'.Yields line ↔ s.Yields line := by
  rw [Watched.Yields, hs]
  constructor
  · rintro ⟨f', hf', hyield⟩
    obtain ⟨g, hg, rfl⟩ := List.mem_map.1 hf'
    exact ⟨g, hg, (hf g).1 hyield⟩
  · rintro ⟨g, hg, hyield⟩
    exact ⟨_, List.mem_map_of_mem hg, (hf g).2 hyield⟩

theorem Watched.yields_logs {s s' : Watched} {since : Bool} (hs : s'.streams = s.streams ++ [s.logs since]) {line : Line}
    (hline : line ∈ s.lines) :
    s'.Yields line ↔ s.Yields line ∨ (since = false ∨ timestamp s.now * second ≤ line.time) := by
  rw [Watched.Yields, hs]
  constructor
  · rintro ⟨f, hf, hyield⟩
    rcases List.mem_append.1 hf with hold | hnew
    · exact .inl ⟨f, hold, hyield⟩
    · rw [List.mem_singleton.1 hnew, s.mem_logs] at hyield
      exact .inr hyield.2
  · rintro (⟨f, hf, hyield⟩ | hreach)
    · exact ⟨f, List.mem_append_left _ hf, hyield⟩
    · exact ⟨_, List.mem_concat_self, (s.mem_logs _ _).2 ⟨hline, hreach⟩⟩

/-- **A line already printed is yielded from now on exactly if a stream is opened that reaches back to it.** -/
theorem Watched.Seen.yields_occur {s s' : Watched} {v : Sight} (h : s.Seen v) {a : Happening} (hs : s.occur a = some s')
    {line : Line} (hline : line ∈ s.lines) : s'.Yields line ↔
      s.Yields line ∨ (v.enters a = true ∧ (v.entered = false ∨ timestamp s.now * second ≤ line.time)) := by
  cases a with
  | started =>
    obtain ⟨-, hs⟩ := Option.ite_none_left_eq_some.1 hs
    obtain rfl := Option.some.inj hs
    exact (or_iff_left fun hnew => nomatch hnew.1).symm
  | stopped =>
    obtain ⟨-, hs⟩ := Option.ite_none_right_eq_some.1 hs
    obtain rfl := Option.some.inj hs
    rw [Watched.yields_map (s := s) (f := FollowStream.stop) rfl fun _ => .rfl]
    exact (or_iff_left fun hnew => nomatch hnew.1).symm
  | line =>
    obtain ⟨-, hs⟩ := Option.ite_none_right_eq_some.1 hs
    obtain rfl := Option.some.inj hs
    have hnew : line ≠ ⟨s.lines.length, s.now⟩ := by
      rintro rfl
      exact absurd (h.numbered _ hline) (Nat.lt_irrefl _)
    rw [Watched.yields_map rfl fun _ => FollowStream.mem_receive.trans (or_iff_left fun hyield => hnew hyield.1)]
    exact (or_iff_left fun hnew => nomatch hnew.1).symm
  | loop a =>
    obtain ⟨hp, hs⟩ := Option.ite_none_right_eq_some.1 hs
    obtain ⟨task, hresume, rfl⟩ := Option.map_eq_some_iff.1 hs
    rw [h.resumed hp hresume]
    cases he : v.enters (.loop a) with
    | false =>
      rw [if_neg Bool.false_ne_true, List.append_nil]
      exact (or_iff_left fun hnew => nomatch hnew.1).symm
    | true =>
      rw [if_pos rfl, Watched.yields_logs rfl hline]
      exact or_congr_right (and_iff_right rfl).symm

theorem Watched.occur_now {s s' : Watched} {a : Happening} (hs : s.occur a = some s') : s'.now = s.now := by
  cases a with
  | started => exact Option.some.inj (Option.ite_none_left_eq_some.1 hs).2 ▸ rfl
  | stopped | line => exact Option.some.inj (Option.ite_none_right_eq_some.1 hs).2 ▸ rfl
  | loop a =>
    obtain ⟨task, -, rfl⟩ := Option.map_eq_some_iff.1 (Option.ite_none_right_eq_some.1 hs).2
    rfl

theorem Watched.occur_lines {s s' : Watched} {a : Happening} (hs : s.occur a = some s') :
    (a ≠ .line ∧ s'.lines = s.lines) ∨ (a = .line ∧ s' = s.emit) := by
  cases a with
  | started => exact .inl ⟨nofun, Option.some.inj (Option.ite_none_left_eq_some.1 hs).2 ▸ rfl⟩
  | stopped => exact .inl ⟨nofun, Option.some.inj (Option.ite_none_right_eq_some.1 hs).2 ▸ rfl⟩
  | line => exact .inr ⟨rfl, (Option.some.inj (Option.ite_none_right_eq_some.1 hs).2).symm⟩
  | loop a =>
    obtain ⟨task, -, rfl⟩ := Option.map_eq_some_iff.1 (Option.ite_none_right_eq_some.1 hs).2
    exact .inl ⟨nofun, rfl⟩

theorem Watched.step_lines {s s' : Watched} {p : Int × Happening} (hs : s.step p = some s') {line : Line}
    (hline : line ∈ s.lines) : line ∈ s'.lines := by
  obtain ⟨-, hoccur⟩ := Option.ite_none_right_eq_some.1 hs
  rcases Watched.occur_lines hoccur with ⟨-, hlines⟩ | ⟨-, rfl⟩
  · exact hlines ▸ hline
  · exact List.mem_append_left _ hline

theorem Watched.run_lines {line : Line} {rest : List (Int × Happening)} {s s' : Watched}
    (hr : Runs.run Watched.step s rest = some s') (hline : line ∈ s.lines) : line ∈ s'.lines :=
  Runs.run_invariant (fun _ _ _ hline hs => Watched.step_lines hs hline) hline hr

/-- **A line that has been printed ends up in a range exactly if it is in one now, or the loop looks back to it.** -/
theorem Watched.Seen.yields_run {line : Line} {s' : Watched} : ∀ {rest : List (Int × Happening)} {s : Watched}
    {v : Sight}, s.Seen v → line ∈ s.lines → Runs.run Watched.step s rest = some s' →
      (s'.Yields line ↔ s.Yields line ∨ LookedBack line.time v rest)
  | [], s, v, _, _, hr => by
    obtain rfl := Option.some.inj hr
    exact (or_iff_left id).symm
  | (t, a) :: rest, s, v, h, hline, hr => by
    obtain ⟨s₁, hs, hr⟩ := (Runs.run_cons_eq_some _ s s' (t, a) rest).1 hr
    obtain ⟨ht, hoccur⟩ := Option.ite_none_right_eq_some.1 hs
    have hlater := (h.step hs).yields_run (Watched.step_lines hs hline) hr
    rw [hlater, (h.wait ht).yields_occur hoccur hline, LookedBack, or_assoc]
    rfl

/-- **Every line printed in a run is in a range at its end, exactly if each is caught.** -/
theorem Watched.Seen.yields_all {s' : Watched} : ∀ {rest : List (Int × Happening)} {s : Watched} {v : Sight}, s.Seen v →
    Runs.run Watched.step s rest = some s' → ((∀ line ∈ s'.lines, line ∉ s.lines → s'.Yields line) ↔ Caught v rest)
  | [], s, v, _, hr => by
    obtain rfl := Option.some.inj hr
    exact iff_of_true (fun line hline hnew => absurd hline hnew) trivial
  | (t, a) :: rest, s, v, h, hr => by
    obtain ⟨s₁, hs, hr⟩ := (Runs.run_cons_eq_some _ s s' (t, a) rest).1 hr
    have h₁ := h.step hs
    have hrest := h₁.yields_all hr
    obtain ⟨ht, hoccur⟩ := Option.ite_none_right_eq_some.1 hs
    rcases Watched.occur_lines hoccur with ⟨hline, hlines⟩ | ⟨rfl, rfl⟩
    · rw [hlines] at hrest
      cases a with
      | line => exact absurd rfl hline
      | _ => exact hrest
    · let new : Line := ⟨s.lines.length, t⟩
      have hnew : s'.Yields new ↔ v.following = true ∨ LookedBack t v rest :=
        (h₁.yields_run List.mem_concat_self hr).trans (or_congr_left (h.wait ht).yields_new)
      have hold : (∀ line ∈ s'.lines, line ∉ s.lines ++ [new] → s'.Yields line) ↔ Caught v rest := hrest
      have hmem : new ∈ s'.lines := Watched.run_lines hr List.mem_concat_self
      have hfresh : new ∉ s.lines := fun hline => absurd (h.numbered new hline) (Nat.lt_irrefl _)
      refine Iff.trans ⟨?_, ?_⟩ (and_congr hnew hold)
      · intro hall
        exact ⟨hall new hmem hfresh, fun line hline hlater => hall line hline fun hearly =>
          hlater (List.mem_append_left _ hearly)⟩
      · rintro ⟨hyields, hall⟩ line hline hlater
        by_cases heq : line = new
        · exact heq ▸ hyields
        · refine hall line hline fun hmem => ?_
          exact (List.mem_append.1 hmem).elim hlater fun hmem => heq (List.mem_singleton.1 hmem)

/-- **Every line printed after the application was wrapped is in the range of a stream, exactly if each comes after the loop
has seen the container enter `running`, without a stop between them, or before the loop does so for the first time or in a
second that had begun when the line was printed.** -/
theorem lines_requested_iff (now : Int) (running : Bool) (as : List (Int × Happening)) (s : Watched)
    (hrun : Runs.run Watched.step (.wrap now running) as = some s) :
    (∀ line ∈ s.lines, s.Yields line) ↔ Caught .init as := by
  rw [← (Watched.seen_wrap now running).yields_all hrun]
  exact ⟨fun hall line hline _ => hall line hline, fun hall line hline => hall line hline List.not_mem_nil⟩

/-! ## Lost lines -/

theorem timestamp_mono {t t' : Int} (h : t ≤ t') : timestamp t * second ≤ timestamp t' * second := by
  unfold timestamp second
  omega

/-- No second that begins later reaches back. -/
theorem Watched.not_lookedBack {time : Int} {s' : Watched} : ∀ {rest : List (Int × Happening)} {s : Watched} {v : Sight},
    v.entered = true → time < timestamp s.now * second → Runs.run Watched.step s rest = some s' →
      ¬ LookedBack time v rest
  | [], _, _, _, _, _ => id
  | (t, a) :: rest, s, v, hentered, hlate, hr => by
    obtain ⟨s₁, hs, hr⟩ := (Runs.run_cons_eq_some _ s s' (t, a) rest).1 hr
    obtain ⟨ht, hoccur⟩ := Option.ite_none_right_eq_some.1 hs
    have hlate₁ : time < timestamp t * second := Int.lt_of_lt_of_le hlate (timestamp_mono ht)
    rintro (⟨-, hfirst | hreach⟩ | hlater)
    · exact nomatch hentered.symm.trans hfirst
    · exact absurd hreach (Int.not_le.2 hlate₁)
    · exact Watched.not_lookedBack (v.next_entered hentered a) ((Watched.occur_now hoccur).symm ▸ hlate₁) hr hlater

theorem Watched.Seen.run {as : List (Int × Happening)} {s s' : Watched} {v : Sight} (h : s.Seen v)
    (hr : Runs.run Watched.step s as = some s') : ∃ v', s'.Seen v' :=
  Runs.run_invariant (I := fun s => ∃ v, s.Seen v) (fun _ _ _ ⟨_, h⟩ hs => ⟨_, h.step hs⟩) ⟨v, h⟩ hr

/-- **A line that no stream has asked for before its second is over is lost**, whatever happens then. -/
theorem missed_for_good {now : Int} {running : Bool} {as : List (Int × Happening)} {s s' : Watched}
    (hrun : Runs.run Watched.step (.wrap now running) as = some s) (hregistered : s.task.vars.everRegistered = true)
    {line : Line} (hline : line ∈ s.lines) (hlate : line.time < timestamp s.now * second) (hmissed : ¬ s.Yields line)
    {rest : List (Int × Happening)} (hr : Runs.run Watched.step s rest = some s') : ¬ s'.Yields line := by
  obtain ⟨v, hv⟩ := (Watched.seen_wrap now running).run hrun
  rw [hv.yields_run hline hr]
  exact not_or.2 ⟨hmissed, Watched.not_lookedBack (hv.task.registered.symm.trans hregistered) hlate hr⟩

/-- In nanoseconds. -/
def ms (t : Int) : Int := t * 1000000

/-- A container that is started, and seen to run before it prints. -/
def starts : List (Int × Happening) :=
  [(ms 100, .loop (.state (.ok .stopped) true)), (ms 200, .started), (ms 200, .loop (.start (.ok ()))),
    (ms 400, .loop (.waited (.ok ()))), (ms 400, .loop (.state (.ok .running) true)), (ms 500, .line)]

/-- It stops; started again, it prints, and in the next second it is seen to run. -/
def restarts : List (Int × Happening) :=
  [(ms 5000, .stopped), (ms 5100, .loop (.waited (.ok ()))), (ms 5100, .loop (.state (.ok .stopped) true)),
    (ms 5200, .started), (ms 5200, .loop (.start (.ok ()))), (ms 5900, .line), (ms 6100, .loop (.waited (.ok ()))),
    (ms 6100, .loop (.state (.ok .running) true))]

theorem lines_requested_started :
    ∃ s, Runs.run Watched.step (.wrap 0 false) starts = some s ∧ ∀ line ∈ s.lines, s.Yields line :=
  ⟨_, rfl, (lines_requested_iff 0 false starts _ rfl).2 (by simp [starts, Caught, Sight.next, Sight.init])⟩

/-- **What a container prints after a restart is lost if the loop notices a second later.** -/
theorem restart_loses_line : ∃ s, Runs.run Watched.step (.wrap 0 false) (starts ++ restarts) = some s ∧
    s.lines = [⟨0, ms 500⟩, ⟨1, ms 5900⟩] ∧ s.streams = [⟨none, [⟨0, ms 500⟩], true⟩, ⟨some 6, [], false⟩] ∧
    ∀ rest s', Runs.run Watched.step s rest = some s' → ¬ s'.Yields ⟨1, ms 5900⟩ := by
  have hend : (Runs.run Watched.step (.wrap 0 false) (starts ++ restarts)).map
      (fun s => (s.now, s.task.vars.everRegistered, s.lines, s.streams)) = some (ms 6100, true,
        [⟨0, ms 500⟩, ⟨1, ms 5900⟩], [⟨none, [⟨0, ms 500⟩], true⟩, ⟨some 6, [], false⟩]) := by decide
  obtain ⟨s, hrun, heq⟩ := Option.map_eq_some_iff.1 hend
  obtain ⟨hnow, heq⟩ := Prod.mk.inj heq
  obtain ⟨hregistered, heq⟩ := Prod.mk.inj heq
  obtain ⟨hlines, hstreams⟩ := Prod.mk.inj heq
  refine ⟨s, hrun, hlines, hstreams, fun rest s' hr => ?_⟩
  have hlate : (Line.mk 1 (ms 5900)).time < timestamp s.now * second := by rw [hnow]; decide
  have hmissed : ¬ s.Yields ⟨1, ms 5900⟩ := by rw [Watched.Yields, hstreams]; decide
  exact missed_for_good hrun hregistered (by rw [hlines]; decide) hlate hmissed hr

end Lifecycle
end ZeroDowntime
