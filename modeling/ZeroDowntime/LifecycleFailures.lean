import ZeroDowntime.LifecycleTrace
/-!
# LifecycleFailures — when the failures of a container are forgotten

The counter is set back where Running is observed and the state before was Running too.  That is meant for the iteration
after ten quiet minutes; a wait that returned while the container still, or again, runs leads there as well.
-/
namespace ZeroDowntime
namespace Lifecycle

open Runs (Along)

/-- How an iteration was entered: as the first of its pass, after a sleep of the length given, or woken by the wait. -/
inductive Entered
  | begun
  | slept (timeout : Timeout)
  | woken
  deriving DecidableEq, Repr

structure Loop where
  vars : LoopState
  entered : Entered
  deriving DecidableEq, Repr

def Loop.init : Loop := ⟨.init, .begun⟩

/-- The variables once the state was acted on, and the timeout to wait for. -/
def acted (s : LoopState) (r : Responses) (state : PodmanContainerState) : LoopState × Except Error Timeout :=
  (react (observe s state r.takeLogHandle).1 state r.start).2

def Branch.enters : Branch → Timeout → Entered
  | .slept, timeout => .slept timeout
  | .waited (.ok _), _ => .woken
  | .waited (.error _), _ => .begun
  | .notified _ _, _ => .begun

def entersNext (s : LoopState) (r : Responses) : Entered :=
  match r.observed with
  | none => .begun
  | some state =>
    match (acted s r state).2 with
    | .error _ => .begun
    | .ok timeout => r.select.enters timeout

/-- The loop after an iteration, unless it returned. -/
def advance (permit : Bool) (l : Loop) (r : Responses) : Option Loop :=
  match step permit l.vars r with
  | some (_, .live s) => some ⟨s, entersNext l.vars r⟩
  | _ => none

/-- The iteration was entered because the ten-minute sleep ended, and the state was Running. -/
def Loop.Rested (l : Loop) : Prop := l.entered = .slept (some 600) ∧ l.vars.oldState = some .running

/-- The iteration sets a positive counter to 0 only if it was entered after the ten minutes. -/
def ForgetsRested (l : Loop) (r : Responses) : Prop :=
  ∀ state, r.observed = some state → l.vars.failureCounter ≠ 0 → (acted l.vars r state).1.failureCounter = 0 → l.Rested

/-- With failures counted, the iteration after a wait that returned in Running does not observe Running again; and the
counter does not overflow. -/
def MovesOn (l : Loop) (r : Responses) : Prop :=
  (l.vars.failureCounter ≠ 0 → l.vars.oldState = some .running → r.observed = some .running → l.entered ≠ .woken) ∧
    (r.observed.any (fails l.vars.oldState) = true → l.vars.failureCounter = 4294967295 → l.Rested)

/-! ## One iteration -/

theorem acted_failureCounter (s : LoopState) (r : Responses) (state : PodmanContainerState) :
    (acted s r state).1.failureCounter = if fails s.oldState state = true then s.failureCounter + 1
      else if resets s.oldState state = true then 0 else s.failureCounter := by
  obtain ⟨ho1, ho2, -, -⟩ := observe_spec s state r.takeLogHandle
  unfold acted
  rw [← ho1, ← ho2]
  generalize (observe s state r.takeLogHandle).1 = p
  cases state with
  | stopped =>
    rw [react_stopped]
    have hcount : (beforeStart p).1.failureCounter =
        if fails p.oldState .stopped = true then p.failureCounter + 1 else p.failureCounter := by
      unfold beforeStart fails
      cases p.oldState <;> rfl
    cases r.start <;> simpa [resets] using hcount
  | ambiguous => rfl
  | running =>
    unfold react
    cases hold : p.oldState with
    | none => rfl
    | some old => cases old <;> rfl

/-- What the loop keeps: in a new pass nothing is counted, and after Running with failures counted the wait is for ten
minutes. -/
structure Loop.Timed (l : Loop) : Prop where
  fresh : l.vars.oldState = none → l.vars.failureCounter = 0
  running : l.vars.oldState = some .running → l.vars.failureCounter ≠ 0 → l.entered = .woken ∨ l.entered = .slept (some 600)

/-- Running with failures still counted: the state has changed, and the timeout is ten minutes. -/
theorem acted_running (s : LoopState) (r : Responses) (h : (acted s r .running).1.failureCounter ≠ 0) :
    (acted s r .running).2 = .ok (some 600) := by
  unfold acted react at h ⊢
  simp only at h ⊢
  split at h
  · rename_i hc
    rw [if_pos hc]
  · exact absurd rfl h

theorem Loop.Timed.advance {permit : Bool} {l l' : Loop} {r : Responses} (h : Lifecycle.advance permit l r = some l') :
    l'.Timed := by
  unfold Lifecycle.advance at h
  split at h
  · rename_i out s hstep
    obtain rfl := Option.some.inj h
    cases hst : r.state with
    | error e =>
      rw [step, hst] at hstep
      obtain ⟨-, heq⟩ := Prod.mk.inj (Option.some.inj hstep)
      obtain rfl := Task.live.inj heq
      exact ⟨fun _ => rfl, fun h => by cases h⟩
    | ok state =>
      have hobs : r.observed = some state := by rw [Responses.observed, hst]; rfl
      obtain ⟨p, q, rfl, hq, hcases⟩ := step_ok hst hstep
      have hacted : acted l.vars r state = q.2 := congrArg Prod.snd hq
      rcases hcases with ⟨e, -, -, heq⟩ | ⟨timeout, hok, -, -, heq⟩
      · obtain rfl := Task.live.inj heq
        exact ⟨fun _ => rfl, fun h => by cases h⟩
      · have hent : entersNext l.vars r = r.select.enters timeout := by
          rw [entersNext, hobs]
          simp only [hacted, hok]
        rw [hent]
        cases hsel : r.select with
        | notified stop destroy => rw [hsel] at heq; cases heq
        | slept =>
          rw [hsel] at heq
          obtain rfl := Task.live.inj heq
          refine ⟨fun h => (by cases h), fun hrun hc => .inr ?_⟩
          obtain rfl := Option.some.inj hrun
          have := acted_running l.vars r (by rw [hacted]; exact hc)
          rw [hacted, hok] at this
          rw [Branch.enters, Except.ok.inj this]
        | waited res =>
          rw [hsel] at heq
          cases res with
          | ok _ =>
            obtain rfl := Task.live.inj heq
            exact ⟨fun h => (by cases h), fun _ _ => .inl rfl⟩
          | error e =>
            obtain rfl := Task.live.inj heq
            exact ⟨fun _ => rfl, fun h => by cases h⟩
  · cases h

theorem forgetsRested_iff {l : Loop} (hl : l.Timed) (r : Responses) : ForgetsRested l r ↔ MovesOn l r := by
  have hcount := acted_failureCounter l.vars r
  constructor
  · refine fun h => ⟨fun hc hold hobs hwoken => ?_, fun hf hmax => ?_⟩
    · have hzero : (acted l.vars r .running).1.failureCounter = 0 := by
        rw [hcount, hold]
        rfl
      have hrested := (h .running hobs hc hzero).1
      rw [hwoken] at hrested
      cases hrested
    · obtain ⟨state, hobs, hfails⟩ := (Option.any_eq_true _ _).1 hf
      have hzero : (acted l.vars r state).1.failureCounter = 0 := by
        rw [hcount, if_pos hfails, hmax]
        rfl
      exact h state hobs (by rw [hmax]; decide) hzero
  · rintro ⟨hmoves, hover⟩ state hobs hc hzero
    rw [hcount] at hzero
    split at hzero
    · -- the counter wrapped
      rename_i hfails
      refine hover (by rw [hobs]; exact hfails) (UInt32.toNat_inj.1 ?_)
      have hz := congrArg UInt32.toNat hzero
      have hlt := l.vars.failureCounter.toNat_lt
      rw [UInt32.toNat_add] at hz
      simp only [UInt32.toNat_one, UInt32.toNat_zero] at hz
      simp only [UInt32.toNat_ofNat]
      omega
    · split at hzero
      · -- a reset: the state was Running, or the pass is new and nothing is counted
        rename_i hres
        have hold : l.vars.oldState = some .running := by
          cases state with
          | running =>
            cases hold : l.vars.oldState with
            | none => exact absurd (hl.fresh hold) hc
            | some old => rw [hold] at hres; simpa [resets] using hres
          | stopped => cases hres
          | ambiguous => cases hres
        have hrun : state = .running := by
          cases state with
          | running => rfl
          | stopped => cases hres
          | ambiguous => cases hres
        exact ⟨(hl.running hold hc).resolve_left (hmoves hc hold (hrun ▸ hobs)), hold⟩
      · exact absurd hzero hc

/-- **In every run, failures are forgotten only after ten quiet minutes, exactly if no iteration woken by the wait in
Running observes Running again while failures are counted**, and the counter does not overflow. -/
theorem failures_forgotten_iff (permit : Bool) (rs : List Responses) :
    Along (advance permit) ForgetsRested Loop.init rs ↔ Along (advance permit) MovesOn Loop.init rs :=
  Runs.along_iff_of_invariant (J := Loop.Timed) (fun _ _ _ _ h => Loop.Timed.advance h)
    (fun _ r hl => forgetsRested_iff hl r) ⟨fun _ => rfl, fun h => by cases h⟩

/-- A failure; the container runs; the wait returns, and the container runs again. -/
def flapping : List Responses :=
  [⟨.ok .ambiguous, false, .ok (), .slept⟩, ⟨.ok .running, false, .ok (), .waited (.ok ())⟩,
    ⟨.ok .running, false, .ok (), .waited (.ok ())⟩]

/-- **The failure is forgotten without a sleep in Running.** -/
theorem failure_forgotten_early :
    (Runs.run (advance false) Loop.init (flapping.take 2)).map (fun l => (l.vars.failureCounter, l.entered)) =
        some (1, .woken) ∧
      (Runs.run (advance false) Loop.init flapping).map (fun l => (l.vars.failureCounter, l.vars.oldState)) =
        some (0, some .running) ∧
      ¬ Along (advance false) ForgetsRested Loop.init flapping := by
  refine ⟨by decide, by decide, fun h => ?_⟩
  have hend := ((Runs.along_append [⟨.ok .running, false, .ok (), .waited (.ok ())⟩] (flapping.take 2) Loop.init).1 h).2
    ⟨⟨1, some .running, false, false⟩, .woken⟩ rfl
  have hrested := (hend.1 .running rfl (by decide) rfl).1
  cases hrested

end Lifecycle
end ZeroDowntime
