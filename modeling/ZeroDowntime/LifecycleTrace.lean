import Mathlib.Data.List.Destutter
import ZeroDowntime.LifecycleAwaits
/-!
# LifecycleTrace — the events of the lifecycle task against what it observed

`Seen` is the history an observer keeps of the answers alone: the states of the present pass, the failures since the last
reset, and whether a log handle was ever yielded.  Each iteration's events are those the history calls for (`Faithful`).
-/
namespace ZeroDowntime
namespace Lifecycle

/-! ## The observer -/

/-- A container that stopped after an earlier state, or whose state is not known. -/
def fails (last : Option PodmanContainerState) : PodmanContainerState → Bool
  | .stopped => last.isSome
  | .ambiguous => true
  | .running => false

/-- Running is observed, and the state has not changed. -/
def resets (last : Option PodmanContainerState) : PodmanContainerState → Bool
  | .running => last.isNone || decide (last = some .running)
  | _ => false

def enters (last : Option PodmanContainerState) (state : PodmanContainerState) : Bool :=
  decide (state = .running) && decide (last ≠ some .running)

def Branch.failed : Branch → Bool
  | .waited (.error _) => true
  | _ => false

def Responses.observed (r : Responses) : Option PodmanContainerState := r.state.toOption

/-- An error leaves the inner loop: of the state query, of the start of a stopped container, or of the wait. -/
def Responses.endsPass (r : Responses) : Bool :=
  match r.observed with
  | none => true
  | some state => (decide (state = .stopped) && !r.start.isOk) || r.select.failed

structure Seen where
  /-- The states observed in the present pass. -/
  pass : List PodmanContainerState
  /-- The failures since the last reset, and all of them. -/
  failures : Nat
  total : Nat
  yielded : Bool
  deriving DecidableEq, Repr

def Seen.init : Seen := ⟨[], 0, 0, false⟩

def Seen.last (v : Seen) : Option PodmanContainerState := v.pass.getLast?

def Seen.observe (v : Seen) (state : PodmanContainerState) (takeLogHandle : Bool) : Seen where
  pass := v.pass ++ [state]
  failures := if fails v.last state then v.failures + 1 else if resets v.last state then 0 else v.failures
  total := if fails v.last state then v.total + 1 else v.total
  yielded := v.yielded || (enters v.last state && takeLogHandle)

def Seen.newPass (v : Seen) : Seen := { v with pass := [], failures := 0 }

def Seen.next (v : Seen) (r : Responses) : Seen :=
  match r.observed with
  | none => v.newPass
  | some state =>
    if r.endsPass then (v.observe state r.takeLogHandle).newPass else v.observe state r.takeLogHandle

def seen (rs : List Responses) : Seen := rs.foldl Seen.next .init

/-! ## The events -/

def stateChanges (out : List Output) : List (Option PodmanContainerState × PodmanContainerState) :=
  out.filterMap (fun
    | .event (.stateChange old new) => some (old, new)
    | _ => none)

def thresholds (out : List Output) : List UInt32 :=
  out.filterMap (fun
    | .event (.failureThresholdReached failures) => some failures
    | _ => none)

def stops (out : List Output) : Nat := out.count (.event .stoppedUnexpectedly)

def registrations (out : List Output) : Nat :=
  out.countP (fun
    | .addLogs _ => true
    | _ => false)

def changeOf (last : Option PodmanContainerState) :
    Option PodmanContainerState → List (Option PodmanContainerState × PodmanContainerState)
  | none => []
  | some state => if last = some state then [] else [(last, state)]

/-- The events of an iteration are those called for by what was seen before it and its answers. -/
structure Faithful (v : Seen) (r : Responses) (out : List Output) : Prop where
  changes : stateChanges out = changeOf v.last r.observed
  stops : stops out = if v.last = some .running ∧ r.observed = some .stopped then 1 else 0
  logs : registrations out =
    if (v.next r).yielded then ((stateChanges out).filter (fun c => decide (c.2 = .running))).length else 0
  thresholds : thresholds out = if r.observed.any (fails v.last) = true ∧ v.failures + 1 = 10 then [10] else []

/-- The variables of the task are what the observer has seen. -/
structure LoopState.Tracks (s : LoopState) (v : Seen) : Prop where
  oldState : s.oldState = v.last
  failures : s.failureCounter.toNat = v.failures
  handle : s.hasLogHandle = v.yielded
  le : v.failures ≤ v.total

/-- The four kinds of event in an output, each as its projection gives it. -/
structure Sends (out : List Output) (changes : List (Option PodmanContainerState × PodmanContainerState)) (stopped : Nat)
    (logs : Nat) (reached : List UInt32) : Prop where
  changes : stateChanges out = changes
  stopped : stops out = stopped
  logs : registrations out = logs
  reached : thresholds out = reached

theorem sends_nil : Sends [] [] 0 0 [] := ⟨rfl, rfl, rfl, rfl⟩

theorem sends_fatal (e : Error) : Sends [.event (.fatalError e)] [] 0 0 [] := ⟨rfl, rfl, rfl, rfl⟩

theorem Sends.append {a b : List Output} {c c' : List (Option PodmanContainerState × PodmanContainerState)}
    {u u' l l' : Nat} {t t' : List UInt32} (h : Sends a c u l t) (h' : Sends b c' u' l' t') :
    Sends (a ++ b) (c ++ c') (u + u') (l + l') (t ++ t') where
  changes := by rw [← h.changes, ← h'.changes]; exact List.filterMap_append
  stopped := by rw [← h.stopped, ← h'.stopped]; exact List.count_append
  logs := by rw [← h.logs, ← h'.logs]; exact List.countP_append
  reached := by rw [← h.reached, ← h'.reached]; exact List.filterMap_append

/-! ## One iteration -/

/-- What `observe` leaves, and what it sends. -/
theorem observe_spec (s : LoopState) (state : PodmanContainerState) (takeLogHandle : Bool) :
    (observe s state takeLogHandle).1.oldState = s.oldState ∧
    (observe s state takeLogHandle).1.failureCounter = s.failureCounter ∧
    (observe s state takeLogHandle).1.hasLogHandle = (s.hasLogHandle || (enters s.oldState state && takeLogHandle)) ∧
    Sends (observe s state takeLogHandle).2 (changeOf s.oldState (some state)) 0
      (if enters s.oldState state && (s.hasLogHandle || takeLogHandle) then 1 else 0) [] := by
  unfold observe changeOf enters
  by_cases hold : s.oldState = some state
  · rw [if_pos hold]
    have hent : ¬ (state = .running ∧ s.oldState ≠ some .running) := by
      rintro ⟨rfl, h⟩
      exact h hold
    refine ⟨rfl, rfl, ?_, ?_⟩
    · rw [← Bool.decide_and, decide_eq_false hent]
      simp
    · rw [← Bool.decide_and, decide_eq_false hent]
      simpa [hold] using sends_nil
  · rw [if_neg hold]
    by_cases hrun : state = .running
    · subst hrun
      simp only [if_true, decide_true, Bool.true_and, decide_eq_true hold, registerLogs]
      cases hh : s.hasLogHandle || takeLogHandle with
      | true => exact ⟨rfl, rfl, rfl, by simp [hold, stateChanges], rfl, rfl, rfl⟩
      | false => exact ⟨rfl, rfl, (Bool.or_eq_false_iff.1 hh).1, by simp [hold, stateChanges], rfl, rfl, rfl⟩
    · rw [if_neg hrun, decide_eq_false hrun]
      exact ⟨rfl, rfl, by simp, by simp [hold, stateChanges], rfl, rfl, rfl⟩

theorem increaseFailures_spec (s : LoopState) (hfit : s.failureCounter.toNat + 1 < 4294967296) :
    (increaseFailures s).1.oldState = s.oldState ∧ (increaseFailures s).1.hasLogHandle = s.hasLogHandle ∧
    (increaseFailures s).1.failureCounter.toNat = s.failureCounter.toNat + 1 ∧
    Sends (increaseFailures s).2 [] 0 0 (if s.failureCounter.toNat + 1 = 10 then [10] else []) := by
  have hadd : (s.failureCounter + 1).toNat = s.failureCounter.toNat + 1 := by
    rw [UInt32.toNat_add]
    exact Nat.mod_eq_of_lt hfit
  refine ⟨rfl, rfl, hadd, ?_⟩
  unfold increaseFailures
  simp only
  by_cases h : s.failureCounter + 1 = 10
  · rw [if_pos h, if_pos (by rw [← hadd, h]; rfl), h]
    exact ⟨rfl, rfl, rfl, rfl⟩
  · rw [if_neg h, if_neg (by rw [← hadd]; exact fun he => h (UInt32.toNat_inj.1 he))]
    exact sends_nil

/-- What precedes the start: a failure, unless nothing was observed before, and the unexpected stop. -/
theorem beforeStart_spec (s : LoopState) (hfit : s.oldState.isSome = true → s.failureCounter.toNat + 1 < 4294967296) :
    (beforeStart s).1.oldState = s.oldState ∧ (beforeStart s).1.hasLogHandle = s.hasLogHandle ∧
    (beforeStart s).1.failureCounter.toNat =
      (if s.oldState.isSome = true then s.failureCounter.toNat + 1 else s.failureCounter.toNat) ∧
    Sends (beforeStart s).2 [] (if s.oldState = some .running then 1 else 0) 0
      (if s.oldState.isSome = true ∧ s.failureCounter.toNat + 1 = 10 then [10] else []) := by
  have hunexpected : Sends (if s.oldState = some .running then [.event .stoppedUnexpectedly] else []) []
      (if s.oldState = some .running then 1 else 0) 0 [] := by
    split
    · exact ⟨rfl, rfl, rfl, rfl⟩
    · exact sends_nil
  unfold beforeStart
  by_cases hsome : s.oldState.isSome = true
  · obtain ⟨h1, h2, h3, h4⟩ := increaseFailures_spec s (hfit hsome)
    simp only [hsome, if_true, true_and]
    exact ⟨h1, h2, h3, by simpa using h4.append hunexpected⟩
  · simp only [hsome]
    exact ⟨rfl, rfl, rfl, by simpa using hunexpected⟩

/-- What `react` leaves, what it sends, and whether the pass goes on. -/
theorem react_spec (s : LoopState) (state : PodmanContainerState) (start : Except Error Unit)
    (hfit : fails s.oldState state = true → s.failureCounter.toNat + 1 < 4294967296) :
    (react s state start).2.1.oldState = s.oldState ∧ (react s state start).2.1.hasLogHandle = s.hasLogHandle ∧
    (react s state start).2.1.failureCounter.toNat = (if fails s.oldState state = true then s.failureCounter.toNat + 1
      else if resets s.oldState state = true then 0 else s.failureCounter.toNat) ∧
    Sends (react s state start).1 [] (if s.oldState = some .running ∧ state = .stopped then 1 else 0) 0
      (if fails s.oldState state = true ∧ s.failureCounter.toNat + 1 = 10 then [10] else []) ∧
    (react s state start).2.2.isOk = !(decide (state = .stopped) && !start.isOk) := by
  cases state with
  | stopped =>
    obtain ⟨h1, h2, h3, h4⟩ := beforeStart_spec s hfit
    rw [react_stopped]
    cases start with
    | error e => exact ⟨h1, h2, h3, by simpa [fails] using h4, rfl⟩
    | ok _ =>
      have hstart : Sends [.event .attemptingStart] [] 0 0 [] := ⟨rfl, rfl, rfl, rfl⟩
      exact ⟨h1, h2, h3, by simpa [fails] using h4.append hstart, rfl⟩
  | ambiguous =>
    obtain ⟨h1, h2, h3, h4⟩ := increaseFailures_spec s (hfit rfl)
    refine ⟨h1, h2, h3, ?_, rfl⟩
    change Sends (increaseFailures s).2 _ _ _ _
    simpa [fails] using h4
  | running =>
    unfold react
    simp only
    by_cases hc : (s.oldState.isSome && decide (s.oldState ≠ some .running)) = true
    · have hres : resets s.oldState .running = false := by
        obtain ⟨hs, hne⟩ := Bool.and_eq_true_iff.1 hc
        obtain ⟨old, hold⟩ := Option.isSome_iff_exists.1 hs
        simpa [resets, hold] using hne
      rw [if_pos hc, hres]
      exact ⟨rfl, rfl, rfl, by simpa [fails] using sends_nil, rfl⟩
    · have hres : resets s.oldState .running = true := by
        cases hold : s.oldState with
        | none => rfl
        | some old => rw [hold] at hc; simpa [resets] using hc
      rw [if_neg hc, hres]
      exact ⟨rfl, rfl, rfl, by simpa [fails] using sends_nil, rfl⟩

/-- Without a delete request the loop goes on, in a new pass after a wait that failed. -/
theorem complete_spec (s : LoopState) (b : Branch) (timeout : Timeout) (hb : b.enabled false timeout = true) :
    ∃ s', (complete s b).2 = .live s' ∧ s' = (if b.failed then { s with failureCounter := 0, oldState := none } else s) ∧
      Sends (complete s b).1 [] 0 0 [] := by
  cases b with
  | slept => exact ⟨s, rfl, rfl, sends_nil⟩
  | waited res =>
    cases res with
    | ok _ => exact ⟨s, rfl, rfl, sends_nil⟩
    | error e => exact ⟨_, rfl, rfl, sends_fatal e⟩
  | notified stop destroy => cases hb

theorem length_running_changeOf (last : Option PodmanContainerState) (state : PodmanContainerState) :
    ((changeOf last (some state)).filter (fun c => decide (c.2 = .running))).length =
      if enters last state = true then 1 else 0 := by
  unfold changeOf enters
  by_cases h : last = some state
  · subst h
    by_cases hr : state = .running <;> simp [hr]
  · by_cases hr : state = .running
    · subst hr
      simp [h]
    · simp [h, hr]

theorem Seen.yielded_next (v : Seen) (r : Responses) (state : PodmanContainerState) (h : r.observed = some state) :
    (v.next r).yielded = (v.yielded || (enters v.last state && r.takeLogHandle)) := by
  unfold Seen.next
  rw [h]
  simp only
  split <;> rfl

theorem Seen.total_next (v : Seen) (r : Responses) (state : PodmanContainerState) (h : r.observed = some state) :
    (v.next r).total = if fails v.last state = true then v.total + 1 else v.total := by
  unfold Seen.next
  rw [h]
  simp only
  split <;> rfl

theorem Faithful.of_sends {v : Seen} {r : Responses} {out : List Output} {state : PodmanContainerState}
    (hobs : r.observed = some state)
    (h : Sends out (changeOf v.last (some state)) (if v.last = some .running ∧ state = .stopped then 1 else 0)
      (if enters v.last state && (v.yielded || r.takeLogHandle) then 1 else 0)
      (if fails v.last state = true ∧ v.failures + 1 = 10 then [10] else [])) : Faithful v r out where
  changes := by rw [hobs, h.changes]
  stops := by simp only [hobs, h.stopped, Option.some.injEq]
  logs := by
    rw [h.logs, h.changes, length_running_changeOf, v.yielded_next r state hobs]
    cases enters v.last state <;> simp
  thresholds := by simp only [hobs, h.reached, Option.any_some]

/-- The variables after the state was observed and acted on. -/
theorem tracks_observe {s s₂ : LoopState} {v : Seen} {state : PodmanContainerState} {tk : Bool} (hs : s.Tracks v)
    (hh : s₂.hasLogHandle = (s.hasLogHandle || (enters s.oldState state && tk)))
    (hc : s₂.failureCounter.toNat = (if fails s.oldState state = true then s.failureCounter.toNat + 1
      else if resets s.oldState state = true then 0 else s.failureCounter.toNat)) :
    ({ s₂ with oldState := some state } : LoopState).Tracks (v.observe state tk) where
  oldState := by rw [Seen.last, Seen.observe, List.getLast?_concat]
  failures := by
    change s₂.failureCounter.toNat = _
    rw [hc, hs.oldState, hs.failures]
    rfl
  handle := by
    change s₂.hasLogHandle = _
    rw [hh, hs.oldState, hs.handle]
    rfl
  le := by
    have := hs.le
    unfold Seen.observe
    simp only
    split
    · omega
    · split <;> omega

theorem tracks_newPass {s s₂ : LoopState} {v : Seen} (hs : s.Tracks v) (hh : s₂.hasLogHandle = s.hasLogHandle) :
    ({ s₂ with failureCounter := 0, oldState := none } : LoopState).Tracks v.newPass :=
  ⟨rfl, rfl, hh.trans hs.handle, Nat.zero_le _⟩

/-- **An iteration whose state query is answered**: an error of the start ends the pass, or a branch completes. -/
theorem step_ok {permit : Bool} {s : LoopState} {r : Responses} {state : PodmanContainerState} {out : List Output} {t : Task}
    (hst : r.state = .ok state) (h : step permit s r = some (out, t)) : ∃ p q, observe s state r.takeLogHandle = p ∧
    react p.1 state r.start = q ∧
    ((∃ e, q.2.2 = .error e ∧ out = p.2 ++ q.1 ++ [.event (.fatalError e)] ∧
        t = .live { q.2.1 with failureCounter := 0, oldState := none }) ∨
      ∃ timeout, q.2.2 = .ok timeout ∧ r.select.enabled permit timeout = true ∧
        out = p.2 ++ q.1 ++ (complete { q.2.1 with oldState := some state } r.select).1 ∧
        t = (complete { q.2.1 with oldState := some state } r.select).2) := by
  refine ⟨_, _, rfl, rfl, ?_⟩
  unfold step at h
  rw [hst] at h
  simp only at h
  generalize observe s state r.takeLogHandle = p at h ⊢
  generalize react p.1 state r.start = q at h ⊢
  obtain ⟨acted, s₂, res⟩ := q
  cases res with
  | error e =>
    obtain ⟨rfl, rfl⟩ := Prod.mk.inj (Option.some.inj h)
    exact .inl ⟨e, rfl, rfl, rfl⟩
  | ok timeout =>
    simp only at h
    split at h
    · rename_i hen
      obtain ⟨rfl, rfl⟩ := Prod.mk.inj (Option.some.inj h)
      exact .inr ⟨timeout, rfl, hen, rfl, rfl⟩
    · cases h

theorem Responses.endsPass_eq (r : Responses) (state : PodmanContainerState) (h : r.observed = some state) :
    r.endsPass = ((decide (state = .stopped) && !r.start.isOk) || r.select.failed) := by
  rw [endsPass, h]

/-- **An iteration sends what the history calls for, and the variables go on tracking it.** -/
theorem step_tracks {s : LoopState} {v : Seen} {r : Responses} {out : List Output} {t : Task} (hs : s.Tracks v)
    (hfew : (v.next r).total < 4294967296) (h : step false s r = some (out, t)) :
    ∃ s', t = .live s' ∧ s'.Tracks (v.next r) ∧ Faithful v r out := by
  cases hst : r.state with
  | error e =>
    have hobs : r.observed = none := by rw [Responses.observed, hst]; rfl
    rw [step, hst] at h
    obtain ⟨rfl, rfl⟩ := Prod.mk.inj (Option.some.inj h)
    refine ⟨_, rfl, ?_, ?_⟩
    · rw [Seen.next, hobs]
      exact tracks_newPass hs rfl
    · exact ⟨by rw [hobs]; rfl, by simp [hobs, stops], by simp [registrations, stateChanges], by simp [hobs, thresholds]⟩
  | ok state =>
    have hobs : r.observed = some state := by rw [Responses.observed, hst]; rfl
    obtain ⟨p, q, rfl, rfl, hcases⟩ := step_ok hst h
    obtain ⟨ho1, ho2, ho3, hseen⟩ := observe_spec s state r.takeLogHandle
    have hfit : fails (observe s state r.takeLogHandle).1.oldState state = true →
        (observe s state r.takeLogHandle).1.failureCounter.toNat + 1 < 4294967296 := by
      rw [ho1, ho2, hs.oldState, hs.failures]
      intro hf
      rw [v.total_next r state hobs, if_pos hf] at hfew
      have := hs.le
      omega
    obtain ⟨-, hr2, hr3, hacted, hok⟩ := react_spec _ state r.start hfit
    rw [ho1, ho2] at hr3
    rw [ho1, ho2, hs.oldState, hs.failures] at hacted
    rw [hs.oldState, hs.handle] at hseen
    have hpart := hseen.append hacted
    have htracks := tracks_observe hs (hr2.trans ho3) hr3
    have hends := r.endsPass_eq state hobs
    rw [← Bool.not_not (decide (state = .stopped) && !r.start.isOk), ← hok] at hends
    simp only [List.append_nil, Nat.zero_add, Nat.add_zero, List.nil_append] at hpart
    rcases hcases with ⟨e, hq, rfl, rfl⟩ | ⟨timeout, hq, hen, rfl, rfl⟩
    · have hpart := hpart.append (sends_fatal e)
      simp only [List.append_nil, Nat.add_zero] at hpart
      refine ⟨_, rfl, ?_, .of_sends hobs hpart⟩
      rw [hq] at hends
      rw [Seen.next, hobs]
      simp only [hends, Except.isOk, Except.toBool, Bool.not_false, Bool.true_or, if_true]
      exact tracks_newPass htracks rfl
    · obtain ⟨s', hlive, hs', hdone⟩ := complete_spec _ r.select timeout hen
      have hpart := hpart.append hdone
      simp only [List.append_nil, Nat.add_zero] at hpart
      refine ⟨s', hlive, ?_, .of_sends hobs hpart⟩
      rw [hq] at hends
      rw [Seen.next, hobs, hs']
      simp only [hends, Except.isOk, Except.toBool, Bool.not_true, Bool.false_or]
      split
      · exact tracks_newPass htracks rfl
      · exact htracks

/-! ## Runs -/

theorem Seen.total_le_next (v : Seen) (r : Responses) : v.total ≤ (v.next r).total := by
  cases hobs : r.observed with
  | none => rw [next, hobs]; exact Nat.le_refl _
  | some state =>
    rw [v.total_next r state hobs]
    split <;> omega

theorem Seen.total_le_foldl : ∀ (rs : List Responses) (v : Seen), v.total ≤ (rs.foldl Seen.next v).total
  | [], _ => Nat.le_refl _
  | r :: rs, v => (v.total_le_next r).trans (total_le_foldl rs (v.next r))

/-- The first iteration of a run, and the rest. -/
theorem run_cons_tracks {s : LoopState} {v : Seen} {r : Responses} {rest : List Responses} {out : List Output} {t : Task}
    (hs : s.Tracks v) (hfew : ((r :: rest).foldl Seen.next v).total < 4294967296)
    (hrun : run false s (r :: rest) = some (out, t)) : ∃ o s' o', step false s r = some (o, .live s') ∧ Faithful v r o ∧
      s'.Tracks (v.next r) ∧ run false s' rest = some (o', t) ∧ out = o ++ o' := by
  rw [run] at hrun
  cases hstep : step false s r with
  | none => rw [hstep] at hrun; cases hrun
  | some p =>
    obtain ⟨o, t₁⟩ := p
    have hle := Seen.total_le_foldl rest (v.next r)
    rw [List.foldl_cons] at hfew
    obtain ⟨s', rfl, hs', hfaithful⟩ := step_tracks hs (by omega) hstep
    rw [hstep] at hrun
    obtain ⟨q, hq, heq⟩ := Option.map_eq_some_iff.1 hrun
    obtain ⟨rfl, rfl⟩ := Prod.mk.inj heq
    exact ⟨o, s', q.1, rfl, hfaithful, hs', hq, rfl⟩

/-- A run splits into that of a first part, which tracks what was seen, and that of the rest. -/
theorem run_append_tracks (seg : List Responses) (out : List Output) (t : Task) : ∀ (pre : List Responses) (s : LoopState)
    (v : Seen), s.Tracks v → ((pre ++ seg).foldl Seen.next v).total < 4294967296 →
    run false s (pre ++ seg) = some (out, t) → ∃ o₁ s₁ o₂, run false s pre = some (o₁, .live s₁) ∧
      s₁.Tracks (pre.foldl Seen.next v) ∧ run false s₁ seg = some (o₂, t)
  | [], s, v, hs, _, hrun => ⟨[], s, out, rfl, hs, hrun⟩
  | r :: pre, s, v, hs, hfew, hrun => by
    obtain ⟨o, s', o', hstep, -, hs', hrest, -⟩ := run_cons_tracks hs hfew hrun
    obtain ⟨o₁, s₁, o₂, hpre, htracks, hseg⟩ := run_append_tracks seg o' t pre s' _ hs' hfew hrest
    refine ⟨o ++ o₁, s₁, o₂, ?_, htracks, hseg⟩
    rw [run, hstep]
    simp only [hpre, Option.map_some]

/-! ## A pass -/

/-- Every state with the one before it. -/
def links : Option PodmanContainerState → List PodmanContainerState → List (Option PodmanContainerState × PodmanContainerState)
  | _, [] => []
  | old, state :: rest => (old, state) :: links (some state) rest

def changesAlong : Option PodmanContainerState → List PodmanContainerState →
    List (Option PodmanContainerState × PodmanContainerState)
  | _, [] => []
  | last, state :: rest => changeOf last (some state) ++ changesAlong (some state) rest

theorem destutter'_eq_cons (a : PodmanContainerState) : ∀ l : List PodmanContainerState,
    ∃ rest, l.destutter' (· ≠ ·) a = a :: rest
  | [] => ⟨[], rfl⟩
  | b :: l => by
    rw [List.destutter'_cons]
    split
    · exact ⟨_, rfl⟩
    · exact destutter'_eq_cons a l

theorem changesAlong_some : ∀ (l : List PodmanContainerState) (a : PodmanContainerState),
    changesAlong (some a) l = links (some a) (l.destutter' (· ≠ ·) a).tail
  | [], _ => rfl
  | b :: l, a => by
    have ih := changesAlong_some l b
    rw [changesAlong, changeOf, List.destutter'_cons, ih]
    by_cases h : a = b
    · subst h
      simp
    · obtain ⟨rest, hrest⟩ := destutter'_eq_cons b l
      rw [if_neg (by simpa using h), if_pos h, List.tail_cons, hrest]
      rfl

/-- The changes along a list of states are the links of the list without its repetitions. -/
theorem changesAlong_none (l : List PodmanContainerState) :
    changesAlong none l = links none (l.destutter (· ≠ ·)) := by
  cases l with
  | nil => rfl
  | cons a l =>
    obtain ⟨rest, hrest⟩ := destutter'_eq_cons a l
    rw [changesAlong, changesAlong_some, List.destutter_cons', hrest]
    rfl

theorem Seen.last_next {v : Seen} {r : Responses} {state : PodmanContainerState} (h : r.observed = some state)
    (hends : r.endsPass = false) : (v.next r).last = some state := by
  rw [next, h]
  simp only [hends]
  exact List.getLast?_concat

theorem Seen.next_of_ends {v : Seen} {r : Responses} (hends : r.endsPass = true) : (v.next r).pass = [] := by
  unfold next
  cases r.observed with
  | none => rfl
  | some state => simp only [hends]; rfl

theorem changes_of_pass : ∀ (pass : List Responses) (s : LoopState) (v : Seen) (out : List Output) (t : Task), s.Tracks v →
    (pass.foldl Seen.next v).total < 4294967296 → run false s pass = some (out, t) →
    (∀ r ∈ pass.dropLast, r.endsPass = false) →
    stateChanges out = changesAlong v.last (pass.filterMap Responses.observed)
  | [], _, _, out, t, _, _, hrun, _ => by
    obtain ⟨rfl, -⟩ := Prod.mk.inj (Option.some.inj hrun)
    rfl
  | r :: rest, s, v, out, t, hs, hfew, hrun, hpass => by
    obtain ⟨o, s', o', -, hfaithful, hs', hrest, rfl⟩ := run_cons_tracks hs hfew hrun
    rw [stateChanges, List.filterMap_append]
    change stateChanges o ++ stateChanges o' = _
    rw [hfaithful.changes]
    cases hobs : r.observed with
    | none =>
      -- the state query failed: nothing of the pass follows
      have hnil : rest = [] := by
        cases rest with
        | nil => rfl
        | cons r' rest' =>
          have := hpass r (by simp)
          rw [Responses.endsPass, hobs] at this
          cases this
      subst hnil
      obtain ⟨rfl, -⟩ := Prod.mk.inj (Option.some.inj hrest)
      simp [hobs, changeOf, changesAlong, stateChanges]
    | some state =>
      rw [List.filterMap_cons_some hobs, changesAlong]
      cases rest with
      | nil =>
        obtain ⟨rfl, -⟩ := Prod.mk.inj (Option.some.inj hrest)
        rfl
      | cons r' rest' =>
        have hends : r.endsPass = false := hpass r (by simp)
        rw [changes_of_pass (r' :: rest') s' (v.next r) o' t hs' hfew hrest (fun x hx => hpass x (by
          rw [List.dropLast_cons_cons]; exact List.mem_cons_of_mem _ hx)), Seen.last_next hobs hends]

/-! ## Between two resets -/

/-- No iteration of the segment resets the failures, and no new pass begins inside it. -/
def NoReset : Seen → List Responses → Prop
  | _, [] => True
  | v, r :: rest => r.observed.any (resets v.last) = false ∧ (rest = [] ∨ r.endsPass = false) ∧ NoReset (v.next r) rest

theorem Seen.failures_next {v : Seen} {r : Responses} (hres : r.observed.any (resets v.last) = false)
    (hends : r.endsPass = false) :
    (v.next r).failures = if r.observed.any (fails v.last) = true then v.failures + 1 else v.failures := by
  cases hobs : r.observed with
  | none =>
    rw [Responses.endsPass, hobs] at hends
    cases hends
  | some state =>
    rw [hobs, Option.any_some] at hres
    rw [next, hobs]
    simp only [hends, Option.any_some]
    rw [if_neg Bool.false_ne_true, observe, hres]
    simp only [if_neg Bool.false_ne_true]

/-- **Between two resets the threshold is reported at most once**, and not at all once it was reached. -/
theorem thresholds_of_noReset : ∀ (seg : List Responses) (s : LoopState) (v : Seen) (out : List Output) (t : Task),
    s.Tracks v → (seg.foldl Seen.next v).total < 4294967296 → run false s seg = some (out, t) → NoReset v seg →
    (thresholds out).length ≤ if v.failures < 10 then 1 else 0
  | [], _, _, out, t, _, _, hrun, _ => by
    obtain ⟨rfl, -⟩ := Prod.mk.inj (Option.some.inj hrun)
    exact Nat.zero_le _
  | r :: rest, s, v, out, t, hs, hfew, hrun, ⟨hres, hlast, hrest⟩ => by
    obtain ⟨o, s', o', -, hfaithful, hs', hrun', rfl⟩ := run_cons_tracks hs hfew hrun
    have ho : (thresholds o).length =
        if r.observed.any (fails v.last) = true ∧ v.failures + 1 = 10 then 1 else 0 := by
      rw [hfaithful.thresholds]
      split <;> rfl
    have happ : (thresholds (o ++ o')).length = (thresholds o).length + (thresholds o').length := by
      rw [thresholds, List.filterMap_append, List.length_append]
      rfl
    rw [happ, ho]
    rcases hlast with rfl | hends
    · obtain ⟨rfl, -⟩ := Prod.mk.inj (Option.some.inj hrun')
      simp only [thresholds, List.filterMap_nil, List.length_nil]
      split <;> split <;> omega
    · have ih := thresholds_of_noReset rest s' (v.next r) o' t hs' hfew hrun' hrest
      rw [Seen.failures_next hres hends] at ih
      by_cases hf : r.observed.any (fails v.last) = true
      · simp only [hf, if_true, true_and] at ih ⊢
        split at ih <;> split <;> split <;> omega
      · rw [if_neg hf] at ih
        rw [if_neg (fun h => hf h.1)]
        omega

/-! ## The trace -/

/-- `pass` begins where a pass begins, and goes on to its end at most. -/
def IsPass (before pass : List Responses) : Prop :=
  (∀ r ∈ before.getLast?, r.endsPass = true) ∧ ∀ r ∈ pass.dropLast, r.endsPass = false

theorem seen_pass_of_isPass {pre pass : List Responses} (h : IsPass pre pass) : (seen pre).pass = [] := by
  cases hl : pre.getLast? with
  | none =>
    rw [List.getLast?_eq_none_iff] at hl
    subst hl
    rfl
  | some r =>
    obtain ⟨init, rfl⟩ := List.getLast?_eq_some_iff.1 hl
    rw [seen, List.foldl_append]
    exact Seen.next_of_ends (h.1 r hl)

theorem tracks_init : LoopState.init.Tracks .init := ⟨rfl, rfl, rfl, Nat.le_refl _⟩

/-- A segment of a run, from what was seen before it. -/
theorem run_segment {rs pre seg post : List Responses} {out : List Output} {t : Task} (hrs : rs = pre ++ seg ++ post)
    (hrun : run false .init rs = some (out, t)) (hfew : (seen rs).total < 4294967296) :
    ∃ o₁ s₁ o t', run false .init pre = some (o₁, .live s₁) ∧ s₁.Tracks (seen pre) ∧
      (seg.foldl Seen.next (seen pre)).total < 4294967296 ∧ run false s₁ seg = some (o, t') := by
  subst hrs
  rw [seen] at hfew
  have hle := Seen.total_le_foldl post ((pre ++ seg).foldl Seen.next .init)
  rw [← List.foldl_append] at hle
  obtain ⟨o₁, s₁, o₂, h₁, -, -⟩ := run_append_tracks post out t (pre ++ seg) _ _ tracks_init hfew hrun
  obtain ⟨o, s', o', h, htracks, hseg⟩ := run_append_tracks seg o₁ (.live s₁) pre _ _ tracks_init (by omega) h₁
  refine ⟨o, s', o', _, h, htracks, ?_, hseg⟩
  rw [seen, ← List.foldl_append]
  omega

/-- **Without a delete request, and with fewer than 2^32 failures, the events are a faithful trace**: every iteration
sends what its observation calls for; in a pass the changes of state are the links of the states observed, without
repetition; and between two resets the threshold is reported at most once. -/
theorem lifecycle_events_faithful (rs : List Responses) (out : List Output) (t : Task)
    (hrun : run false .init rs = some (out, t)) (hfew : (seen rs).total < 4294967296) :
    (∀ pre r post, rs = pre ++ r :: post → ∃ o₁ s₁ o t', run false .init pre = some (o₁, .live s₁) ∧
      step false s₁ r = some (o, t') ∧ Faithful (seen pre) r o) ∧
    (∀ pre pass post, rs = pre ++ pass ++ post → IsPass pre pass → ∃ o₁ s₁ o t',
      run false .init pre = some (o₁, .live s₁) ∧ run false s₁ pass = some (o, t') ∧
      stateChanges o = links none ((pass.filterMap Responses.observed).destutter (· ≠ ·)) ∧
      ((pass.filterMap Responses.observed).destutter (· ≠ ·)).IsChain (· ≠ ·)) ∧
    ∀ pre seg post, rs = pre ++ seg ++ post → NoReset (seen pre) seg → ∃ o₁ s₁ o t',
      run false .init pre = some (o₁, .live s₁) ∧ run false s₁ seg = some (o, t') ∧ (thresholds o).length ≤ 1 := by
  refine ⟨fun pre r post hrs => ?_, fun pre pass post hrs hpass => ?_, fun pre seg post hrs hseg => ?_⟩
  · have hseg : rs = pre ++ [r] ++ post := by rw [hrs, List.append_assoc]; rfl
    obtain ⟨o₁, s₁, o, t', hpre, htracks, hfew', hrun'⟩ := run_segment hseg hrun hfew
    obtain ⟨o', s', o'', hstep, hfaithful, -⟩ := run_cons_tracks htracks hfew' hrun'
    exact ⟨o₁, s₁, o', _, hpre, hstep, hfaithful⟩
  · obtain ⟨o₁, s₁, o, t', hpre, htracks, hfew', hrun'⟩ := run_segment hrs hrun hfew
    refine ⟨o₁, s₁, o, t', hpre, hrun', ?_, List.isChain_destutter _ _⟩
    have hnone : (seen pre).last = none := by rw [Seen.last, seen_pass_of_isPass hpass]; rfl
    rw [changes_of_pass pass s₁ _ o t' htracks hfew' hrun' hpass.2, hnone, changesAlong_none]
  · obtain ⟨o₁, s₁, o, t', hpre, htracks, hfew', hrun'⟩ := run_segment hrs hrun hfew
    have hle := thresholds_of_noReset seg s₁ _ o t' htracks hfew' hrun' hseg
    exact ⟨o₁, s₁, o, t', hpre, hrun', hle.trans (by split <;> omega)⟩

/-- Started, running with a log handle, and stopped again. -/
def crashed : List Responses :=
  [⟨.ok .stopped, false, .ok (), .slept⟩, ⟨.ok .running, true, .ok (), .waited (.ok ())⟩,
    ⟨.ok .stopped, false, .error "no such container", .slept⟩]

theorem crashed_faithful : ∃ o₁ s₁ o t', run false .init [] = some (o₁, .live s₁) ∧ run false s₁ crashed = some (o, t') ∧
    stateChanges o = links none ([.stopped, .running, .stopped].destutter (· ≠ ·)) ∧
    ([PodmanContainerState.stopped, .running, .stopped].destutter (· ≠ ·)).IsChain (· ≠ ·) :=
  have hpass : IsPass [] crashed := ⟨fun _ h => (nomatch h), by decide⟩
  (lifecycle_events_faithful crashed _ _ rfl (by decide)).2.1 [] crashed [] rfl hpass

end Lifecycle
end ZeroDowntime
