import ZeroDowntime.OsCountdown
/-!
# OsWaiting — waiting for a countdown

A target that is staged and not immediate is left to its countdown.  Nothing says that there is one: a restart ends it
and leaves the staged deployment, an apply after which the host is not rebooted ends it, whether it failed or not, and a
status that fails right before the spawn keeps it from starting.  After each of these the loop waits for nothing, cycle after cycle (`waiting_covered_iff`).
-/
namespace ZeroDowntime
namespace Os

open Runs (run Along)

/-- The task has not ended: its apply is still to come, or, if these count as well, under way. -/
def Timer.Pends (orApplying : Bool) (t : Timer) : Prop := t.applying = true → orApplying = true

def Pending (orApplying : Bool) (timers : List Timer) : Prop := ∃ t ∈ timers, t.Pends orApplying

/-- Named this target, `try_switch` finds it staged and leaves it to the timer. -/
def Config.waitsFor (c : Config) (target : OsGetResponse) : Bool :=
  match c.task with
  | .running s .target => decide (s.next target = .tick)
  | _ => false

/-- Where `try_switch` waits for the timer, a countdown is pending. -/
def Covered (orApplying : Bool) (c : Config) : Action → Prop
  | .target (some target) => c.waitsFor target = true → Pending orApplying c.timers
  | _ => True

/-! ## The condition -/

/-- What is staged goes by a name that what is booted does not go by, so that a target of that name is waited for. -/
def Config.Waitable (c : Config) : Prop :=
  ∃ b ∈ c.booted, ∃ g ∈ c.staged, ¬ b.Named g.info.checksum ∨ ∃ ref ∈ g.info.imageRef, ¬ b.Named ref

/-- The cycle under way ends in a reboot, in a new countdown, or in an error. -/
def Config.Settling (c : Config) : Bool :=
  match c.task with
  | .running _ .applyStaged => true
  | .running _ .applyNow => true
  | .running _ (.statusBeforeTimer _ _) => true
  | _ => false

def Config.BeforeTimer (c : Config) : Bool :=
  match c.task with
  | .running _ (.statusBeforeTimer _ _) => true
  | _ => false

/-- The countdowns a step leaves to the target it does not boot. -/
def Config.left (orApplying : Bool) (c : Config) : Action → Option (List Timer)
  | .restart => some []
  | .status ok => if ok = false ∧ c.BeforeTimer then some c.timers else none
  | .apply ended => if ended = .rebooted then none else some c.timers
  | .expire i => if orApplying ∨ c.Settling then none else some (c.timers.eraseIdx i)
  | .applied i ended => if ended = .rebooted ∨ c.Settling then none else some (c.timers.eraseIdx i)
  | _ => none

/-- A process that ends, an apply after which the host is not rebooted and a countdown that is not started leave another
countdown, or nothing to wait for. -/
def Guarded (orApplying : Bool) (c : Config) (a : Action) : Prop :=
  c.Waitable → ∀ timers ∈ c.left orApplying a, Pending orApplying timers

instance (orApplying : Bool) (timers : List Timer) : Decidable (Pending orApplying timers) := by
  unfold Pending Timer.Pends; infer_instance

instance (orApplying : Bool) (c : Config) : ∀ a, Decidable (Covered orApplying c a)
  | .target (some target) => inferInstanceAs (Decidable (c.waitsFor target = true → Pending orApplying c.timers))
  | .target none | .elapse _ | .tick | .status _ | .report _ | .switch _ | .apply _ | .expire _ | .applied _ _
  | .restart => .isTrue trivial

instance (c : Config) : Decidable c.Waitable := by
  unfold Config.Waitable; infer_instance

instance (orApplying : Bool) (c : Config) (a : Action) : Decidable (Guarded orApplying c a) := by
  unfold Guarded; infer_instance

theorem waitable_iff (c : Config) : c.Waitable ↔ c.booted.isSome ∧ ∃ name, c.Staged name ∧ ¬ c.Booted name := by
  unfold Config.Waitable Config.Staged Config.Booted
  constructor
  · rintro ⟨b, hb, g, hg, h | ⟨ref, hr, h⟩⟩
    · refine ⟨by rw [hb]; rfl, _, ⟨g, hg, .inl rfl⟩, ?_⟩
      rintro ⟨b', hb', hn⟩
      exact h (Option.some.inj (hb.symm.trans hb') ▸ hn)
    · refine ⟨by rw [hb]; rfl, ref, ⟨g, hg, .inr hr⟩, ?_⟩
      rintro ⟨b', hb', hn⟩
      exact h (Option.some.inj (hb.symm.trans hb') ▸ hn)
  · rintro ⟨hb, name, ⟨g, hg, hn⟩, hnot⟩
    obtain ⟨b, hb⟩ := Option.isSome_iff_exists.1 hb
    refine ⟨b, hb, g, hg, hn.imp (fun h hb' => ?_) (fun h => ⟨name, h, fun hb' => hnot ⟨b, hb, hb'⟩⟩)⟩
    exact hnot ⟨b, hb, h ▸ hb'⟩

/-! ## The invariant -/

structure Covers (orApplying : Bool) (c : Config) : Prop where
  pending : c.Waitable → c.Settling = false → Pending orApplying c.timers
  shows : ∀ s, c.At s .target → s.Shows c
  starting : c.task = .starting → c.timers = []

variable {orApplying : Bool} {d : Nat} {c c' : Config}

theorem Covers.goTo {s : OsState} {await : Await} (hw : c.Waitable → Pending orApplying c.timers)
    (hs : await = .target → s.Shows c) : Covers orApplying (c.goTo s await) where
  pending := fun h _ => hw h
  shows := fun s' h => by
    obtain ⟨rfl, rfl⟩ := Task.running.inj h
    exact (hs rfl).congr rfl rfl
  starting := fun h => nomatch h

theorem Covers.settle {s : OsState} {await : Await} (h : (c.goTo s await).Settling = true) :
    Covers orApplying (c.goTo s await) where
  pending := fun _ hf => absurd (h.symm.trans hf) (by decide)
  shows := fun s' h' => by
    obtain ⟨rfl, rfl⟩ := Task.running.inj h'
    cases h
  starting := fun h => nomatch h

theorem Covers.restart (h : ¬ c.Waitable) : Covers orApplying c.restart where
  pending := fun hw => absurd hw h
  shows := fun _ h => nomatch h
  starting := fun _ => rfl

theorem Covers.start {now : Nat} {booted staged : Option BootcDeploymentInfo}
    (h : ¬ (Config.start now booted staged).Waitable) : Covers orApplying (.start now booted staged) where
  pending := fun hw => absurd hw h
  shows := fun _ h => nomatch h
  starting := fun _ => rfl

theorem not_waitable (h : c.staged = none) : ¬ c.Waitable := by
  rintro ⟨-, -, g, hg, -⟩
  rw [h] at hg
  cases hg

/-- After a reboot nothing is staged. -/
theorem Covers.apply {ended : ApplyEnd} (h : c.apply ended = some c') : Covers orApplying c' := by
  obtain ⟨-, rfl⟩ := (apply_eq_some c c' ended).1 h
  exact .restart (not_waitable rfl)

theorem not_settling {s : OsState} {await : Await} (hat : c.At s await) (h : (c.goTo s await).Settling = false) :
    c.Settling = false := by
  unfold Config.Settling at *
  rw [hat]
  exact h

theorem Covers.at_rest {s : OsState} {await : Await} (h : Covers orApplying c) (hat : c.At s await)
    (hr : (c.goTo s await).Settling = false) (hw : c.Waitable) : Pending orApplying c.timers :=
  h.pending hw (not_settling hat hr)

theorem Covers.onTick (h : Covers orApplying c) (hc : c.onTick = some c') : Covers orApplying c' := by
  obtain ⟨s, hat, rfl⟩ := onTick_eq_some hc
  exact .goTo (h.at_rest hat rfl) (fun h => nomatch h)

theorem Covers.onReport (h : Covers orApplying c) (hc : c.onReport = some c') : Covers orApplying c' := by
  obtain ⟨s, id, hat, rfl⟩ := onReport_eq_some hc
  exact .goTo (h.at_rest hat rfl) (fun h => nomatch h)

theorem Covers.onStatus {ok : Bool} (h : Covers orApplying c) (hk : Guarded orApplying c (.status ok))
    (hc : c.onStatus d ok = some c') : Covers orApplying c' := by
  rcases onStatus_eq_some hc with ⟨hst, hc⟩ | ⟨s, hat, rfl | ⟨-, s', hs', rfl⟩⟩ | ⟨s, target, g, hat, hc⟩
  · have hno : ¬ c.Waitable := fun hw => by
      obtain ⟨t, ht, -⟩ := h.pending hw (by unfold Config.Settling; rw [hst])
      rw [h.starting hst] at ht
      cases ht
    rcases hc with rfl | ⟨-, s, -, rfl⟩
    · exact .restart hno
    · exact .goTo (fun hw => absurd hw hno) (fun h => nomatch h)
  · exact .goTo (h.at_rest hat rfl) (fun h => nomatch h)
  · exact .goTo (h.at_rest hat rfl) (fun _ => (shows_of_new hs').counting s.countdownStarted)
  · rcases hc with ⟨rfl, rfl⟩ | ⟨-, rfl⟩
    · have hb : c.BeforeTimer = true := by unfold Config.BeforeTimer; rw [hat]
      exact .goTo (fun hw => hk hw _ (by simp [Config.left, hb])) (fun h => nomatch h)
    · refine .goTo (fun _ => ⟨⟨target, g, c.now + d, false⟩, ?_, fun h => nomatch h⟩) (fun h => nomatch h)
      exact List.mem_append_right _ (List.mem_singleton_self _)

theorem Covers.onTarget {answer : Option OsGetResponse} (h : Covers orApplying c) (hc : c.onTarget answer = some c') :
    Covers orApplying c' := by
  obtain ⟨s, hat, ⟨-, rfl⟩ | ⟨target, rfl, rfl⟩⟩ := onTarget_eq_some hc
  · exact .goTo (h.at_rest hat rfl) (fun h => nomatch h)
  · refine .goTo (h.at_rest hat rfl) (fun hn => ?_)
    unfold OsState.next at hn
    split at hn
    · cases hn
    · split at hn
      · split at hn <;> cases hn
      · split at hn <;> cases hn

theorem Covers.onSwitch {staged : Option BootcDeploymentInfo} (h : Covers orApplying c)
    (hc : c.onSwitch staged = some c') : Covers orApplying c' := by
  obtain ⟨s, target, hat, ⟨-, rfl⟩ | ⟨info, rfl, ⟨-, rfl⟩ | ⟨-, rfl⟩⟩⟩ := onSwitch_eq_some hc
  · rcases hat with hat | hat
    · exact .goTo (h.at_rest hat rfl) (fun h => nomatch h)
    · exact .goTo (h.at_rest hat rfl) (fun h => nomatch h)
  · exact .settle rfl
  · exact .settle rfl

theorem Covers.onApply {ended : ApplyEnd} (hk : Guarded orApplying c (.apply ended))
    (hc : c.onApply ended = some c') : Covers orApplying c' := by
  obtain ⟨s, -, hc | ⟨hnone, rfl⟩⟩ := onApply_eq_some hc
  · exact .apply hc
  · exact .goTo (fun hw => hk hw _ (if_neg ((apply_eq_none c ended).1 hnone))) (fun h => nomatch h)

/-- A countdown whose apply has begun leaves the others. -/
theorem pending_set_iff {timers : List Timer} {i : Nat} {t : Timer} (ht : ¬ t.Pends orApplying) :
    Pending orApplying (timers.set i t) ↔ Pending orApplying (timers.eraseIdx i) := by
  constructor
  · rintro ⟨u, hu, hp⟩
    obtain ⟨j, hj⟩ := List.mem_iff_getElem?.1 hu
    by_cases hij : i = j
    · obtain ⟨hlt, hget⟩ := List.getElem?_eq_some_iff.1 hj
      subst hij
      rw [List.getElem_set_self] at hget
      exact absurd (hget ▸ hp) ht
    · rw [List.getElem?_set_ne hij] at hj
      exact ⟨u, List.mem_eraseIdx_iff_getElem?.2 ⟨j, Ne.symm hij, hj⟩, hp⟩
  · rintro ⟨u, hu, hp⟩
    obtain ⟨j, hj, hu⟩ := List.mem_eraseIdx_iff_getElem?.1 hu
    exact ⟨u, List.mem_of_getElem? (by rw [List.getElem?_set_ne (Ne.symm hj)]; exact hu), hp⟩

theorem Covers.expire {i : Nat} (h : Covers orApplying c) (hk : Guarded orApplying c (.expire i))
    (hc : c.expire i = some c') : Covers orApplying c' := by
  obtain ⟨t, hi, -, -, rfl⟩ := expire_eq_some hc
  refine ⟨fun hw hs => ?_, fun s hat => (h.shows s hat).congr rfl rfl, fun hst => ?_⟩
  · by_cases ho : orApplying = true
    · exact ⟨_, List.mem_set (List.getElem?_eq_some_iff.1 hi).1 _, fun _ => ho⟩
    · refine (pending_set_iff (fun h => ho (h rfl))).2 (hk hw _ ?_)
      simp [Config.left, ho, show c.Settling = false from hs]
  · show c.timers.set i _ = []
    rw [h.starting hst]
    rfl

theorem Covers.applied {i : Nat} {ended : ApplyEnd} (h : Covers orApplying c)
    (hk : Guarded orApplying c (.applied i ended)) (hc : c.applied i ended = some c') : Covers orApplying c' := by
  obtain ⟨t, -, -, hc | ⟨hnone, rfl⟩⟩ := applied_eq_some hc
  · exact .apply hc
  · refine ⟨fun hw hs => ?_, fun s hat => (h.shows s hat).congr rfl rfl, fun hst => ?_⟩
    · exact hk hw _ (by simp [Config.left, show c.Settling = false from hs, (apply_eq_none c ended).1 hnone])
    · show c.timers.eraseIdx i = []
      rw [h.starting hst]
      rfl

theorem Covers.elapse (h : Covers orApplying c) (k : Nat) : Covers orApplying { c with now := c.now + k } where
  pending := h.pending
  shows := fun s hat => (h.shows s hat).congr rfl rfl
  starting := h.starting

/-- **A guarded step leaves a countdown to whatever can be waited for.** -/
theorem Covers.step (c : Config) (a : Action) (c' : Config) (h : Covers orApplying c) (hk : Guarded orApplying c a)
    (hc : step d c a = some c') : Covers orApplying c' := by
  cases a with
  | elapse k => exact Option.some.inj hc ▸ h.elapse k
  | tick => exact h.onTick hc
  | status ok => exact h.onStatus hk hc
  | target answer => exact h.onTarget hc
  | report ok => exact h.onReport hc
  | switch staged => exact h.onSwitch hc
  | apply ended => exact .onApply hk hc
  | expire i => exact h.expire hk hc
  | applied i ended => exact h.applied hk hc
  | restart =>
    refine Option.some.inj hc ▸ .restart (fun hw => ?_)
    obtain ⟨t, ht, -⟩ := hk hw [] rfl
    cases ht

theorem next_eq_tick {s : OsState} {target : OsGetResponse} :
    s.next target = .tick ↔ s.upToDate target = false ∧ s.isTargetStaged target = true ∧ target.immediate = false := by
  unfold OsState.next
  cases s.upToDate target <;> cases s.isTargetStaged target <;> cases target.immediate <;> simp

theorem waitsFor_eq_true {target : OsGetResponse} :
    c.waitsFor target = true ↔ ∃ s, c.At s .target ∧ s.next target = .tick := by
  unfold Config.waitsFor
  split
  · rename_i s hat
    rw [decide_eq_true_eq]
    refine ⟨fun h => ⟨s, hat, h⟩, ?_⟩
    rintro ⟨s', hat', h⟩
    obtain ⟨rfl, -⟩ := Task.running.inj (hat.symm.trans hat')
    exact h
  · rename_i hno
    exact ⟨fun h => (nomatch h), fun ⟨s, hat, _⟩ => absurd hat (hno s)⟩

theorem Covers.covered (c : Config) (a : Action) (h : Covers orApplying c) : Covered orApplying c a := by
  unfold Covered
  split
  · rename_i target
    rw [waitsFor_eq_true]
    rintro ⟨s, hat, hn⟩
    obtain ⟨hu, hst, -⟩ := next_eq_tick.1 hn
    have hs := h.shows s hat
    refine h.at_rest hat rfl ((waitable_iff c).2 ⟨hs.isSome, _, (hs.isTargetStaged target).1 hst, fun hb => ?_⟩)
    exact Bool.eq_false_iff.1 hu ((hs.upToDate target).2 hb)
  · trivial

/-! ## What a step that is not guarded leads to -/

/-- The run can go on to wait for nothing. -/
def Uncovered (orApplying : Bool) (d : Nat) (c : Config) : Prop :=
  ∃ cont, Along (step d) (Guarded orApplying) c cont ∧ ¬ Along (step d) (Covered orApplying) c cont

theorem Uncovered.cons {a : Action} (hl : c.left orApplying a = none) (hs : step d c a = some c')
    (h : Uncovered orApplying d c') : Uncovered orApplying d c := by
  obtain ⟨cont, hk, hbad⟩ := h
  refine ⟨a :: cont, ⟨fun _ timers ht => ?_, fun c₁ h₁ => ?_⟩, fun h => hbad (h.2 c' hs)⟩
  · rw [hl] at ht
    cases ht
  · obtain rfl := Option.some.inj (hs.symm.trans h₁)
    exact hk

theorem uncovered_of_target {s : OsState} (hat : c.At s .target) (hs : s.Shows c) (hw : c.Waitable)
    (hp : ¬ Pending orApplying c.timers) : Uncovered orApplying d c := by
  obtain ⟨-, name, hst, hb⟩ := (waitable_iff c).1 hw
  refine ⟨[.target (some ⟨0, name, false⟩)], ⟨fun _ _ ht => (nomatch ht), fun _ _ => trivial⟩, fun h => hp ?_⟩
  refine h.1 (waitsFor_eq_true.2 ⟨s, hat, next_eq_tick.2 ⟨Bool.eq_false_iff.2 (fun hu => ?_), ?_, rfl⟩⟩)
  · exact hb ((hs.upToDate ⟨0, name, false⟩).1 hu)
  · exact (hs.isTargetStaged ⟨0, name, false⟩).2 hst

theorem Config.Waitable.new (hw : c.Waitable) : ∃ s, OsState.new c.status = some s := by
  obtain ⟨b, hb, -⟩ := hw
  exact ⟨_, Option.map_eq_some_iff.2 ⟨b, hb, rfl⟩⟩

theorem uncovered_of_tick {s : OsState} (hat : c.At s .tick) (hw : c.Waitable) (hp : ¬ Pending orApplying c.timers) :
    Uncovered orApplying d c := by
  obtain ⟨s', hs'⟩ := hw.new
  have htick : step d c .tick = some (c.goTo s .status) := by
    simp only [step, Config.onTick, show c.task = .running s .tick from hat]
  have hstatus : step d (c.goTo s .status) (.status true)
      = some ((c.goTo s .status).goTo { s' with countdownStarted := s.countdownStarted } .target) := by
    simp only [step, Config.onStatus, show (c.goTo s .status).task = .running s .status from rfl,
      show OsState.new (c.goTo s .status).status = some s' from hs']
  have hshows : OsState.Shows { s' with countdownStarted := s.countdownStarted } (c.goTo s .status) :=
    ((shows_of_new hs').counting _).congr rfl rfl
  exact .cons rfl htick (.cons (by simp [Config.left]) hstatus (uncovered_of_target rfl (hshows.congr rfl rfl) hw hp))

/-- **Where something can be waited for and no countdown pends**, a few answers lead the loop to wait for it. -/
theorem uncovered_of_stranded (hw : c.Waitable) (hp : ¬ Pending orApplying c.timers) (hs : c.Settling = false) :
    Uncovered orApplying d c := by
  have hgo : ∀ s, Uncovered orApplying d (c.goTo s .tick) := fun s => uncovered_of_tick rfl hw hp
  cases htask : c.task with
  | starting =>
    obtain ⟨s, hnew⟩ := hw.new
    exact .cons (a := .status true) (by simp [Config.left]) (by simp [step, Config.onStatus, htask, hnew]) (hgo s)
  | running s await =>
    cases await with
    | tick => exact uncovered_of_tick htask hw hp
    | status =>
      refine .cons (a := .status false) ?_ (by simp [step, Config.onStatus, htask]) (hgo s)
      simp [Config.left, Config.BeforeTimer, htask]
    | target => exact .cons (a := .target none) rfl (by simp [step, Config.onTarget, htask]) (hgo s)
    | report id => exact .cons (a := .report false) rfl (by simp [step, Config.onReport, htask]) (hgo s)
    | switchNow target => exact .cons (a := .switch none) rfl (by simp [step, Config.onSwitch, htask]) (hgo s)
    | switchDeferred target => exact .cons (a := .switch none) rfl (by simp [step, Config.onSwitch, htask]) (hgo s)
    | applyStaged => simp [Config.Settling, htask] at hs
    | applyNow => simp [Config.Settling, htask] at hs
    | statusBeforeTimer target g => simp [Config.Settling, htask] at hs

theorem uncovered_of_not_guarded {a : Action} (hk : ¬ Guarded orApplying c a) (hc : step d c a = some c') :
    Uncovered orApplying d c' := by
  obtain ⟨hw, timers, hl, hp⟩ : c.Waitable ∧ ∃ timers, c.left orApplying a = some timers ∧
      ¬ Pending orApplying timers := by
    simpa only [Guarded, Classical.not_imp, Classical.not_forall, exists_prop, Option.mem_def] using hk
  unfold Config.left at hl
  split at hl
  · obtain rfl := Option.some.inj hl
    obtain rfl := Option.some.inj hc
    exact uncovered_of_stranded hw hp rfl
  · split at hl
    · rename_i ok hb
      obtain rfl := Option.some.inj hl
      rcases onStatus_eq_some (show c.onStatus d ok = some c' from hc) with ⟨hat, -⟩ | ⟨s, hat, -⟩ |
        ⟨s, target, g, hat, ⟨-, rfl⟩ | ⟨ht, -⟩⟩
      · simp [Config.BeforeTimer, hat] at hb
      · simp [Config.BeforeTimer, show c.task = .running s .status from hat] at hb
      · exact uncovered_of_stranded hw hp rfl
      · exact absurd (hb.1.symm.trans ht) (by decide)
    · cases hl
  · split at hl
    · cases hl
    · rename_i ended hended
      obtain rfl := Option.some.inj hl
      obtain ⟨s, -, hc | ⟨-, rfl⟩⟩ := onApply_eq_some (show c.onApply ended = some c' from hc)
      · exact absurd ((apply_eq_some c c' ended).1 hc).1 hended
      · exact uncovered_of_stranded hw hp rfl
  · split at hl
    · cases hl
    · rename_i i hno
      obtain rfl := Option.some.inj hl
      rw [not_or, Bool.not_eq_true, Bool.not_eq_true] at hno
      obtain ⟨t, hi, -, -, rfl⟩ := expire_eq_some (show c.expire i = some c' from hc)
      refine uncovered_of_stranded hw (fun hpend => hp ((pending_set_iff (fun h => ?_)).1 hpend)) hno.2
      exact absurd (hno.1.symm.trans (h rfl)) (by decide)
  · split at hl
    · cases hl
    · rename_i i ended hno
      obtain rfl := Option.some.inj hl
      rw [not_or, Bool.not_eq_true] at hno
      obtain ⟨t, -, -, hc | ⟨-, rfl⟩⟩ := applied_eq_some (show c.applied i ended = some c' from hc)
      · exact absurd ((apply_eq_some c c' ended).1 hc).1 hno.1
      · exact uncovered_of_stranded hw hp hno.2
  · cases hl

/-! ## The runs on which the loop waits for a countdown -/

/-- **However a run goes on from any of its points with guarded steps, the loop waits for the timer only with a countdown
pending: exactly if the run starts with nothing to wait for and all its steps are guarded.**  This is so whether or not a
countdown whose apply is under way counts as pending. -/
theorem waiting_covered_iff (orApplying : Bool) (deferredTimer now : Nat) (booted staged : Option BootcDeploymentInfo)
    (as : List Action) (c : Config) (hrun : run (step deferredTimer) (.start now booted staged) as = some c) :
    (∀ pre post cont c₁, as = pre ++ post → run (step deferredTimer) (.start now booted staged) pre = some c₁ →
      Along (step deferredTimer) (Guarded orApplying) c₁ cont →
      Along (step deferredTimer) (Covered orApplying) (.start now booted staged) (pre ++ cont)) ↔
    ¬ (Config.start now booted staged).Waitable ∧
      Along (step deferredTimer) (Guarded orApplying) (.start now booted staged) as := by
  by_cases hw : (Config.start now booted staged).Waitable
  · refine ⟨fun h => ?_, fun h => absurd hw h.1⟩
    obtain ⟨cont, hk, hbad⟩ := @uncovered_of_stranded orApplying deferredTimer _ hw
      (by rintro ⟨t, ht, -⟩; cases ht) rfl
    exact absurd (h [] as cont _ rfl rfl hk) hbad
  · rw [and_iff_right hw]
    exact Runs.along_iff Covers.step (fun c a h _ => h.covered c a) (fun _ _ _ _ hk hs => uncovered_of_not_guarded hk hs)
      (.start hw) hrun

/-- The target is staged, and the status before the spawn fails. -/
def unspawned : List Action :=
  [.status true, .tick, .status true, .target (some firstTarget), .switch (some firstStaging.info), .status false]

def nextCycle : List Action := [.elapse 600, .tick, .status true, .target (some firstTarget)]

theorem waiting_covered_undisturbed : Along (step 43200) (Covered true) freshHost undisturbed :=
  (waiting_covered_iff true 43200 0 (some ⟨"c0".toList, none⟩) none undisturbed _ rfl).2 (by decide)
    undisturbed [] [] _ rfl rfl trivial

/-- The command of the countdown's apply is killed by a signal, which counts as a success; the host is not rebooted. -/
def killed : List Action := [.elapse 43200, .expire 0, .applied 0 (.exited (some 137))]

/-- **The loop waits for a countdown that was never started**, for one that a restart has ended, and for one whose apply
was killed. -/
theorem waits_for_nothing :
    Along (step 43200) StagesByName freshHost (unspawned ++ nextCycle) ∧
    (run (step 43200) freshHost (unspawned ++ nextCycle)).map (fun c => (c.timers, c.lastTarget, c.staged))
      = some ([], some firstTarget, some firstStaging) ∧
    ¬ Along (step 43200) (Covered true) freshHost (unspawned ++ nextCycle) ∧
    ¬ Along (step 43200) (Covered true) freshHost (countingDown ++ [.restart, .status true] ++ nextCycle) ∧
    ¬ Along (step 43200) (Covered true) freshHost (countingDown ++ killed ++ nextCycle) := by
  decide

end Os
end ZeroDowntime
