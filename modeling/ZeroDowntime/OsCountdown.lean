import ZeroDowntime.OsLoop
/-!
# OsCountdown — what a countdown applies

A countdown task is tied to nothing: it sleeps, then applies what is staged by then.  As long as the server keeps naming
the target a countdown was started for, that target stays staged and no second countdown is started, so that the
deployment applied is the countdown's own.  A target with another commit hash undoes it: the countdown runs on, and
applies whatever is staged when it wakes (`countdowns_right_iff`).
-/
namespace ZeroDowntime
namespace Os

open Runs (run Along)

/-- **What a timer's apply should find**: the deployment its own call staged, `deferredTimer` after that staging, and
its own target as the one the server named last. -/
structure Timer.Right (deferredTimer : Nat) (c : Config) (t : Timer) : Prop where
  staged : c.staged = some t.staging
  elapsed : t.staging.time + deferredTimer ≤ c.now
  target : c.lastTarget.map OsGetResponse.commitHash = some t.target.commitHash

/-- Every apply a timer is running finds what it should. -/
def CountdownsRight (deferredTimer : Nat) (c : Config) : Prop :=
  ∀ t ∈ c.timers, t.applying = true → t.Right deferredTimer c

/-- The target the server names is the one every countdown that has not ended was started for. -/
def TargetKept (c : Config) : Action → Prop
  | .target (some target) => ∀ t ∈ c.timers, target.commitHash = t.target.commitHash
  | _ => True

instance (c : Config) : ∀ a, Decidable (TargetKept c a)
  | .target (some target) => inferInstanceAs (Decidable (∀ t ∈ c.timers, target.commitHash = t.target.commitHash))
  | .target none | .elapse _ | .tick | .status _ | .report _ | .switch _ | .apply _ | .expire _ | .applied _ _
  | .restart => .isTrue trivial

/-- Nothing but time passing and timers waking. -/
def Action.Waits : Action → Prop
  | .elapse _ => True
  | .expire _ => True
  | _ => False

/-! ## The invariant -/

structure Timer.Own (deferredTimer : Nat) (c : Config) (t : Timer) : Prop where
  staged : c.staged = some t.staging
  imageRef : t.staging.info.imageRef = some t.target.commitHash
  wakes : t.staging.time + deferredTimer ≤ t.wakes
  slept : t.applying = true → t.wakes ≤ c.now
  target : c.lastTarget.map OsGetResponse.commitHash = some t.target.commitHash

/-- What the loop knows at the awaits between the status and the spawn. -/
def TaskOwn (c : Config) : Prop :=
  match c.task with
  | .running s .target => s.stagedImageRef = c.staged.bind (fun g => g.info.imageRef)
  | .running _ (.switchNow _) => c.timers = []
  | .running _ (.switchDeferred target) => c.timers = [] ∧ c.lastTarget = some target
  | .running _ (.statusBeforeTimer target g) =>
    c.timers = [] ∧ c.lastTarget = some target ∧ c.staged = some g ∧ g.info.imageRef = some target.commitHash ∧
      g.time ≤ c.now
  | _ => True

structure Countdowns (deferredTimer : Nat) (c : Config) : Prop where
  timers : ∀ t ∈ c.timers, t.Own deferredTimer c
  task : TaskOwn c

theorem Timer.Own.right {d : Nat} {c : Config} {t : Timer} (h : t.Own d c) (ha : t.applying = true) : t.Right d c :=
  ⟨h.staged, Nat.le_trans h.wakes (h.slept ha), h.target⟩

theorem Countdowns.right {d : Nat} {c : Config} (h : Countdowns d c) : CountdownsRight d c := fun t ht ha =>
  (h.timers t ht).right ha

theorem Timer.Own.mono {d : Nat} {c c' : Config} {t : Timer} (h : t.Own d c) (hs : c'.staged = c.staged)
    (hn : c.now ≤ c'.now) (hl : c'.lastTarget = c.lastTarget) : t.Own d c' where
  staged := hs.trans h.staged
  imageRef := h.imageRef
  wakes := h.wakes
  slept := fun ha => Nat.le_trans (h.slept ha) hn
  target := by rw [hl]; exact h.target

theorem Countdowns.goTo {d : Nat} {c : Config} (h : ∀ t ∈ c.timers, t.Own d c) (s : OsState) (await : Await)
    (ha : TaskOwn (c.goTo s await)) : Countdowns d (c.goTo s await) :=
  ⟨fun t ht => (h t ht).mono rfl (Nat.le_refl _) rfl, ha⟩

theorem Countdowns.restart (d : Nat) (c : Config) : Countdowns d c.restart := ⟨fun _ ht => (nomatch ht), trivial⟩

theorem Countdowns.start (d now : Nat) (booted staged : Option BootcDeploymentInfo) :
    Countdowns d (.start now booted staged) := ⟨fun _ ht => (nomatch ht), trivial⟩

theorem Countdowns.apply {d : Nat} {c c' : Config} {ended : ApplyEnd} (h : c.apply ended = some c') :
    Countdowns d c' := by
  obtain ⟨-, rfl⟩ := (apply_eq_some c c' ended).1 h
  exact .restart d _

theorem Countdowns.elapse {d : Nat} {c : Config} (h : Countdowns d c) (k : Nat) :
    Countdowns d { c with now := c.now + k } := by
  refine ⟨fun t ht => (h.timers t ht).mono rfl (Nat.le_add_right _ _) rfl, ?_⟩
  have ht := h.task
  unfold TaskOwn at ht ⊢
  split at ht <;> simp_all
  omega

theorem Countdowns.onTick {d : Nat} {c c' : Config} (h : Countdowns d c) (hc : c.onTick = some c') : Countdowns d c' := by
  obtain ⟨s, -, rfl⟩ := onTick_eq_some hc
  exact .goTo h.timers s .status trivial

theorem Countdowns.onReport {d : Nat} {c c' : Config} (h : Countdowns d c) (hc : c.onReport = some c') :
    Countdowns d c' := by
  obtain ⟨s, id, -, rfl⟩ := onReport_eq_some hc
  exact .goTo h.timers s .tick trivial

theorem Countdowns.onApply {d : Nat} {c c' : Config} {ended : ApplyEnd} (h : Countdowns d c)
    (hc : c.onApply ended = some c') : Countdowns d c' := by
  obtain ⟨s, -, hc | ⟨-, rfl⟩⟩ := onApply_eq_some hc
  · exact .apply hc
  · exact .goTo h.timers s .tick trivial

theorem new_stagedImageRef {c : Config} {s : OsState} (h : OsState.new c.status = some s) :
    s.stagedImageRef = c.staged.bind (fun g => g.info.imageRef) := by
  obtain ⟨b, -, rfl⟩ := Option.map_eq_some_iff.1 h
  show (c.staged.map Staging.info).bind BootcDeploymentInfo.imageRef = _
  cases c.staged with
  | none => rfl
  | some g => rfl

/-- The countdown that is spawned waits for its own staging, and is the only one. -/
theorem Countdowns.spawn {d : Nat} {c : Config} {s : OsState} {target : OsGetResponse} {g : Staging}
    (h : Countdowns d c) (hat : c.At s (.statusBeforeTimer target g)) :
    Countdowns d ((c.spawn target g d).goTo s .tick) := by
  obtain ⟨hn, hl, hs, hi, hg⟩ : c.timers = [] ∧ c.lastTarget = some target ∧ c.staged = some g ∧
      g.info.imageRef = some target.commitHash ∧ g.time ≤ c.now := by
    have ht := h.task
    unfold TaskOwn at ht
    rw [hat] at ht
    exact ht
  refine .goTo (fun t ht => ?_) s .tick trivial
  obtain rfl : t = ⟨target, g, c.now + d, false⟩ := by
    change t ∈ c.timers ++ _ at ht
    rw [hn] at ht
    exact List.mem_singleton.1 ht
  exact ⟨hs, hi, Nat.add_le_add_right hg d, fun hf => (nomatch hf), by show c.lastTarget.map _ = _; rw [hl]; rfl⟩

theorem Countdowns.onStatus {d : Nat} {c c' : Config} {ok : Bool} (h : Countdowns d c)
    (hc : c.onStatus d ok = some c') : Countdowns d c' := by
  rcases onStatus_eq_some hc with ⟨-, rfl | ⟨-, s, -, rfl⟩⟩ | ⟨s, -, rfl | ⟨-, s', hs', rfl⟩⟩ |
    ⟨s, target, g, hat, ⟨-, rfl⟩ | ⟨-, rfl⟩⟩
  · exact .restart d c
  · exact .goTo h.timers s .tick trivial
  · exact .goTo h.timers s .tick trivial
  · exact .goTo h.timers _ .target (show s'.stagedImageRef = _ from new_stagedImageRef hs')
  · exact .goTo h.timers s .tick trivial
  · exact h.spawn hat

theorem taskOwn_next {c : Config} {s : OsState} {target : OsGetResponse} (hl : c.lastTarget = some target)
    (hn : s.isTargetStaged target = false → c.timers = []) : TaskOwn (c.goTo s (s.next target)) := by
  unfold OsState.next
  by_cases hu : s.upToDate target = true
  · rw [if_pos hu]
    trivial
  rw [if_neg hu]
  by_cases hst : s.isTargetStaged target = true
  · rw [if_pos hst]
    split <;> trivial
  · rw [if_neg hst]
    have hnone := hn (Bool.eq_false_iff.2 hst)
    split
    · exact hnone
    · exact ⟨hnone, hl⟩

/-- **The target that every countdown was started for is staged already**, so that it leads to no switch. -/
theorem Countdowns.onTarget {d : Nat} {c c' : Config} {answer : Option OsGetResponse} (h : Countdowns d c)
    (hk : TargetKept c (.target answer)) (hc : c.onTarget answer = some c') : Countdowns d c' := by
  obtain ⟨s, hat, ⟨-, rfl⟩ | ⟨target, rfl, rfl⟩⟩ := onTarget_eq_some hc
  · exact .goTo h.timers s .tick trivial
  have hs : s.stagedImageRef = c.staged.bind (fun g => g.info.imageRef) := by
    have ht := h.task
    unfold TaskOwn at ht
    rw [hat] at ht
    exact ht
  refine .goTo (fun t ht => ?_) s _ (taskOwn_next rfl (fun hst => ?_))
  · have hw := h.timers t ht
    exact ⟨hw.staged, hw.imageRef, hw.wakes, hw.slept, congrArg some (hk t ht)⟩
  · refine List.eq_nil_iff_forall_not_mem.2 (fun t ht => ?_)
    have hw := h.timers t ht
    rw [hw.staged, Option.bind_some, hw.imageRef, ← hk t ht] at hs
    exact absurd (decide_eq_true (.inr hs)) (Bool.eq_false_iff.1 hst)

theorem Countdowns.onSwitch {d : Nat} {c c' : Config} {staged : Option BootcDeploymentInfo} (h : Countdowns d c)
    (hb : StagesByName c (.switch staged)) (hc : c.onSwitch staged = some c') : Countdowns d c' := by
  obtain ⟨s, target, hat, ⟨-, rfl⟩ | ⟨info, rfl, hto⟩⟩ := onSwitch_eq_some hc
  · exact .goTo h.timers s .tick trivial
  have ht := h.task
  unfold TaskOwn at ht
  rcases hto with ⟨hat, rfl⟩ | ⟨hat, rfl⟩
  · rw [hat] at ht
    refine .goTo (fun t hm => ?_) s .applyNow trivial
    rw [show (c.switch info).timers = [] from ht] at hm
    cases hm
  · rw [hat] at ht
    obtain ⟨hn, hl⟩ := ht
    have hname : info.imageRef = some target.commitHash := by
      refine hb target ?_
      unfold Config.switching
      rw [hat]
      rfl
    refine .goTo (fun t hm => ?_) _ _ ⟨hn, hl, rfl, hname, Nat.le_refl _⟩
    rw [show (c.switch info).timers = [] from hn] at hm
    cases hm

theorem Countdowns.expire {d : Nat} {c c' : Config} {i : Nat} (h : Countdowns d c) (hc : c.expire i = some c') :
    Countdowns d c' := by
  obtain ⟨t, hi, hn, hw, rfl⟩ := expire_eq_some hc
  have hmem : t ∈ c.timers := List.mem_of_getElem? hi
  refine ⟨fun u hu => ?_, ?_⟩
  · rcases List.mem_or_eq_of_mem_set hu with hu | rfl
    · exact (h.timers u hu).mono rfl (Nat.le_refl _) rfl
    · have ho := h.timers t hmem
      exact ⟨ho.staged, ho.imageRef, ho.wakes, fun _ => hw, ho.target⟩
  · have ht := h.task
    have hne : c.timers ≠ [] := List.ne_nil_of_mem hmem
    unfold TaskOwn at ht ⊢
    split at ht <;> simp_all

theorem Countdowns.applied {d : Nat} {c c' : Config} {i : Nat} {ended : ApplyEnd} (h : Countdowns d c)
    (hc : c.applied i ended = some c') : Countdowns d c' := by
  obtain ⟨t, hi, -, hc | ⟨-, rfl⟩⟩ := applied_eq_some hc
  · exact .apply hc
  · refine ⟨fun u hu => (h.timers u (List.mem_of_mem_eraseIdx hu)).mono rfl (Nat.le_refl _) rfl, ?_⟩
    have ht := h.task
    have hne : c.timers ≠ [] := List.ne_nil_of_mem (List.mem_of_getElem? hi)
    unfold TaskOwn at ht ⊢
    split at ht <;> simp_all

/-- **A step at which the server keeps the target keeps every countdown to its own deployment.** -/
theorem Countdowns.step {d : Nat} (c : Config) (a : Action) (c' : Config) (h : Countdowns d c)
    (hk : StagesByName c a ∧ TargetKept c a) (hc : step d c a = some c') : Countdowns d c' := by
  cases a with
  | elapse k => exact Option.some.inj hc ▸ h.elapse k
  | tick => exact h.onTick hc
  | status ok => exact h.onStatus hc
  | target answer => exact h.onTarget hk.2 hc
  | report ok => exact h.onReport hc
  | switch staged => exact h.onSwitch hk.1 hc
  | apply ended => exact h.onApply hc
  | expire i => exact h.expire hc
  | applied i ended => exact h.applied hc
  | restart => exact Option.some.inj hc ▸ .restart d c

/-! ## The runs on which countdowns apply their own -/

theorem Action.Waits.kept {a : Action} (h : a.Waits) (c : Config) : StagesByName c a ∧ TargetKept c a := by
  cases a with
  | elapse k => exact ⟨trivial, trivial⟩
  | expire i => exact ⟨trivial, trivial⟩
  | _ => exact h.elim

theorem along_waits (d : Nat) : ∀ (waits : List Action) (c : Config), (∀ a ∈ waits, a.Waits) →
    Along (step d) (fun c a => StagesByName c a ∧ TargetKept c a) c waits
  | [], _, _ => trivial
  | a :: waits, c, h =>
    ⟨(h a (List.mem_cons_self ..)).kept c,
      fun c' _ => along_waits d waits c' (fun b hb => h b (List.mem_cons_of_mem _ hb))⟩

theorem exists_replaced {c : Config} {a : Action} (h : ¬ TargetKept c a) :
    ∃ target, a = .target (some target) ∧ ∃ t ∈ c.timers, target.commitHash ≠ t.target.commitHash := by
  unfold TargetKept at h
  split at h
  · exact ⟨_, rfl, by simpa only [Classical.not_forall, exists_prop] using h⟩
  · exact absurd trivial h

/-- **A countdown whose target the server has replaced needs nothing but time to apply something wrong.** -/
theorem replaced_countdown_wrong {d : Nat} {c : Config} {t : Timer} (ht : t ∈ c.timers)
    (hl : c.lastTarget.map OsGetResponse.commitHash ≠ some t.target.commitHash) :
    ∃ waits c', (∀ a ∈ waits, a.Waits) ∧ run (step d) c waits = some c' ∧ ¬ CountdownsRight d c' := by
  by_cases ha : t.applying = true
  · exact ⟨[], c, (fun _ h => absurd h List.not_mem_nil), rfl, fun h => hl (h t ht ha).target⟩
  · obtain ⟨i, hi⟩ := List.mem_iff_getElem?.1 ht
    -- the clock is moved past the timer's own deadline, wherever it stands
    let awake : Timer := { t with applying := true }
    let c' : Config :=
      { c with now := c.now + t.wakes, osSwitchInProgress := true, timers := c.timers.set i awake }
    have hmem : awake ∈ c'.timers := List.mem_set (List.getElem?_eq_some_iff.1 hi).1 _
    have hex : ({ c with now := c.now + t.wakes } : Config).expire i = some c' := by
      unfold Config.expire
      rw [show ({ c with now := c.now + t.wakes } : Config).timers[i]? = some t from hi, Option.bind_some,
        if_pos ⟨Bool.eq_false_iff.2 ha, Nat.le_add_left _ _⟩]
    refine ⟨[.elapse t.wakes, .expire i], c', ?_, ?_, fun h => hl (h awake hmem rfl).target⟩
    · intro a ha
      rcases List.mem_cons.1 ha with rfl | ha
      · trivial
      · obtain rfl := List.mem_singleton.1 ha
        trivial
    · exact (Runs.run_cons_eq_some ..).2 ⟨_, rfl, (Runs.run_cons_eq_some ..).2 ⟨_, hex, rfl⟩⟩

/-- **However a run is cut short and its timers then left to wake, every apply a timer runs finds the deployment its own
call staged, `deferredTimer` ago, and its target still named: exactly if the server kept the target at every step of the
run at which a countdown had not ended.**  bootc is taken to report what a switch staged under the name it was given. -/
theorem countdowns_right_iff (deferredTimer now : Nat) (booted staged : Option BootcDeploymentInfo) (as : List Action)
    (c : Config) (hrun : run (step deferredTimer) (.start now booted staged) as = some c)
    (hb : Along (step deferredTimer) StagesByName (.start now booted staged) as) :
    (∀ pre post waits c', as = pre ++ post → (∀ a ∈ waits, a.Waits) →
      run (step deferredTimer) (.start now booted staged) (pre ++ waits) = some c' → CountdownsRight deferredTimer c') ↔
    Along (step deferredTimer) TargetKept (.start now booted staged) as := by
  constructor
  · intro h
    refine (Runs.along_or_break TargetKept as _).resolve_right ?_
    rintro ⟨pre, a, post, c₁, rfl, -, hr, hbreak⟩
    obtain ⟨target, rfl, t, ht, hne⟩ := exists_replaced hbreak
    obtain ⟨c₁', hr', hpost⟩ := (Runs.run_append_eq_some _ c _ pre _).1 hrun
    obtain rfl := Option.some.inj (hr.symm.trans hr')
    obtain ⟨c₂, hs, -⟩ := (Runs.run_cons_eq_some _ c₁ c _ post).1 hpost
    obtain ⟨s, -, ⟨hn, -⟩ | ⟨_, hsome, hc₂⟩⟩ := onTarget_eq_some (show c₁.onTarget (some target) = some c₂ from hs)
    · cases hn
    obtain rfl := Option.some.inj hsome
    obtain ⟨waits, c', hw, hrw, hwrong⟩ := replaced_countdown_wrong (d := deferredTimer) (c := c₂) (t := t)
      (by rw [hc₂]; exact ht) (by rw [hc₂]; exact fun h => hne (Option.some.inj h))
    refine hwrong (h (pre ++ [.target (some target)]) post waits c' (by simp) hw ?_)
    rw [List.append_assoc]
    exact (Runs.run_append_eq_some _ c' _ pre _).2 ⟨c₁, hr, (Runs.run_cons_eq_some ..).2 ⟨c₂, hs, hrw⟩⟩
  · rintro hk pre post waits c' rfl hw hr
    have hpre := ((Runs.along_append post pre _).1 (hb.and hk)).1
    have hall := (Runs.along_append waits pre _).2 ⟨hpre, fun c₁ _ => along_waits deferredTimer waits c₁ hw⟩
    exact (hall.invariant Countdowns.step (.start deferredTimer now booted staged) hr).right

def firstTarget : OsGetResponse := ⟨1, "os:1".toList, false⟩
def secondTarget : OsGetResponse := ⟨2, "os:2".toList, false⟩
def firstStaging : Staging := ⟨1, 0, "c1".toList, some "os:1".toList⟩
def secondStaging : Staging := ⟨2, 43000, "c2".toList, some "os:2".toList⟩

def freshHost : Config := .start 0 (some ⟨"c0".toList, none⟩) none

def countingDown : List Action :=
  [.status true, .tick, .status true, .target (some firstTarget), .switch (some firstStaging.info), .status true]

def retargeted : List Action :=
  countingDown ++ [.elapse 43000, .tick, .status true, .target (some secondTarget), .switch (some secondStaging.info),
    .status true, .elapse 200, .expire 0]

def undisturbed : List Action :=
  countingDown ++ [.elapse 600, .tick, .status true, .target (some firstTarget), .elapse 42600, .expire 0]

theorem countdowns_right_undisturbed : ∃ c, run (step 43200) freshHost undisturbed = some c ∧ CountdownsRight 43200 c :=
  ⟨_, rfl, (countdowns_right_iff 43200 0 (some ⟨"c0".toList, none⟩) none undisturbed _ rfl (by decide)).2 (by decide)
    undisturbed [] [] _ rfl (fun _ h => absurd h List.not_mem_nil) rfl⟩

/-- **The countdown of the first target runs its apply with the second one staged**, and boots it 200 seconds after
its staging. -/
theorem countdown_applies_other :
    Along (step 43200) StagesByName freshHost retargeted ∧
    (run (step 43200) freshHost retargeted).map (fun c => (c.now, c.lastTarget, c.staged, c.timers))
      = some (43200, some secondTarget, some secondStaging,
          [⟨firstTarget, firstStaging, 43200, true⟩, ⟨secondTarget, secondStaging, 86200, false⟩]) ∧
    (∃ c, run (step 43200) freshHost retargeted = some c ∧ ¬ CountdownsRight 43200 c) ∧
    (run (step 43200) freshHost (retargeted ++ [.applied 0 .rebooted])).map Config.booted
      = some (some secondStaging.info) := by
  have hrun : (run (step 43200) freshHost retargeted).map (fun c => (c.now, c.lastTarget, c.staged, c.timers))
      = some (43200, some secondTarget, some secondStaging,
          [⟨firstTarget, firstStaging, 43200, true⟩, ⟨secondTarget, secondStaging, 86200, false⟩]) := by decide
  refine ⟨by decide, hrun, ?_, by decide⟩
  obtain ⟨c, hc, heq⟩ := Option.map_eq_some_iff.1 hrun
  simp only [Prod.mk.injEq] at heq
  obtain ⟨-, -, hs, ht⟩ := heq
  refine ⟨c, hc, fun h => ?_⟩
  have hwrong := (h ⟨firstTarget, firstStaging, 43200, true⟩ (by rw [ht]; exact List.mem_cons_self ..) rfl).staged
  rw [hs] at hwrong
  exact absurd hwrong (by decide)

end Os
end ZeroDowntime
