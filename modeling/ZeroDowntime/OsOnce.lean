import ZeroDowntime.OsCountdown
/-!
# OsOnce — one staging for each target

As long as the server names one target, `try_switch` stages it once: a staged deployment keeps the name it was switched to
until it is booted, and a booted one keeps it for good.  Failures, restarts and reboots erase only what the next status
shows again (`one_staging`).
-/
namespace ZeroDowntime
namespace Os

open Runs (run Along)

/-- The server names this target, at times immediate and at times not. -/
def TargetIs (commitHash : List Char) (id : Int) (_ : Config) : Action → Prop
  | .target (some target) => target.commitHash = commitHash ∧ target.id = id
  | _ => True

instance (commitHash : List Char) (id : Int) (c : Config) : ∀ a, Decidable (TargetIs commitHash id c a)
  | .target (some target) => inferInstanceAs (Decidable (target.commitHash = commitHash ∧ target.id = id))
  | .target none | .elapse _ | .tick | .status _ | .report _ | .switch _ | .apply _ | .expire _ | .applied _ _
  | .restart => .isTrue trivial

/-- `try_switch` has issued a switch or an apply. -/
def Config.issuing (c : Config) : Bool :=
  match c.task with
  | .running _ .applyStaged => true
  | .running _ (.switchNow _) => true
  | .running _ .applyNow => true
  | .running _ (.switchDeferred _) => true
  | _ => false

/-! ## The invariant -/

/-- What is staged goes by the name, and what is booted does not. -/
def Config.Due (c : Config) (name : List Char) : Prop := ¬ c.Booted name ∧ c.Staged name

def TaskOnce (commitHash : List Char) (id : Int) (c : Config) : Prop :=
  match c.task with
  | .running s .target => s.Shows c
  | .running _ (.report osVersionId) => osVersionId = id ∧ c.Booted commitHash
  | .running _ .applyStaged => c.Due commitHash
  | .running _ .applyNow => c.Due commitHash
  | .running _ (.statusBeforeTimer _ _) => c.Due commitHash
  | .running _ (.switchNow target) => target.commitHash = commitHash ∧ ¬ c.Booted commitHash ∧ ¬ c.Staged commitHash
  | .running _ (.switchDeferred target) =>
    target.commitHash = commitHash ∧ ¬ c.Booted commitHash ∧ ¬ c.Staged commitHash
  | _ => True

structure Once (commitHash : List Char) (id : Int) (c : Config) : Prop where
  switches : c.switches = 0 ∨ c.switches = 1 ∧ (c.Booted commitHash ∨ c.Staged commitHash)
  timers : c.timers ≠ [] → c.Due commitHash
  task : TaskOnce commitHash id c

variable {commitHash : List Char} {id : Int} {d : Nat} {c c' : Config}

theorem TaskOnce.congr (h : TaskOnce commitHash id c) (ht : c'.task = c.task) (hb : c'.booted = c.booted)
    (hs : c'.staged = c.staged) : TaskOnce commitHash id c' := by
  have hboot : c'.Booted commitHash ↔ c.Booted commitHash := by unfold Config.Booted; rw [hb]
  have hstage : c'.Staged commitHash ↔ c.Staged commitHash := by unfold Config.Staged; rw [hs]
  unfold TaskOnce Config.Due at *
  rw [ht]
  split at h
  · exact h.congr hb hs
  all_goals simp_all only [not_false_eq_true, and_self]

theorem Once.goTo {s : OsState} {await : Await} (h : Once commitHash id c)
    (ht : TaskOnce commitHash id (c.goTo s await)) : Once commitHash id (c.goTo s await) :=
  ⟨h.switches, h.timers, ht⟩

theorem Once.restart (h : c.switches = 0 ∨ c.switches = 1 ∧ (c.Booted commitHash ∨ c.Staged commitHash)) :
    Once commitHash id c.restart :=
  ⟨h, fun hne => absurd rfl hne, trivial⟩

/-- **A reboot while the target is due boots it.** -/
theorem Once.apply {ended : ApplyEnd} (h : Once commitHash id c) (hd : c.Due commitHash)
    (hc : c.apply ended = some c') : Once commitHash id c' := by
  obtain ⟨-, rfl⟩ := (apply_eq_some c c' ended).1 hc
  obtain ⟨g, hg, hn⟩ := hd.2
  have hboot : c.reboot.booted = some g.info := by
    show (c.staged.map Staging.info).or c.booted = some g.info
    rw [show c.staged = some g from hg]
    rfl
  exact .restart (h.switches.imp_right fun hs => ⟨hs.1, .inl ⟨g.info, hboot, hn⟩⟩)

theorem Once.onTick (h : Once commitHash id c) (hc : c.onTick = some c') : Once commitHash id c' := by
  obtain ⟨s, -, rfl⟩ := onTick_eq_some hc
  exact h.goTo trivial

theorem Once.onReport (h : Once commitHash id c) (hc : c.onReport = some c') : Once commitHash id c' := by
  obtain ⟨s, osVersionId, -, rfl⟩ := onReport_eq_some hc
  exact h.goTo trivial

theorem Once.onStatus {ok : Bool} (h : Once commitHash id c) (hc : c.onStatus d ok = some c') :
    Once commitHash id c' := by
  rcases onStatus_eq_some hc with ⟨-, rfl | ⟨-, s, -, rfl⟩⟩ | ⟨s, -, rfl | ⟨-, s', hs', rfl⟩⟩ |
    ⟨s, target, g, hat, ⟨-, rfl⟩ | ⟨-, rfl⟩⟩
  · exact .restart h.switches
  · exact h.goTo trivial
  · exact h.goTo trivial
  · exact h.goTo (((shows_of_new hs').counting s.countdownStarted).congr rfl rfl)
  · exact h.goTo trivial
  · have hd := h.task
    unfold TaskOnce at hd
    rw [hat] at hd
    exact ⟨h.switches, fun _ => hd, trivial⟩

/-- **The target is reported where it is booted, applied where it is staged, and else switched to.** -/
theorem Once.onTarget {answer : Option OsGetResponse} (h : Once commitHash id c)
    (ht : TargetIs commitHash id c (.target answer)) (hc : c.onTarget answer = some c') : Once commitHash id c' := by
  obtain ⟨s, hat, ⟨-, rfl⟩ | ⟨target, rfl, rfl⟩⟩ := onTarget_eq_some hc
  · exact h.goTo trivial
  obtain ⟨rfl, rfl⟩ := ht
  have hs : s.Shows c := by
    have hs := h.task
    unfold TaskOnce at hs
    rw [hat] at hs
    exact hs
  refine ⟨h.switches, h.timers, ?_⟩
  unfold OsState.next
  by_cases hu : s.upToDate target = true
  · rw [if_pos hu]
    exact ⟨rfl, (hs.upToDate target).1 hu⟩
  rw [if_neg hu]
  have hb : ¬ c.Booted target.commitHash := fun hb => hu ((hs.upToDate target).2 hb)
  by_cases hst : s.isTargetStaged target = true
  · rw [if_pos hst]
    by_cases hi : target.immediate = true
    · rw [if_pos hi]
      exact ⟨hb, (hs.isTargetStaged target).1 hst⟩
    · rw [if_neg hi]
      trivial
  · rw [if_neg hst]
    have hn : ¬ c.Staged target.commitHash := fun hn => hst ((hs.isTargetStaged target).2 hn)
    by_cases hi : target.immediate = true
    · rw [if_pos hi]
      exact ⟨rfl, hb, hn⟩
    · rw [if_neg hi]
      exact ⟨rfl, hb, hn⟩

/-- A switch is the first one: nothing that one before it staged is left. -/
theorem Once.onSwitch {staged : Option BootcDeploymentInfo} (h : Once commitHash id c)
    (hb : StagesByName c (.switch staged)) (hc : c.onSwitch staged = some c') : Once commitHash id c' := by
  obtain ⟨s, target, hat, ⟨-, rfl⟩ | ⟨info, rfl, hto⟩⟩ := onSwitch_eq_some hc
  · exact h.goTo trivial
  obtain ⟨rfl, hboot, hst⟩ : target.commitHash = commitHash ∧ ¬ c.Booted commitHash ∧ ¬ c.Staged commitHash := by
    have ht := h.task
    unfold TaskOnce at ht
    rcases hat with hat | hat <;> (rw [hat] at ht; exact ht)
  have hname : info.imageRef = some target.commitHash := by
    refine hb target ?_
    unfold Config.switching
    rcases hat with hat | hat <;> (rw [hat]; rfl)
  have hfirst : c.switches = 0 := h.switches.resolve_right fun hs => hs.2.elim hboot hst
  have hdue : (c.switch info).Due target.commitHash := ⟨hboot, _, rfl, .inr hname⟩
  have hnext : (c.switch info).switches = 1 := congrArg (· + 1) hfirst
  rcases hto with ⟨-, rfl⟩ | ⟨-, rfl⟩
  · exact ⟨.inr ⟨hnext, .inr hdue.2⟩, fun _ => hdue, hdue⟩
  · exact ⟨.inr ⟨hnext, .inr hdue.2⟩, fun _ => hdue, hdue⟩

theorem Once.onApply {ended : ApplyEnd} (h : Once commitHash id c) (hc : c.onApply ended = some c') :
    Once commitHash id c' := by
  obtain ⟨s, hat, hc | ⟨-, rfl⟩⟩ := onApply_eq_some hc
  · have hd := h.task
    unfold TaskOnce at hd
    rcases hat with hat | hat
    · rw [hat] at hd
      exact h.apply hd hc
    · rw [hat] at hd
      exact h.apply hd hc
  · exact h.goTo trivial

theorem Once.expire {i : Nat} (h : Once commitHash id c) (hc : c.expire i = some c') : Once commitHash id c' := by
  obtain ⟨t, hi, -, -, rfl⟩ := expire_eq_some hc
  exact ⟨h.switches, fun _ => h.timers (List.ne_nil_of_mem (List.mem_of_getElem? hi)), h.task.congr rfl rfl rfl⟩

theorem Once.applied {i : Nat} {ended : ApplyEnd} (h : Once commitHash id c) (hc : c.applied i ended = some c') :
    Once commitHash id c' := by
  obtain ⟨t, hi, -, hc | ⟨-, rfl⟩⟩ := applied_eq_some hc
  · exact h.apply (h.timers (List.ne_nil_of_mem (List.mem_of_getElem? hi))) hc
  · exact ⟨h.switches, fun _ => h.timers (List.ne_nil_of_mem (List.mem_of_getElem? hi)), h.task.congr rfl rfl rfl⟩

theorem Once.step (c : Config) (a : Action) (c' : Config) (h : Once commitHash id c)
    (hk : StagesByName c a ∧ TargetIs commitHash id c a) (hc : step d c a = some c') : Once commitHash id c' := by
  cases a with
  | elapse k => exact Option.some.inj hc ▸ ⟨h.switches, h.timers, h.task.congr rfl rfl rfl⟩
  | tick => exact h.onTick hc
  | status ok => exact h.onStatus hc
  | target answer => exact h.onTarget hk.2 hc
  | report ok => exact h.onReport hc
  | switch staged => exact h.onSwitch hk.1 hc
  | apply ended => exact h.onApply hc
  | expire i => exact h.expire hc
  | applied i ended => exact h.applied hc
  | restart => exact Option.some.inj hc ▸ .restart h.switches

/-! ## Whole runs -/

theorem Once.start (now : Nat) (booted staged : Option BootcDeploymentInfo) :
    Once commitHash id (.start now booted staged) :=
  ⟨.inl rfl, fun hne => absurd rfl hne, trivial⟩

/-- **No apply ends once the target is booted.** -/
theorem Once.due {a : Action} {ended : ApplyEnd} (h : Once commitHash id c) (ha : EndsApply c a ended) :
    c.Due commitHash := by
  rcases ha with ⟨-, s, hat⟩ | ⟨i, t, -, hi, -⟩
  · have hd := h.task
    unfold TaskOnce at hd
    rcases hat with hat | hat <;> (rw [hat] at hd; exact hd)
  · exact h.timers (List.ne_nil_of_mem (List.mem_of_getElem? hi))

theorem Once.booted {a : Action} (h : Once commitHash id c) (hb : c.Booted commitHash)
    (hc : Os.step d c a = some c') : c'.Booted commitHash := by
  have hsame : c'.booted = c.booted := by
    rcases step_host hc with ⟨ended, ha, -⟩ | ⟨-, hsame, -⟩ | ⟨-, hsame, -⟩
    · exact absurd hb (h.due ha).1
    · exact hsame
    · exact hsame
  unfold Config.Booted
  rw [hsame]
  exact hb

theorem booted_run (as : List Action) (c c' : Config) (h : Once commitHash id c)
    (hk : Along (Os.step d) (fun c a => StagesByName c a ∧ TargetIs commitHash id c a) c as)
    (hb : c.Booted commitHash) (hr : run (Os.step d) c as = some c') : c'.Booted commitHash :=
  (hk.invariant (I := fun c => Once commitHash id c ∧ c.Booted commitHash)
    (fun c a c' hi hka hs => ⟨hi.1.step c a c' hka hs, hi.1.booted hi.2 hs⟩) ⟨h, hb⟩ hr).2

/-- The counter of the host is the number of switches that succeeded. -/
theorem switches_run : ∀ (as : List Action) (c c' : Config), run (Os.step d) c as = some c' →
    c'.switches = c.switches + as.countP Action.stages
  | [], _, _, hr => Option.some.inj hr ▸ rfl
  | a :: as, c, c', hr => by
    obtain ⟨c₁, h₁, hr⟩ := (Runs.run_cons_eq_some _ c c' a as).1 hr
    have hstep : c₁.switches = c.switches + if a.stages then 1 else 0 := by
      rcases step_host h₁ with ⟨ended, ha, hap⟩ | ⟨hst, -, hs⟩ | ⟨hst, -, -, hs⟩
      · obtain ⟨-, rfl⟩ := (apply_eq_some c c₁ ended).1 hap
        rcases ha with ⟨rfl, -⟩ | ⟨i, t, rfl, -⟩ <;> rfl
      · rw [hs, hst]
        rfl
      · rw [hs, hst]
        rfl
    rw [switches_run as c₁ c' hr, hstep, List.countP_cons, Nat.add_assoc, Nat.add_comm (as.countP _)]

/-- **One staging for each target, and no update loop.**  On a host with any deployments, with a server that names one
commit hash and id throughout: at most one switch of the whole run succeeds; once the target is booted it stays booted,
`try_switch` issues no switch and no apply, and no countdown is left; and what it reports is the target's id, with the
target booted.  bootc is taken to report what a switch staged under the name it was given. -/
theorem one_staging (commitHash : List Char) (id : Int) (deferredTimer now : Nat)
    (booted staged : Option BootcDeploymentInfo) (as : List Action) (c : Config)
    (hrun : run (Os.step deferredTimer) (.start now booted staged) as = some c)
    (hb : Along (Os.step deferredTimer) StagesByName (.start now booted staged) as)
    (ht : Along (Os.step deferredTimer) (TargetIs commitHash id) (.start now booted staged) as) :
    as.countP Action.stages ≤ 1 ∧
    (∀ pre post c₁, as = pre ++ post → run (Os.step deferredTimer) (.start now booted staged) pre = some c₁ →
      c₁.Booted commitHash → c.Booted commitHash ∧ c.issuing = false ∧ c.timers = []) ∧
    ∀ s osVersionId, c.At s (.report osVersionId) → osVersionId = id ∧ c.Booted commitHash := by
  have hinv : Once commitHash id c := (hb.and ht).invariant Once.step (.start now booted staged) hrun
  refine ⟨?_, ?_, ?_⟩
  · have hcount := switches_run as _ c hrun
    have hle : c.switches ≤ 1 := by
      rcases hinv.switches with h | ⟨h, -⟩ <;> omega
    omega
  · rintro pre post c₁ rfl hpre hboot
    obtain ⟨hkpre, hkpost⟩ := (Runs.along_append post pre _).1 (hb.and ht)
    obtain ⟨c₁', hpre', hpost⟩ := (Runs.run_append_eq_some _ c post pre _).1 hrun
    obtain rfl := Option.some.inj (hpre.symm.trans hpre')
    have hboot' : c.Booted commitHash :=
      booted_run post c₁ c (hkpre.invariant Once.step (.start now booted staged) hpre) (hkpost c₁ hpre) hboot hpost
    refine ⟨hboot', ?_, Classical.byContradiction fun hne => (hinv.timers hne).1 hboot'⟩
    have htask := hinv.task
    unfold TaskOnce at htask
    unfold Config.issuing
    split at htask
    all_goals simp_all [Config.Due]
  · intro s osVersionId hat
    have htask := hinv.task
    unfold TaskOnce at htask
    rw [hat] at htask
    exact htask

/-- The countdown ends in a reboot, after which the target is reported. -/
def updated : List Action :=
  undisturbed ++ [.applied 0 .rebooted, .status true, .tick, .status true, .target (some firstTarget)]

theorem one_staging_updated : updated.countP Action.stages ≤ 1 :=
  (one_staging "os:1".toList 1 43200 0 (some ⟨"c0".toList, none⟩) none updated _ rfl (by decide) (by decide)).1

/-- The run ends at the report, with the target booted. -/
example : (run (Os.step 43200) freshHost updated).map (fun c => (c.switches, c.booted, c.timers))
    = some (1, some firstStaging.info, []) := by decide

end Os
end ZeroDowntime
