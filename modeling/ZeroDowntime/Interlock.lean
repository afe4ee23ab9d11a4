import ZeroDowntime.AppLoop
import ZeroDowntime.OsFreeze
/-!
# Interlock — the OS loop, its timers and the application loop

The loops share the flag and nothing else: the OS loop and its timers raise it, the application loop reads it at its tick.
A cycle that has begun by then goes on to the end, so that containers stay untouched while the flag is up exactly if it is
raised when no cycle has anything left to start (`interlock_iff`).
-/
namespace ZeroDowntime

open Runs (run Along)

/-- `main` spawns the application loop once its first status has answered. -/
structure System where
  os : Os.Config
  apps : Option Apps.AppLoop

def System.start (now : Nat) (booted staged : Option Os.BootcDeploymentInfo) : System := ⟨.start now booted staged, none⟩

/-- A step of the OS loop or of a timer, with the containers a new process finds, or one of the application loop. -/
inductive SystemAction
  | os (a : Os.Action) (found : List Apps.Container)
  | app (a : Apps.AppAction)

def System.loop (apps : Option Apps.AppLoop) (found : List Apps.Container) : Os.Task → Option Apps.AppLoop
  | .starting => none
  | .running _ _ => some (apps.getD ⟨.start found, .tick⟩)

def System.step (deferredTimer : Nat) (sys : System) : SystemAction → Option System
  | .os a found => (Os.step deferredTimer sys.os a).map fun os => ⟨os, System.loop sys.apps found os.task⟩
  | .app a => sys.apps.bind fun l => (l.step sys.os.osSwitchInProgress a).map fun l' => ⟨sys.os, some l'⟩

/-- No operation on a container starts while the flag is up. -/
def Excluded (sys : System) : SystemAction → Prop
  | .app .start => ∀ l ∈ sys.apps, l.starts = true → sys.os.osSwitchInProgress = false
  | _ => True

/-- The flag is raised only when the application loop has nothing left to start. -/
def Quiet (sys : System) : SystemAction → Prop
  | .os a _ => sys.os.raises a = true → ∀ l ∈ sys.apps, l.unfinished = false
  | .app _ => True

instance (sys : System) : ∀ a, Decidable (Excluded sys a)
  | .app .start => inferInstanceAs (Decidable (∀ l ∈ sys.apps, l.starts = true → sys.os.osSwitchInProgress = false))
  | .os _ _ | .app .tick | .app (.fetched _) | .app (.pulled _) | .app (.removed _) | .app (.created _)
  | .app (.reported _) | .app (.pruned _) => .isTrue trivial

instance (sys : System) : ∀ a, Decidable (Quiet sys a)
  | .os a _ => inferInstanceAs (Decidable (sys.os.raises a = true → ∀ l ∈ sys.apps, l.unfinished = false))
  | .app _ => .isTrue trivial

/-! ## The invariant -/

structure Interlocked (sys : System) : Prop where
  frozen : sys.os.osSwitchInProgress = true → ∀ l ∈ sys.apps, l.unfinished = false
  starting : sys.os.task = .starting → sys.apps = none

theorem Interlocked.start (now : Nat) (booted staged : Option Os.BootcDeploymentInfo) :
    Interlocked (.start now booted staged) :=
  ⟨fun h => (nomatch h), fun _ => rfl⟩

theorem loop_running {apps : Option Apps.AppLoop} {found : List Apps.Container} {task : Os.Task}
    (h : task ≠ .starting) : System.loop apps found task = some (apps.getD ⟨.start found, .tick⟩) := by
  cases task with
  | starting => exact absurd rfl h
  | running s await => rfl

theorem Interlocked.step {d : Nat} (sys : System) (a : SystemAction) (sys' : System) (h : Interlocked sys)
    (hq : Quiet sys a) (hs : sys.step d a = some sys') : Interlocked sys' := by
  cases a with
  | os a found =>
    obtain ⟨os, hos, rfl⟩ := Option.map_eq_some_iff.1 hs
    refine ⟨fun hf l hl => ?_, fun hst => by simp only at hst ⊢; rw [hst]; rfl⟩
    rcases Os.flag_step hos with hnew | hgo
    · exact absurd (hf.symm.trans hnew.flag) (by decide)
    have hold : ∀ l ∈ sys.apps, l.unfinished = false := by
      have hup : (sys.os.osSwitchInProgress || sys.os.raises a) = true := hgo.flag.symm.trans hf
      rcases Bool.or_eq_true_iff.1 hup with hflag | hraise
      · exact h.frozen hflag
      · exact hq hraise
    by_cases hst : os.task = .starting
    · simp only [hst, System.loop] at hl
      cases hl
    · rw [loop_running hst] at hl
      obtain rfl := Option.some.inj hl
      cases happs : sys.apps with
      | none => rfl
      | some l => exact hold l happs
  | app a =>
    obtain ⟨l, hl, hs⟩ := Option.bind_eq_some_iff.1 hs
    obtain ⟨l', hl', rfl⟩ := Option.map_eq_some_iff.1 hs
    refine ⟨fun hf l₁ h₁ => ?_, fun hst => ?_⟩
    · obtain rfl := Option.some.inj h₁
      rw [show sys.os.osSwitchInProgress = true from hf] at hl'
      exact Apps.finished_step (h.frozen hf l hl) hl'
    · exact absurd ((h.starting hst).symm.trans hl) (fun h => nomatch h)

theorem Interlocked.excluded {sys : System} {a : SystemAction} (h : Interlocked sys) : Excluded sys a := by
  unfold Excluded
  split
  · intro l hl hs
    cases hf : sys.os.osSwitchInProgress with
    | false => rfl
    | true => exact absurd ((h.frozen hf l hl).symm.trans (Apps.unfinished_of_starts hs)) (by decide)
  · trivial

/-! ## What a flag raised in mid-cycle leads to -/

theorem app_run {d : Nat} {os : Os.Config} : ∀ (as : List Apps.AppAction) (l l' : Apps.AppLoop),
    run (Apps.AppLoop.step os.osSwitchInProgress) l as = some l' →
      run (System.step d) ⟨os, some l⟩ (as.map .app) = some ⟨os, some l'⟩
  | [], l, l', hr => Option.some.inj hr ▸ rfl
  | a :: as, l, l', hr => by
    obtain ⟨l₁, h₁, hr⟩ := (Runs.run_cons_eq_some _ l l' a as).1 hr
    refine (Runs.run_cons_eq_some ..).2 ⟨⟨os, some l₁⟩, ?_, app_run as l₁ l' hr⟩
    simp only [System.step, Option.bind_some, h₁, Option.map_some]

theorem along_quiet {d : Nat} : ∀ (as : List Apps.AppAction) (sys : System),
    Along (System.step d) Quiet sys (as.map .app)
  | [], _ => trivial
  | _ :: as, _ => ⟨trivial, fun sys' _ => along_quiet as sys'⟩

/-- **A flag that is raised in mid-cycle does not stop the cycle.** -/
theorem starts_anyway {d : Nat} {sys sys' : System} {a : SystemAction} (h : Interlocked sys) (hq : ¬ Quiet sys a)
    (hs : sys.step d a = some sys') :
    ∃ cont, Along (System.step d) Quiet sys' cont ∧ ¬ Along (System.step d) Excluded sys' cont := by
  cases a with
  | app a => exact absurd trivial hq
  | os a found =>
    obtain ⟨hraise, l, hl, hun⟩ : sys.os.raises a = true ∧ ∃ l, sys.apps = some l ∧ l.unfinished = true := by
      simpa only [Quiet, Classical.not_imp, Classical.not_forall, exists_prop, Option.mem_def, Bool.not_eq_false] using hq
    obtain ⟨os, hos, rfl⟩ := Option.map_eq_some_iff.1 hs
    have hrun : sys.os.task ≠ .starting := fun hst => absurd ((h.starting hst).symm.trans hl) (fun h => nomatch h)
    obtain ⟨hgo, hflag⟩ := Os.flagged_step hrun (Os.keepsProcess_of_raises hraise) hos
    rw [hraise, Bool.or_true] at hflag
    obtain ⟨as, l', hr, hstart⟩ := Apps.exists_start os.osSwitchInProgress hun
    have hsys : (⟨os, System.loop sys.apps found os.task⟩ : System) = ⟨os, some l⟩ := by
      rw [loop_running (hgo hrun), hl]
      rfl
    refine ⟨(as ++ [Apps.AppAction.start]).map .app, along_quiet _ _, fun hall => ?_⟩
    rw [hsys, List.map_append] at hall
    have hlast := ((Runs.along_append _ _ _).1 hall).2 _ (app_run as l l' hr)
    have hdown := hlast.1 l' rfl hstart
    exact absurd (hflag.symm.trans hdown) (by decide)

/-- **However a run goes on from any of its points with the flag raised only where no cycle has anything left to start, no
operation on a container starts while the flag is up: exactly if the run itself raises it only there.** -/
theorem interlock_iff (deferredTimer now : Nat) (booted staged : Option Os.BootcDeploymentInfo) (as : List SystemAction)
    (sys : System) (hrun : run (System.step deferredTimer) (.start now booted staged) as = some sys) :
    (∀ pre post cont sys₁, as = pre ++ post → run (System.step deferredTimer) (.start now booted staged) pre = some sys₁ →
      Along (System.step deferredTimer) Quiet sys₁ cont →
      Along (System.step deferredTimer) Excluded (.start now booted staged) (pre ++ cont)) ↔
    Along (System.step deferredTimer) Quiet (.start now booted staged) as :=
  Runs.along_iff Interlocked.step (fun _ _ h _ => h.excluded) (fun _ _ _ h hq hs => starts_anyway h hq hs)
    (.start now booted staged) hrun

/-- The application loop fetches one target; the OS loop is named an immediate one at some point of that cycle. -/
def cycleBegins : List SystemAction :=
  [.os (.status true) [], .os .tick [], .os (.status true) [], .app .tick,
    .app (.fetched (.ok [⟨1, 1, "registry/app:1".toList, none⟩]))]

def immediateUpdate : SystemAction := .os (.target (some Os.immediateTarget)) []

def cycleEnds : List SystemAction :=
  [.app (.pulled fun r => .ok (some ⟨r, "sha256:1"⟩)), .app .start, .app (.created (.ok ())), .app .start,
    .app (.reported (.ok ())), .app (.pruned (.ok ()))]

def freshSystem : System := .start 0 (some ⟨"c0".toList, none⟩) none

def updateBetweenCycles : List SystemAction := cycleBegins ++ cycleEnds ++ [immediateUpdate, .app .tick]

def updateInCycle : List SystemAction := cycleBegins ++ [immediateUpdate] ++ cycleEnds

theorem interlock_between_cycles : Along (System.step 43200) Excluded freshSystem updateBetweenCycles :=
  (interlock_iff 43200 0 (some ⟨"c0".toList, none⟩) none updateBetweenCycles _ rfl).2 (by decide)
    updateBetweenCycles [] [] _ rfl rfl trivial

/-- **A container is created while the flag is up**: the update is named while the cycle pulls its images. -/
theorem created_while_frozen :
    (run (System.step 43200) freshSystem (cycleBegins ++ [immediateUpdate])).map (fun sys => sys.os.osSwitchInProgress)
      = some true ∧
    (run (System.step 43200) freshSystem updateInCycle).map
        (fun sys => (sys.os.osSwitchInProgress, sys.apps.map fun l => l.host.containers.map Apps.Container.id))
      = some (true, some [0]) ∧
    ¬ Along (System.step 43200) Excluded freshSystem updateInCycle := by
  decide

end ZeroDowntime
