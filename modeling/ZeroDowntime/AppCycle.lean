import Mathlib.Data.List.Sort
import ZeroDowntime.Common
import ZeroDowntime.Lifecycle
import ZeroDowntime.Reconcile
/-!
# AppCycle — one cycle of the application loop

`try_update` fetches the targets, pulls their images, sorts both lists and executes the actions of the iterator one by
one on the vector of applications; the first error ends the cycle.  Only a cycle whose actions all succeeded reports.
What the API, podman and the lifecycle tasks answer is the input of a cycle; a call that fails changes nothing.
-/
namespace ZeroDowntime
namespace Apps

open Lifecycle (Error Responses LoopState)
open MergeJoin (Step lefts rights)

/-! ## Applications and containers -/

/-- A container in podman, with what its image is inspected to be; the application ids are its labels. -/
structure Container where
  id : Nat
  name : List Char
  imageReference : Reference
  imageDigest : String
  env : List (String × String)
  applicationId : Option Int
  applicationConfigId : Option Int
  deriving DecidableEq, Repr

/-- An application, and the container its lifecycle task owns; `appName` is the name the task was given. -/
structure Application where
  imageReference : Reference
  imageDigest : String
  applicationId : Int
  applicationConfigId : Option Int
  appName : List Char
  container : Nat
  deriving DecidableEq, Repr

/-- `Application::wrap`: a container without its label gets application id 0. -/
def Application.wrap (c : Container) : Application where
  imageReference := c.imageReference
  imageDigest := c.imageDigest
  applicationId := c.applicationId.getD 0
  applicationConfigId := c.applicationConfigId
  appName := c.name
  container := c.id

instance : PodmanImageInfo Application where
  reference := Application.imageReference
  digest := Application.imageDigest
  applicationConfigId := Application.applicationConfigId

structure Image where
  reference : Reference
  digest : String
  deriving DecidableEq, Repr

structure TargetApp where
  image : Image
  name : List Char
  config : Option ContainerConfigV1
  applicationId : Int
  applicationConfigId : Int
  deriving DecidableEq, Repr

instance : PodmanImageInfo TargetApp where
  reference := fun t => t.image.reference
  digest := fun t => t.image.digest
  applicationConfigId := fun t => some t.applicationConfigId

/-- The last path component, up to its first `:`. -/
def deriveName (image : Reference) : List Char :=
  ((image.reverse.takeWhile (fun c => decide (c ≠ '/'))).reverse).takeWhile (fun c => decide (c ≠ ':'))

def TargetApp.fromConfig (image : Reference → Except Error (Option Image)) (cfg : AppsGetResponseItem) :
    Except Error TargetApp :=
  match image cfg.image with
  | .error e => .error e
  | .ok none => .error "Could not pull image"
  | .ok (some image) => .ok ⟨image, deriveName cfg.image, cfg.config, cfg.applicationId, cfg.id⟩

/-- The device: the applications, and the containers in podman.  Container ids are handed out in order. -/
structure Host where
  apps : List Application
  containers : List Container
  next : Nat
  apps_lt : ∀ a ∈ apps, a.container < next
  containers_lt : ∀ c ∈ containers, c.id < next

def nextId (containers : List Container) : Nat := containers.foldr (fun c n => max (c.id + 1) n) 0

theorem id_lt_nextId : ∀ (containers : List Container), ∀ c ∈ containers, c.id < nextId containers
  | [], _, hc => by cases hc
  | d :: containers, c, hc => by
    have ih := id_lt_nextId containers
    simp only [nextId, List.foldr_cons] at ih ⊢
    rcases List.mem_cons.1 hc with rfl | hc
    · exact Nat.lt_of_lt_of_le (Nat.lt_succ_self _) (Nat.le_max_left _ _)
    · exact Nat.lt_of_lt_of_le (ih c hc) (Nat.le_max_right _ _)

/-- The device when the orchestrator starts: every container it finds is wrapped. -/
def Host.start (containers : List Container) : Host where
  apps := containers.map Application.wrap
  containers := containers
  next := nextId containers
  apps_lt := fun a ha => by
    obtain ⟨c, hc, rfl⟩ := List.mem_map.1 ha
    exact id_lt_nextId containers c hc
  containers_lt := id_lt_nextId containers

/-! ## The vector -/

/-- `Vec::swap_remove`: the last element takes the place of the removed one; `none` is a panic. -/
def swapRemove {α : Type} (l : List α) (i : Nat) : Option (α × List α) :=
  match l[i]? with
  | none => none
  | some a => some (a, (l.set i (l.getLast?.getD a)).dropLast)

def lastFirst {α : Type} (l : List α) : List α :=
  match l.getLast? with
  | none => []
  | some z => z :: l.dropLast

theorem lastFirst_perm {α : Type} (l : List α) : (lastFirst l).Perm l := by
  unfold lastFirst
  cases hl : l.getLast? with
  | none => rw [List.getLast?_eq_none_iff.1 hl]
  | some z =>
    obtain ⟨l', rfl⟩ := List.getLast?_eq_some_iff.1 hl
    rw [List.dropLast_concat]
    exact (List.perm_append_singleton z l').symm

/-- **The elements before the index keep their places.** -/
theorem swapRemove_append {α : Type} (pre : List α) (a : α) (post : List α) :
    swapRemove (pre ++ a :: post) pre.length = some (a, pre ++ lastFirst post) := by
  unfold swapRemove lastFirst
  rw [List.getElem?_append_right (Nat.le_refl _), Nat.sub_self, List.getElem?_cons_zero]
  simp only [List.set_append_right _ _ (Nat.le_refl _), Nat.sub_self, List.set_cons_zero]
  cases hp : post.getLast? with
  | none =>
    obtain rfl := List.getLast?_eq_none_iff.1 hp
    simp
  | some z =>
    obtain ⟨l', rfl⟩ := List.getLast?_eq_some_iff.1 hp
    simp only [List.getLast?_append, List.getLast?_cons, Option.some_or, Option.getD_some]
    rw [List.dropLast_append_of_ne_nil (by simp), ← List.cons_append, List.dropLast_concat, List.dropLast_concat]
    rfl

theorem swapRemove_perm {α : Type} (l rest : List α) (i : Nat) (a : α) (h : swapRemove l i = some (a, rest)) :
    l.Perm (a :: rest) := by
  have hi : l[i]? = some a := by
    unfold swapRemove at h
    cases hi : l[i]? with
    | none => rw [hi] at h; cases h
    | some b =>
      rw [hi] at h
      simp only [Option.some.injEq, Prod.mk.injEq] at h
      rw [h.1]
  obtain ⟨hlt, hget⟩ := List.getElem?_eq_some_iff.1 hi
  have hl : l = l.take i ++ a :: l.drop (i + 1) := by
    rw [← hget, ← List.drop_eq_getElem_cons hlt, List.take_append_drop]
  have hlen : (l.take i).length = i := by rw [List.length_take]; omega
  have hs := swapRemove_append (l.take i) a (l.drop (i + 1))
  rw [hlen, ← hl, h, Option.some.injEq, Prod.mk.injEq] at hs
  rw [hs.2]
  conv_lhs => rw [hl]
  exact (List.perm_middle).trans (List.Perm.cons a (List.Perm.append_left _ (lastFirst_perm _).symm))

/-! ## Actions -/

/-- What happens to the lifecycle task of an application that is removed: it has died, or it goes on from this state
with these answers. -/
inductive Removal
  | died (e : Error)
  | served (s : LoopState) (rs : List Responses)

/-- How `Application::remove` ends; it may also wait for its task forever. -/
inductive RemoveEnd
  | returned (destroyed : Bool)
  | failed (e : Error)
  | pending
  deriving DecidableEq, Repr

/-- `Application::remove` leaves the delete permit and waits for the task to end. -/
def Removal.ended : Removal → RemoveEnd
  | .died e => .failed e
  | .served s rs =>
    match Lifecycle.run true s rs with
    | some (_, .returned destroyed) => .returned destroyed
    | _ => .pending

inductive Ended
  | ok
  | failed (e : Error)
  | pending
  | panicked
  deriving DecidableEq, Repr

/-- What an action did: it removed the application at an index, or called `create_container` while the applications held
these names. -/
inductive Event
  | removed (index : Nat) (app : Application) (ended : RemoveEnd)
  | created (target : TargetApp) (held : List (List Char)) (res : Except Error Unit)

structure Outcome where
  ended : Ended
  host : Host
  events : List Event

def Outcome.andThen (o : Outcome) (f : Host → Outcome) : Outcome :=
  match o.ended with
  | .ok => ⟨(f o.host).ended, (f o.host).host, o.events ++ (f o.host).events⟩
  | _ => o

def Host.drop (h : Host) (app : Application) (rest : List Application) (hrest : ∀ a ∈ rest, a ∈ h.apps)
    (destroyed : Bool) : Host where
  apps := rest
  containers := if destroyed then h.containers.filter (fun c => decide (c.id ≠ app.container)) else h.containers
  next := h.next
  apps_lt := fun a ha => h.apps_lt a (hrest a ha)
  containers_lt := fun c hc => by
    split at hc
    · exact h.containers_lt c (List.mem_of_mem_filter hc)
    · exact h.containers_lt c hc

/-- `apps.swap_remove(index).remove(log_registry)`: the application leaves the vector before its removal is tried. -/
def removeAt (h : Host) (index : Nat) (r : Removal) : Outcome :=
  match hs : swapRemove h.apps index with
  | none => ⟨.panicked, h, []⟩
  | some (app, rest) =>
    have hrest : ∀ a ∈ rest, a ∈ h.apps := fun _ ha =>
      (swapRemove_perm h.apps rest index app hs).symm.subset (List.mem_cons_of_mem _ ha)
    match r.ended with
    | .returned destroyed => ⟨.ok, h.drop app rest hrest destroyed, [.removed index app (.returned destroyed)]⟩
    | .failed e => ⟨.failed e, h.drop app rest hrest false, [.removed index app (.failed e)]⟩
    | .pending => ⟨.pending, h.drop app rest hrest false, [.removed index app .pending]⟩

def TargetApp.container (t : TargetApp) (id : Nat) : Container where
  id := id
  name := t.name
  imageReference := t.image.reference
  imageDigest := t.image.digest
  env := (t.config.bind ContainerConfigV1.environment).getD []
  applicationId := some t.applicationId
  applicationConfigId := some t.applicationConfigId

def TargetApp.application (t : TargetApp) (id : Nat) : Application := .wrap (t.container id)

def Host.add (h : Host) (t : TargetApp) : Host where
  apps := h.apps ++ [t.application h.next]
  containers := h.containers ++ [t.container h.next]
  next := h.next + 1
  apps_lt := fun a ha => by
    rcases List.mem_append.1 ha with ha | ha
    · exact Nat.lt_succ_of_lt (h.apps_lt a ha)
    · rw [List.mem_singleton.1 ha]; exact Nat.lt_succ_self _
  containers_lt := fun c hc => by
    rcases List.mem_append.1 hc with hc | hc
    · exact Nat.lt_succ_of_lt (h.containers_lt c hc)
    · rw [List.mem_singleton.1 hc]; exact Nat.lt_succ_self _

/-- `Application::launch_from_image`, and the application pushed. -/
def launch (h : Host) (t : TargetApp) (res : Except Error Unit) : Outcome :=
  match res with
  | .error e => ⟨.failed e, h, [.created t (h.apps.map Application.appName) res]⟩
  | .ok _ => ⟨.ok, h.add t, [.created t (h.apps.map Application.appName) res]⟩

/-- What is answered during one cycle; `removal` and `created` are indexed by the action. -/
structure CycleEnv where
  targets : Except Error (List AppsGetResponseItem)
  image : Reference → Except Error (Option Image)
  removal : Nat → Removal
  created : Nat → Except Error Unit
  reported : Except Error Unit
  pruned : Except Error Unit

def act (env : CycleEnv) (n : Nat) (h : Host) : ReconcileAction TargetApp → Outcome
  | .create image => launch h image (env.created n)
  | .update index targetImage =>
    (removeAt h index (env.removal n)).andThen (fun h' => launch h' targetImage (env.created n))
  | .remove index => removeAt h index (env.removal n)

def actAll (env : CycleEnv) : Nat → List (ReconcileAction TargetApp) → Host → Outcome
  | _, [], h => ⟨.ok, h, []⟩
  | n, a :: rest, h => (act env n h a).andThen (actAll env (n + 1) rest)

/-! ## The cycle -/

/-- `order_reference`. -/
def referenceLe {α : Type} [PodmanImageInfo α] (a b : α) : Prop :=
  PodmanImageInfo.reference a ≤ PodmanImageInfo.reference b

instance {α : Type} [PodmanImageInfo α] : DecidableRel (referenceLe (α := α)) := fun a b => by
  unfold referenceLe; infer_instance

/-- `sort_by(order_reference)`, which is stable. -/
def sortByReference {α : Type} [PodmanImageInfo α] (l : List α) : List α := l.insertionSort referenceLe

def Host.sorted (h : Host) : Host where
  apps := sortByReference h.apps
  containers := h.containers
  next := h.next
  apps_lt := fun a ha => h.apps_lt a ((List.mem_insertionSort _).1 ha)
  containers_lt := h.containers_lt

structure Cycle extends Outcome where
  /-- The ids the cycle sent to the API. -/
  reported : Option (List Int)

def CycleEnv.pulled (env : CycleEnv) : Except Error (List TargetApp) :=
  match env.targets with
  | .error e => .error e
  | .ok configs => configs.mapM (TargetApp.fromConfig env.image)

/-- The actions that bring `apps` to `targets`, both sorted. -/
def reconcile (apps : List Application) (targets : List TargetApp) : List (ReconcileAction TargetApp) :=
  (ReconcileIterator.new (sortByReference apps) (sortByReference targets)).actions

def tryUpdate (env : CycleEnv) (h : Host) : Cycle :=
  match env.targets, env.pulled with
  | .error e, _ => ⟨⟨.failed e, h, []⟩, none⟩
  | .ok _, .error e => ⟨⟨.failed e, h, []⟩, none⟩
  | .ok configs, .ok targets =>
    let o := actAll env 0 (reconcile h.apps targets) h.sorted
    match o.ended with
    | .ok =>
      let ids := configs.map AppsGetResponseItem.id
      match env.reported, env.pruned with
      | .error e, _ => ⟨⟨.failed e, o.host, o.events⟩, some ids⟩
      | .ok _, .error e => ⟨⟨.failed e, o.host, o.events⟩, some ids⟩
      | .ok _, .ok _ => ⟨o, some ids⟩
    | _ => ⟨o, none⟩

end Apps
end ZeroDowntime
