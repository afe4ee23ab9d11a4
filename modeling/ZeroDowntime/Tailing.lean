import Mathlib.Logic.Function.Basic
import ZeroDowntime.AppLogs
import ZeroDowntime.AppLoop
/-!
# Tailing — which streams the log registry reads

Three parties send over one channel or read it: the application loop, which takes an application out of its vector and
unregisters it; the lifecycle tasks, which register a stream whenever their container runs; and the registry, which keeps
one stream for each application id.  An application and its successor have one id: a command of one takes the stream of
the other exactly if both are there (`removal_silences_none_iff`).
-/
namespace ZeroDowntime
namespace Apps

open Runs (run Along)

/-- A follow stream of a container's log; the streams are numbered as they are opened. -/
structure LogStream where
  container : Nat
  serial : Nat
  deriving DecidableEq, Repr

inductive RegistryCommand
  | add (applicationId : Int) (stream : LogStream)
  | remove (applicationId : Int)
  deriving DecidableEq, Repr

abbrev StreamMap := Int → Option LogStream

def RegistryCommand.applicationId : RegistryCommand → Int
  | .add id _ => id
  | .remove id => id

def RegistryCommand.stream? : RegistryCommand → Option LogStream
  | .add _ stream => some stream
  | .remove _ => none

def RegistryCommand.apply (c : RegistryCommand) (streams : StreamMap) : StreamMap :=
  Function.update streams c.applicationId c.stream?

/-! ## The vector of applications -/

/-- The application that the step takes out of the vector, and the others. -/
def AppLoop.leaves (l : AppLoop) (a : AppAction) : Option (Application × List Application) :=
  match l.task, a with
  | .updating _ (.remove index :: _), .start => swapRemove l.host.apps index
  | _, _ => none

/-- The application whose removal is awaited, and the others. -/
def AppLoop.leaving (l : AppLoop) : Option (Application × List Application) :=
  match l.task with
  | .operating _ (.remove index) _ => swapRemove l.host.apps index
  | _ => none

/-- `apps`, which an application has left before its removal is awaited. -/
def AppLoop.apps (l : AppLoop) : List Application := (l.leaving.map Prod.snd).getD l.host.apps

/-- `Application::remove` sends its command before it leaves the delete permit. -/
def AppLoop.commands (l : AppLoop) (a : AppAction) : List RegistryCommand :=
  match l.leaves a with
  | some (app, _) => [.remove app.applicationId]
  | none => []

/-! ## The three parties -/

/-- `opened` is the stream a container's task has registered last, until that stream ends. -/
structure Tailing where
  loop : AppLoop
  channel : List RegistryCommand
  streams : StreamMap
  opened : Nat → Option Nat
  serial : Nat

def Tailing.start (containers : List Container) : Tailing :=
  ⟨⟨.start containers, .tick⟩, [], fun _ => none, fun _ => none, 0⟩

/-- A step of the application loop; a task registers its stream; the registry receives a command; a container's stream ends,
and the registry drops one that has. -/
inductive TailAction
  | loop (osUpgradeInProgress : Bool) (a : AppAction)
  | register (app : Application)
  | process
  | ended (container : Nat)
  | exhausted (applicationId : Int)

def Tailing.register (s : Tailing) (app : Application) : Tailing :=
  { s with
    channel := s.channel ++ [.add app.applicationId ⟨app.container, s.serial⟩]
    opened := Function.update s.opened app.container (some s.serial)
    serial := s.serial + 1 }

/-- The task of an application lives until its removal has ended. -/
def Tailing.step (s : Tailing) : TailAction → Option Tailing
  | .loop frozen a =>
    (s.loop.step frozen a).map fun l => { s with loop := l, channel := s.channel ++ s.loop.commands a }
  | .register app => if app ∈ s.loop.host.apps then some (s.register app) else none
  | .process =>
    match s.channel with
    | [] => none
    | c :: channel => some { s with channel, streams := c.apply s.streams }
  | .ended container => some { s with opened := Function.update s.opened container none }
  | .exhausted id =>
    match s.streams id with
    | none => none
    | some stream =>
      if s.opened stream.container = some stream.serial then none
      else some { s with streams := Function.update s.streams id none }

/-- The map when the commands sent so far have been received. -/
def settled (channel : List RegistryCommand) (streams : StreamMap) : StreamMap :=
  channel.foldl (fun streams c => c.apply streams) streams

/-- **Every application in the vector with a stream that has not ended has that stream in the map**, once the commands sent
have been received. -/
def Tailing.Tailed (s : Tailing) : Prop :=
  ∀ a ∈ s.loop.apps, ∀ serial, s.opened a.container = some serial →
    settled s.channel s.streams a.applicationId = some ⟨a.container, serial⟩

/-- No other application with the id of this one has a stream that has not ended. -/
def Alone (opened : Nat → Option Nat) (app : Application) (others : List Application) : Prop :=
  ∀ b ∈ others, b.applicationId = app.applicationId → b.container ≠ app.container → opened b.container = none

instance (opened : Nat → Option Nat) (app : Application) (others : List Application) :
    Decidable (Alone opened app others) :=
  inferInstanceAs (Decidable (∀ b ∈ others, _ → _ → _))

/-- Whoever sends a command is alone with its id. -/
def Tailing.SentAlone (s : Tailing) : TailAction → Prop
  | .loop _ a => ∀ p ∈ s.loop.leaves a, Alone s.opened p.1 p.2
  | .register app => Alone s.opened app s.loop.apps
  | _ => True

instance (s : Tailing) : ∀ a, Decidable (s.SentAlone a)
  | .loop _ a => inferInstanceAs (Decidable (∀ p ∈ s.loop.leaves a, Alone s.opened p.1 p.2))
  | .register app => inferInstanceAs (Decidable (Alone s.opened app s.loop.apps))
  | .process | .ended _ | .exhausted _ => .isTrue trivial

/-! ## The map -/

theorem apply_same {c : RegistryCommand} {id : Int} (h : c.applicationId = id) (m : StreamMap) :
    c.apply m id = c.stream? :=
  h ▸ Function.update_self ..

theorem apply_other {c : RegistryCommand} {id : Int} (h : c.applicationId ≠ id) (m : StreamMap) : c.apply m id = m id :=
  Function.update_of_ne (Ne.symm h) ..

theorem settled_append (channel : List RegistryCommand) (c : RegistryCommand) (m : StreamMap) :
    settled (channel ++ [c]) m = c.apply (settled channel m) :=
  List.foldl_concat ..

/-- What an entry will be depends on no other entry. -/
theorem settled_congr (id : Int) : ∀ (channel : List RegistryCommand) (m m' : StreamMap), m id = m' id →
    settled channel m id = settled channel m' id
  | [], _, _, h => h
  | c :: channel, m, m', h => by
    refine settled_congr id channel (c.apply m) (c.apply m') ?_
    by_cases hid : c.applicationId = id
    · rw [apply_same hid, apply_same hid]
    · rw [apply_other hid, apply_other hid, h]

/-- An entry that is cleared will be what it would have been, or would have stayed as it was. -/
theorem settled_cleared (id : Int) : ∀ (channel : List RegistryCommand) (m : StreamMap),
    settled channel (Function.update m id none) id = settled channel m id ∨ settled channel m id = m id
  | [], _ => .inr rfl
  | c :: channel, m => by
    by_cases hid : c.applicationId = id
    · refine .inl (settled_congr id channel (c.apply (Function.update m id none)) (c.apply m) ?_)
      rw [apply_same hid, apply_same hid]
    · have hclear : settled (c :: channel) (Function.update m id none) id
          = settled channel (Function.update (c.apply m) id none) id := by
        refine settled_congr id channel (c.apply (Function.update m id none)) _ ?_
        rw [apply_other hid, Function.update_self, Function.update_self]
      rw [hclear, ← apply_other hid m]
      exact settled_cleared id channel (c.apply m)

/-- The registry receives all that has been sent. -/
theorem process_all : ∀ (channel : List RegistryCommand) (s : Tailing), s.channel = channel →
    run Tailing.step s (List.replicate channel.length .process)
      = some { s with channel := [], streams := settled channel s.streams }
  | [], ⟨_, _, _, _, _⟩, rfl => rfl
  | c :: channel, s, h => by
    refine (Runs.run_cons_eq_some ..).2 ⟨{ s with channel, streams := c.apply s.streams }, ?_, ?_⟩
    · simp only [Tailing.step, h]
    · exact process_all channel _ rfl

/-! ## The map is that of the registry -/

/-- The command as the registry receives it, with what it reads and what the API answers a push with. -/
def RegistryCommand.action (name : List Char) (ok : Bool) : RegistryCommand → Logs.RegistryAction
  | .add id _ => .add id name
  | .remove id => .remove id ok

/-- The map has a stream for each id the registry reads. -/
structure Reads (r : Logs.Registry) (m : StreamMap) : Prop where
  nodup : r.streams.Nodup
  iff : ∀ id, id ∈ r.streams ↔ (m id).isSome = true

theorem Reads.erase {r : Logs.Registry} {m : StreamMap} (h : Reads r m) (id id' : Int) :
    id' ∈ r.streams.erase id ↔ (Function.update m id none id').isSome = true := by
  rw [h.nodup.mem_erase_iff, h.iff]
  by_cases hid : id' = id
  · rw [hid, Function.update_self]
    exact iff_of_false (fun h => h.1 rfl) Bool.false_ne_true
  · rw [Function.update_of_ne hid]
    exact and_iff_right hid

theorem Reads.command {r : Logs.Registry} {m : StreamMap} (h : Reads r m) (maxBatch maxBuffer : Nat) (c : RegistryCommand)
    (name : List Char) (ok : Bool) : Reads (r.handle maxBatch maxBuffer (c.action name ok)) (c.apply m) := by
  cases c with
  | add id stream =>
    refine ⟨h.nodup.insert, fun id' => List.mem_insert_iff.trans ?_⟩
    by_cases hid : id' = id
    · exact iff_of_true (.inl hid) (by rw [apply_same (c := .add id stream) hid.symm]; rfl)
    · rw [apply_other (c := .add id stream) (Ne.symm hid), ← h.iff]
      exact or_iff_right hid
  | remove id => exact ⟨h.nodup.erase id, h.erase id⟩

theorem Reads.ended {r : Logs.Registry} {m : StreamMap} (h : Reads r m) (maxBatch maxBuffer : Nat) (id : Int) :
    Reads (r.handle maxBatch maxBuffer (.ended id)) (Function.update m id none) :=
  ⟨h.nodup.erase id, h.erase id⟩

/-! ## What a step of the loop does to the vector -/

/-- The vector stays, up to order; an application leaves it; the one that has left is gone; a new one is pushed. -/
inductive Effect (l : AppLoop) (a : AppAction) (l' : AppLoop) : Prop
  | same (hl : l.leaving = none) (hl' : l'.leaving = none) (hq : l.leaves a = none)
      (happs : l'.host.apps.Perm l.host.apps) (hnext : l'.host.next = l.host.next)
  | leave (app : Application) (rest : List Application) (hl : l.leaving = none) (ha : l.leaves a = some (app, rest))
      (hl' : l'.leaving = some (app, rest)) (hhost : l'.host = l.host)
  | left (app : Application) (rest : List Application) (hl : l.leaving = some (app, rest)) (hl' : l'.leaving = none)
      (hq : l.leaves a = none) (happs : l'.host.apps = rest) (hnext : l'.host.next = l.host.next)
  | push (t : TargetApp) (hl : l.leaving = none) (hl' : l'.leaving = none) (hq : l.leaves a = none)
      (hhost : l'.host = l.host.add t)

theorem goOn_host {ids : List Int} {ops : List Op} {o : Outcome} {l : AppLoop} (h : AppLoop.goOn ids ops o = some l) :
    l.host = o.host ∧ l.leaving = none := by
  unfold AppLoop.goOn at h
  split at h
  · exact Option.some.inj h ▸ ⟨rfl, rfl⟩
  · exact Option.some.inj h ▸ ⟨rfl, rfl⟩
  · cases h
  · cases h

/-- An application leaves the vector before its removal is awaited. -/
theorem effect_removing (host : Host) (ids : List Int) (index : Nat) (ops : List Op) :
    Effect ⟨host, .updating ids (.remove index :: ops)⟩ .start ⟨host, .operating ids (.remove index) ops⟩ := by
  cases hs : swapRemove host.apps index with
  | none => exact .same rfl hs hs (.refl _) rfl
  | some p => exact .leave p.1 p.2 rfl hs hs rfl

theorem effect_removed {host : Host} {ids : List Int} {index : Nat} {ops : List Op} {r : Removal} {l' : AppLoop}
    (h : AppLoop.goOn ids ops (removeAt host index r) = some l') :
    Effect ⟨host, .operating ids (.remove index) ops⟩ (.removed r) l' := by
  obtain ⟨hhost, hleaving⟩ := goOn_host h
  cases hs : swapRemove host.apps index with
  | none =>
    have hpanic : (removeAt host index r).ended = .panicked := by
      unfold removeAt
      split
      · rfl
      · rename_i heq
        exact absurd (heq.symm.trans hs) (by simp)
    simp only [AppLoop.goOn, hpanic] at h
    cases h
  | some p =>
    obtain ⟨hrest, heq⟩ := removeAt_eq host index r p.1 p.2 hs
    obtain ⟨d, hdrop⟩ : ∃ d, (removeAt host index r).host = host.drop p.1 p.2 hrest d := by
      rw [heq]
      split <;> exact ⟨_, rfl⟩
    exact .left p.1 p.2 hs hleaving rfl (by rw [hhost, hdrop]; rfl) (by rw [hhost, hdrop]; rfl)

theorem effect_step {frozen : Bool} {l l' : AppLoop} {a : AppAction} (h : l.step frozen a = some l') : Effect l a l' := by
  obtain ⟨host, task⟩ := l
  cases task with
  | tick =>
    cases a with
    | tick =>
      obtain rfl := Option.some.inj h
      cases frozen <;> exact .same rfl rfl rfl (.refl _) rfl
    | _ => cases h
  | fetching =>
    cases a with
    | fetched answer => cases answer <;> exact Option.some.inj h ▸ .same rfl rfl rfl (.refl _) rfl
    | _ => cases h
  | pulling configs =>
    cases a with
    | pulled image =>
      simp only [AppLoop.step] at h
      split at h
      · exact Option.some.inj h ▸ .same rfl rfl rfl (.refl _) rfl
      · exact Option.some.inj h ▸ .same rfl rfl rfl (List.perm_insertionSort _ _) rfl
    | _ => cases h
  | updating ids ops =>
    cases a with
    | start =>
      rcases ops with _ | ⟨target | index, ops⟩
      · exact Option.some.inj h ▸ .same rfl rfl rfl (.refl _) rfl
      · exact Option.some.inj h ▸ .same rfl rfl rfl (.refl _) rfl
      · exact Option.some.inj h ▸ effect_removing host ids index ops
    | _ => cases ops <;> cases h
  | operating ids op ops =>
    cases op with
    | create target =>
      cases a with
      | created res =>
        obtain ⟨hhost, hleaving⟩ := goOn_host h
        cases res with
        | error e => exact .same rfl hleaving rfl (hhost ▸ .refl _) (hhost ▸ rfl)
        | ok u => exact .push target rfl hleaving rfl hhost
      | _ => cases h
    | remove index =>
      cases a with
      | removed r => exact effect_removed h
      | _ => cases h
  | reporting ids =>
    cases a with
    | reported res => cases res <;> exact Option.some.inj h ▸ .same rfl rfl rfl (.refl _) rfl
    | _ => cases h
  | pruning =>
    cases a with
    | pruned res => exact Option.some.inj h ▸ .same rfl rfl rfl (.refl _) rfl
    | _ => cases h

/-- **A step that takes no application out of the vector adds at most a container that is new.** -/
theorem Effect.apps_quiet {l l' : AppLoop} {a : AppAction} (h : Effect l a l') (hq : l.leaves a = none) :
    ∀ b ∈ l'.apps, b ∈ l.apps ∨ b.container = l.host.next := by
  intro b hb
  cases h with
  | same hl hl' _ happs =>
    rw [AppLoop.apps, hl'] at hb
    rw [AppLoop.apps, hl]
    exact .inl (happs.subset hb)
  | leave app rest _ ha => exact nomatch hq.symm.trans ha
  | left app rest hl hl' _ happs =>
    rw [AppLoop.apps, hl'] at hb
    rw [AppLoop.apps, hl]
    exact .inl (happs ▸ hb)
  | push t hl hl' _ hhost =>
    rw [AppLoop.apps, hl', Option.map_none, Option.getD_none, hhost] at hb
    rw [AppLoop.apps, hl]
    exact (List.mem_append.1 hb).imp_right fun hb => by rw [List.mem_singleton.1 hb]; rfl

theorem Effect.apps_leave {l l' : AppLoop} {a : AppAction} (h : Effect l a l') {p : Application × List Application}
    (hp : l.leaves a = some p) : l'.apps = p.2 := by
  cases h with
  | leave app rest _ ha hl' =>
    obtain rfl := Option.some.inj (hp.symm.trans ha)
    rw [AppLoop.apps, hl']
    rfl
  | same _ _ hq | left _ _ _ _ hq | push _ _ _ hq => exact nomatch hq.symm.trans hp

theorem swapRemove_of_leaving {l : AppLoop} {app : Application} {rest : List Application}
    (h : l.leaving = some (app, rest)) : l.host.apps.Perm (app :: rest) := by
  unfold AppLoop.leaving at h
  split at h
  · exact swapRemove_perm _ _ _ _ h
  · cases h

theorem apps_subset (l : AppLoop) : ∀ a ∈ l.apps, a ∈ l.host.apps := by
  intro a ha
  unfold AppLoop.apps at ha
  cases hl : l.leaving with
  | none =>
    rw [hl] at ha
    exact ha
  | some p =>
    rw [hl] at ha
    exact (swapRemove_of_leaving hl).symm.subset (List.mem_cons_of_mem _ ha)

/-! ## What every step keeps -/

/-- Each container is wrapped once, and none that is not yet created has a stream. -/
structure Tailing.Wrapped (s : Tailing) : Prop where
  nodup : (s.loop.host.apps.map Application.container).Nodup
  created : ∀ c serial, s.opened c = some serial → c < s.loop.host.next

theorem Effect.nodup {l l' : AppLoop} {a : AppAction} (h : Effect l a l')
    (hn : (l.host.apps.map Application.container).Nodup) : (l'.host.apps.map Application.container).Nodup := by
  cases h with
  | same _ _ _ happs => exact (happs.map _).nodup_iff.2 hn
  | leave _ _ _ _ _ hhost => exact hhost ▸ hn
  | left app rest hl _ _ happs =>
    have hperm := ((swapRemove_of_leaving hl).map Application.container).nodup_iff.1 hn
    exact happs ▸ (List.nodup_cons.1 hperm).2
  | push t _ _ _ hhost =>
    rw [hhost, Host.add, List.map_append]
    refine List.nodup_append.2 ⟨hn, List.nodup_singleton _, fun c hc d hd => ?_⟩
    obtain ⟨b, hb, rfl⟩ := List.mem_map.1 hc
    obtain rfl := List.mem_singleton.1 hd
    exact Nat.ne_of_lt (l.host.apps_lt b hb)

theorem Effect.next_le {l l' : AppLoop} {a : AppAction} (h : Effect l a l') : l.host.next ≤ l'.host.next := by
  cases h with
  | same _ _ _ _ hnext => exact Nat.le_of_eq hnext.symm
  | leave _ _ _ _ _ hhost => exact hhost ▸ Nat.le_refl _
  | left _ _ _ _ _ _ hnext => exact Nat.le_of_eq hnext.symm
  | push t _ _ _ hhost => exact hhost ▸ Nat.le_succ _

theorem Tailing.Wrapped.step {s s' : Tailing} {a : TailAction} (h : s.Wrapped) (hs : s.step a = some s') :
    s'.Wrapped := by
  cases a with
  | loop frozen a =>
    obtain ⟨l, hl, rfl⟩ := Option.map_eq_some_iff.1 hs
    have heffect := effect_step hl
    exact ⟨heffect.nodup h.nodup, fun c serial ho => Nat.lt_of_lt_of_le (h.created c serial ho) heffect.next_le⟩
  | register app =>
    obtain ⟨happ, hs⟩ := Option.ite_none_right_eq_some.1 hs
    refine Option.some.inj hs ▸ ⟨h.nodup, fun c serial ho => ?_⟩
    by_cases hc : c = app.container
    · exact hc ▸ s.loop.host.apps_lt app happ
    · have hold : s.opened c = some serial := (Function.update_of_ne hc ..).symm.trans ho
      exact h.created c serial hold
  | process =>
    simp only [Tailing.step] at hs
    split at hs
    · cases hs
    · exact Option.some.inj hs ▸ ⟨h.nodup, h.created⟩
  | ended container =>
    refine Option.some.inj hs ▸ ⟨h.nodup, fun c serial ho => ?_⟩
    by_cases hc : c = container
    · obtain rfl := hc
      have hnone : some serial = none := ho.symm.trans (Function.update_self ..)
      cases hnone
    · have hold : s.opened c = some serial := (Function.update_of_ne hc ..).symm.trans ho
      exact h.created c serial hold
  | exhausted id =>
    simp only [Tailing.step] at hs
    split at hs
    · cases hs
    · split at hs
      · cases hs
      · exact Option.some.inj hs ▸ ⟨h.nodup, h.created⟩

/-! ## Who silences whom -/

theorem perm_of_leaves {l : AppLoop} {a : AppAction} {p : Application × List Application} (h : l.leaves a = some p) :
    l.apps = l.host.apps ∧ l.host.apps.Perm (p.1 :: p.2) := by
  unfold AppLoop.leaves at h
  split at h
  · rename_i ids index ops htask
    exact ⟨by rw [AppLoop.apps, AppLoop.leaving, htask]; rfl, swapRemove_perm _ _ _ _ h⟩
  · cases h

/-- **A removal silences the others exactly if one of them has its id and a stream.** -/
theorem tailed_leave {s : Tailing} {a : AppAction} {l : AppLoop} {p : Application × List Application} (hw : s.Wrapped)
    (ht : s.Tailed) (hp : s.loop.leaves a = some p) (hl : l.apps = p.2) :
    Tailing.Tailed { s with loop := l, channel := s.channel ++ s.loop.commands a } ↔ Alone s.opened p.1 p.2 := by
  obtain ⟨happs, hperm⟩ := perm_of_leaves hp
  have hcommands : s.loop.commands a = [.remove p.1.applicationId] := by rw [AppLoop.commands, hp]
  have hnodup := List.nodup_cons.1 ((hperm.map Application.container).nodup_iff.1 hw.nodup)
  simp only [Tailing.Tailed, hl, hcommands, settled_append]
  constructor
  · intro h b hb hid _
    cases ho : s.opened b.container with
    | none => rfl
    | some serial =>
      have hlost := h b hb serial ho
      rw [apply_same (c := .remove p.1.applicationId) hid.symm] at hlost
      cases hlost
  · intro halone b hb serial ho
    by_cases hid : b.applicationId = p.1.applicationId
    · have hne : b.container ≠ p.1.container := fun heq => hnodup.1 (heq ▸ List.mem_map_of_mem hb)
      exact nomatch (halone b hb hid hne).symm.trans ho
    · rw [apply_other (c := .remove p.1.applicationId) (Ne.symm hid)]
      exact ht b (happs ▸ hperm.symm.subset (List.mem_cons_of_mem _ hb)) serial ho

/-- **A registration silences the others exactly if one of them has its id and a stream.** -/
theorem tailed_register {s : Tailing} {app : Application} (hw : s.Wrapped) (ht : s.Tailed)
    (happ : app ∈ s.loop.host.apps) : (s.register app).Tailed ↔ Alone s.opened app s.loop.apps := by
  simp only [Tailing.Tailed, Tailing.register, settled_append]
  constructor
  · intro h b hb hid hne
    cases ho : s.opened b.container with
    | none => rfl
    | some serial =>
      have hlost := h b hb serial (by rw [Function.update_of_ne hne, ho])
      rw [apply_same (c := .add app.applicationId ⟨app.container, s.serial⟩) hid.symm] at hlost
      exact absurd (congrArg LogStream.container (Option.some.inj hlost)).symm hne
  · intro halone b hb serial ho
    by_cases hc : b.container = app.container
    · obtain rfl : b = app := List.inj_on_of_nodup_map hw.nodup (apps_subset _ b hb) happ hc
      rw [Function.update_self] at ho
      have hadded := apply_same (c := .add b.applicationId ⟨b.container, s.serial⟩) rfl (settled s.channel s.streams)
      exact hadded.trans (Option.some.inj ho ▸ rfl)
    · rw [Function.update_of_ne hc] at ho
      by_cases hid : b.applicationId = app.applicationId
      · exact nomatch (halone b hb hid hc).symm.trans ho
      · rw [apply_other (c := .add app.applicationId ⟨app.container, s.serial⟩) (Ne.symm hid)]
        exact ht b hb serial ho

theorem Tailing.Tailed.ended {s : Tailing} (ht : s.Tailed) (container : Nat) :
    Tailing.Tailed { s with opened := Function.update s.opened container none } := by
  intro b hb serial ho
  by_cases hc : b.container = container
  · obtain rfl := hc
    have hnone : some serial = none := ho.symm.trans (Function.update_self ..)
    cases hnone
  · have hold : s.opened b.container = some serial := (Function.update_of_ne hc ..).symm.trans ho
    exact ht b hb serial hold

/-- The registry drops only streams that have ended. -/
theorem Tailing.Tailed.exhausted {s : Tailing} (ht : s.Tailed) {id : Int} {stream : LogStream}
    (hstream : s.streams id = some stream) (hended : s.opened stream.container ≠ some stream.serial) :
    Tailing.Tailed { s with streams := Function.update s.streams id none } := by
  intro b hb serial ho
  have hsettled := ht b hb serial ho
  by_cases hid : b.applicationId = id
  · subst hid
    refine (settled_cleared b.applicationId s.channel s.streams).elim (fun heq => heq.trans hsettled) fun heq => ?_
    -- the stream dropped would be that of `b`, which has not ended
    obtain rfl := Option.some.inj (hstream.symm.trans (heq.symm.trans hsettled))
    exact absurd ho hended
  · rw [← hsettled]
    exact settled_congr _ _ _ _ (Function.update_of_ne hid ..)

/-- **A step keeps the streams of all, exactly if whoever sends in it is alone.** -/
theorem tailed_step {s s' : Tailing} {a : TailAction} (hw : s.Wrapped) (ht : s.Tailed) (hs : s.step a = some s') :
    s'.Tailed ↔ s.SentAlone a := by
  cases a with
  | loop frozen a =>
    obtain ⟨l, hl, rfl⟩ := Option.map_eq_some_iff.1 hs
    have heffect := effect_step hl
    cases hp : s.loop.leaves a with
    | some p =>
      rw [tailed_leave hw ht hp (heffect.apps_leave hp), Tailing.SentAlone, hp]
      exact ⟨fun h q hq => Option.some.inj hq ▸ h, fun h => h p rfl⟩
    | none =>
      refine iff_of_true (fun b hb serial ho => ?_) (fun p hq => nomatch hp.symm.trans hq)
      rw [AppLoop.commands, hp, List.append_nil]
      rcases heffect.apps_quiet hp b hb with hold | hnew
      · exact ht b hold serial ho
      · exact absurd (hw.created _ serial ho) (by rw [hnew]; exact Nat.lt_irrefl _)
  | register app =>
    obtain ⟨happ, hs⟩ := Option.ite_none_right_eq_some.1 hs
    obtain rfl := Option.some.inj hs
    exact tailed_register hw ht happ
  | process =>
    simp only [Tailing.step] at hs
    split at hs
    · cases hs
    · rename_i c channel hch
      obtain rfl := Option.some.inj hs
      refine iff_of_true (fun b hb serial ho => ?_) trivial
      have hsettled := ht b hb serial ho
      rw [hch] at hsettled
      exact hsettled
  | ended container => exact Option.some.inj hs ▸ iff_of_true (ht.ended container) trivial
  | exhausted id =>
    simp only [Tailing.step] at hs
    split at hs
    · cases hs
    · rename_i stream hstream
      split at hs
      · cases hs
      · rename_i hended
        exact Option.some.inj hs ▸ iff_of_true (ht.exhausted hstream hended) trivial

/-- **Every application in the vector keeps its stream, exactly if whoever sends a command is alone with its id**: no other
application with that id has a stream that has not ended. -/
theorem removal_silences_none_iff (containers : List Container) (hids : (containers.map Container.id).Nodup)
    (as : List TailAction) (s : Tailing) (hrun : run Tailing.step (.start containers) as = some s) :
    (∀ pre post s₁, as = pre ++ post → run Tailing.step (.start containers) pre = some s₁ → s₁.Tailed) ↔
      Along Tailing.step Tailing.SentAlone (.start containers) as := by
  have hwrapped : (Tailing.start containers).Wrapped := by
    refine ⟨?_, fun _ _ ho => nomatch ho⟩
    rw [show (Tailing.start containers).loop.host.apps = containers.map Application.wrap from rfl, List.map_map]
    exact hids
  exact Runs.reached_iff (I := Tailing.Wrapped) (P := Tailing.Tailed) (fun _ _ _ hw hs => hw.step hs)
    (fun _ _ _ hw ht hs => tailed_step hw ht hs) hwrapped (fun _ _ _ ho => nomatch ho) hrun

/-! ## An image is replaced by one of another repository -/

/-- The container of application 1. -/
def oldContainer : Container := ⟨0, "old".toList, "b.io/old:1".toList, "sha256:1", [], some 1, some 1⟩

/-- Its successor, of the same application or of another one. -/
def successor (applicationId : Int) : Application :=
  ⟨"c.io/new:1".toList, "sha256:2", applicationId, some 2, "new".toList, 1⟩

/-- The successor is created, and registers its stream; then the old container is removed. -/
def replacement (applicationId : Int) : List TailAction :=
  [.register (.wrap oldContainer), .process, .loop false .tick,
    .loop false (.fetched (.ok [⟨2, applicationId, "c.io/new:1".toList, none⟩])),
    .loop false (.pulled fun r => .ok (some ⟨r, "sha256:2"⟩)), .loop false .start, .loop false (.created (.ok ())),
    .register (successor applicationId), .process, .loop false .start,
    .loop false (.removed (.served .init [⟨.ok .running, true, .ok (), .notified (.ok ()) (.ok ())⟩])), .process]

/-- The removal of application 1 leaves the stream of application 2. -/
theorem removal_silences_none_registered : ∃ s, run Tailing.step (.start [oldContainer]) (replacement 2) = some s ∧
    s.loop.apps = [successor 2] ∧ s.opened 1 = some 1 ∧ s.streams 1 = none ∧ s.streams 2 = some ⟨1, 1⟩ ∧ s.Tailed :=
  ⟨_, rfl, by decide, by decide, by decide, by decide,
    (removal_silences_none_iff [oldContainer] (by decide) (replacement 2) _ rfl).2 (by decide) _ [] _
      (List.append_nil _).symm rfl⟩

/-- **The removal of an application silences its successor.** -/
theorem removal_silences_successor : ∃ s, run Tailing.step (.start [oldContainer]) (replacement 1) = some s ∧
    s.channel = [] ∧ s.loop.apps = [successor 1] ∧ s.opened 1 = some 1 ∧ s.streams 1 = none ∧ ¬ s.Tailed := by
  have hrun : (run Tailing.step (.start [oldContainer]) (replacement 1)).map
      (fun s => (s.channel, s.loop.apps, s.opened 1, s.streams 1)) = some ([], [successor 1], some 1, none) := by decide
  obtain ⟨s, hs, heq⟩ := Option.map_eq_some_iff.1 hrun
  obtain ⟨hchannel, heq⟩ := Prod.mk.inj heq
  obtain ⟨happs, heq⟩ := Prod.mk.inj heq
  obtain ⟨hopened, hstream⟩ := Prod.mk.inj heq
  refine ⟨s, hs, hchannel, happs, hopened, hstream, fun htailed => ?_⟩
  have hlost := htailed (successor 1) (happs ▸ List.mem_singleton_self _) 1 hopened
  rw [hchannel] at hlost
  exact nomatch hstream.symm.trans hlost

end Apps
end ZeroDowntime
