import ZeroDowntime.ApiPages
import ZeroDowntime.Arrivals
import ZeroDowntime.LogPane
import ZeroDowntime.Runs
/-!
# LogViewer — the terminal client, its subscription and its stream tasks

A key may change the filter or the device; the client then tears its stream down and opens another.  The tasks of the
streams share a channel, in which messages of a stream torn down may still be, and a task that is stopped may send until
it notices.  Each message carries the epoch of its stream, which is how `on_msg` tells the live subscription.
-/
namespace ZeroDowntime
namespace LogTui

open Api (DeviceModel Overflow)
open Logs (LogLevel)

inductive LogKind
  | device
  | application
  deriving DecidableEq, Repr

structure LogStreamQuery where
  deviceId : Option Int
  applicationId : Option Int
  level : Option LogLevel
  kind : Option LogKind
  deriving DecidableEq, Repr

/-- What a stream asks for, and the epoch its messages carry. -/
structure Subscription where
  query : LogStreamQuery
  epoch : Nat
  deriving DecidableEq, Repr

inductive Phase
  | connecting
  | streaming
  | ended
  deriving DecidableEq, Repr

structure StreamTask where
  subscription : Subscription
  aborted : Bool
  phase : Phase
  deriving DecidableEq, Repr

def StreamTask.abort (task : StreamTask) : StreamTask := { task with aborted := true }

def StreamTask.enter (phase : Phase) (task : StreamTask) : StreamTask := { task with phase := phase }

inductive MsgKind
  | connected
  | log (e : LogEvent)
  | disconnected (error : List Char)
  | parseWarn (error : List Char)
  deriving DecidableEq, Repr

structure Msg where
  epoch : Nat
  kind : MsgKind
  deriving DecidableEq, Repr

inductive ConnState
  | reconnecting
  | live
  | error (e : List Char)
  deriving DecidableEq, Repr

/-- `App` with what the pane does not read.  It has the handle of the stream it spawned last. -/
structure Viewer extends App where
  maxLogs : Nat
  conn : ConnState
  lastWarn : Option (List Char)
  shouldQuit : Bool
  epoch : Nat
  streams : List StreamTask

inductive KeyCode
  | char (c : Char)
  | esc
  | down
  | up
  | left
  | other
  deriving DecidableEq, Repr

/-! ## The logs -/

/-- `while logs.len() > max_logs { logs.pop_front(); }` -/
def popFront (maxLogs : Nat) : List LogEvent → List LogEvent
  | [] => []
  | e :: entries => if maxLogs < (e :: entries).length then popFront maxLogs entries else e :: entries

theorem popFront_eq_rtake (maxLogs : Nat) : ∀ entries : List LogEvent,
    popFront maxLogs entries = entries.rtake maxLogs
  | [] => by rw [popFront, List.rtake, List.drop_nil]
  | e :: entries => by
    rw [popFront, popFront_eq_rtake maxLogs entries, List.rtake, List.rtake]
    split
    · rename_i hlt
      rw [List.length_cons, Nat.succ_sub (Nat.le_of_lt_succ hlt), List.drop_succ_cons]
    · rename_i hle
      rw [Nat.sub_eq_zero_of_le (Nat.le_of_not_lt hle), List.drop_zero]

theorem totalBytes_popFront (maxLogs : Nat) : ∀ entries : List LogEvent,
    totalBytes (popFront maxLogs entries) ≤ totalBytes entries
  | [] => Nat.le_refl 0
  | e :: entries => by
    rw [popFront]
    split
    · exact (totalBytes_popFront maxLogs entries).trans (Nat.le_add_left _ _)
    · exact Nat.le_refl _

def LogDeque.empty : LogDeque := ⟨[], by decide⟩

/-- `none` where there is no memory for the entry. -/
def LogDeque.push (maxLogs : Nat) (logs : LogDeque) (e : LogEvent) : Option LogDeque :=
  if h : totalBytes (logs.entries ++ [e]) < 18446744073709551616 then
    some ⟨popFront maxLogs (logs.entries ++ [e]), Nat.lt_of_le_of_lt (totalBytes_popFront _ _) h⟩
  else none

theorem LogDeque.entries_of_push {maxLogs : Nat} {logs logs' : LogDeque} {e : LogEvent}
    (h : logs.push maxLogs e = some logs') : logs'.entries = (logs.entries ++ [e]).rtake maxLogs := by
  unfold push at h
  split at h
  · obtain rfl := Option.some.inj h
    exact popFront_eq_rtake maxLogs _
  · cases h

/-! ## The client -/

/-- `n + 1` of 64 bits, `none` where it panics. -/
def increment (o : Overflow) (n : Nat) : Option Nat :=
  if n < usizeMax then some (n + 1) else if o = .panics then none else some 0

def App.selectedDeviceId (app : App) : Option Int :=
  if app.selected = 0 then none else (app.devices[app.selected - 1]?).map DeviceModel.id

def App.currentQuery (app : App) : LogStreamQuery := ⟨app.selectedDeviceId, none, app.minLevel, none⟩

/-- The entries of the sidebar; that of index `selected` is highlighted. -/
def App.sidebar (app : App) : List (Option DeviceModel) := none :: app.devices.map some

namespace Viewer

def new (minLevel : Option LogLevel) (maxLogs : Nat) : Viewer where
  devices := []
  selected := 0
  minLevel := minLevel
  logs := .empty
  scroll := 0
  viewport := 0
  maxLogs := max maxLogs 1
  conn := .reconnecting
  lastWarn := none
  shouldQuit := false
  epoch := 0
  streams := []

/-- The handle is of the last stream, if there is one. -/
def stopStream (v : Viewer) : List StreamTask := v.streams.modify (v.streams.length - 1) StreamTask.abort

def reconnect (o : Overflow) (v : Viewer) : Option Viewer :=
  (increment o v.epoch).map (fun epoch =>
    { v with
      epoch := epoch
      conn := .reconnecting
      scroll := 0
      streams := v.stopStream ++ [⟨⟨v.currentQuery, epoch⟩, false, .connecting⟩] })

def pushLog (o : Overflow) (v : Viewer) (e : LogEvent) : Option Viewer :=
  (v.logs.push v.maxLogs e).bind (fun logs =>
    if 0 < v.scroll then (increment o v.scroll).map (fun scroll => { v with logs := logs, scroll := scroll })
    else some { v with logs := logs })

def onMsg (o : Overflow) (v : Viewer) (msg : Msg) : Option Viewer :=
  if msg.epoch ≠ v.epoch then some v
  else
    match msg.kind with
    | .connected => some { v with conn := .live }
    | .log e => ({ v with conn := .live }).pushLog o e
    | .disconnected e => some { v with conn := .error e }
    | .parseWarn e => some { v with lastWarn := some e }

def scrollStep (v : Viewer) : Nat := max (v.viewport / 2) 1

def setLevel (o : Overflow) (v : Viewer) (level : Option LogLevel) : Option Viewer :=
  if v.minLevel ≠ level then ({ v with minLevel := level }).reconnect o else some v

def selectNext (o : Overflow) (v : Viewer) : Option Viewer :=
  if v.selected < v.devices.length then ({ v with selected := v.selected + 1 }).reconnect o else some v

def selectPrev (o : Overflow) (v : Viewer) : Option Viewer :=
  if 0 < v.selected then ({ v with selected := v.selected - 1 }).reconnect o else some v

def selectAll (o : Overflow) (v : Viewer) : Option Viewer :=
  if v.selected ≠ 0 then ({ v with selected := 0 }).reconnect o else some v

/-- `control` is whether the modifiers contain it. -/
def onKey (o : Overflow) (v : Viewer) (code : KeyCode) (control : Bool) : Option Viewer :=
  if control && code = .char 'c' then some { v with shouldQuit := true }
  else
    match code with
    | .char 'q' => some { v with shouldQuit := true }
    | .esc => some { v with shouldQuit := true }
    | .char '0' => v.setLevel o none
    | .char '1' => v.setLevel o (some .info)
    | .char '2' => v.setLevel o (some .warn)
    | .char '3' => v.setLevel o (some .error)
    | .char 'c' => some { v with logs := .empty, scroll := 0 }
    | .char 'u' => some { v with scroll := saturatingAdd v.scroll v.scrollStep }
    | .char 'd' => some { v with scroll := v.scroll - v.scrollStep }
    | .char 'j' => v.selectNext o
    | .down => v.selectNext o
    | .char 'k' => v.selectPrev o
    | .up => v.selectPrev o
    | .char 'a' => v.selectAll o
    | .left => v.selectAll o
    | _ => some v

end Viewer

/-! ## The client and its tasks -/

/-- What a stream's connection gives next. -/
inductive StreamItem
  | event (data : List Char)
  | error (e : List Char)
  | stop
  deriving DecidableEq, Repr

/-- A message on the channel is kept with the place of its task among those spawned. -/
structure Session where
  viewer : Viewer
  channel : List (Nat × Msg)

inductive SessionAction
  | draw (area : Rect)
  | key (code : KeyCode) (control : Bool)
  | recv
  /-- The server answers a stream's request; a stream gives something; a stopped task notices. -/
  | respond (stream : Nat) (error : Option (List Char))
  | item (stream : Nat) (item : StreamItem)
  | cancel (stream : Nat)
  deriving DecidableEq, Repr

namespace Session

/-- What `run` does before its loop. -/
def start (o : Overflow) (minLevel : Option LogLevel) (maxLogs : Nat) (devices : List DeviceModel) (selected : Nat) :
    Option Session :=
  (({ Viewer.new minLevel maxLogs with devices := devices, selected := selected }).reconnect o).map (fun v => ⟨v, []⟩)

def enter (s : Session) (stream : Nat) (phase : Phase) : Session :=
  { s with viewer := { s.viewer with streams := s.viewer.streams.modify stream (StreamTask.enter phase) } }

/-- `tx.send(..)`, which waits while the channel is full. -/
def send (s : Session) (stream : Nat) (task : StreamTask) (kind : MsgKind) : Option Session :=
  if s.channel.length < 1024 then some { s with channel := s.channel ++ [(stream, ⟨task.subscription.epoch, kind⟩)] }
  else none

/-- The task, if it is in this phase. -/
def taskIn (s : Session) (stream : Nat) (phase : Phase) : Option StreamTask :=
  (s.viewer.streams[stream]?).filter (fun task => task.phase = phase)

/-- `clock` writes a time of day, `parse` reads an event. -/
def step (o : Overflow) (clock : Int → List Char) (parse : List Char → Except (List Char) LogEvent) (s : Session) :
    SessionAction → Option Session
  | .draw area =>
    if s.viewer.shouldQuit then none
    else (drawLogs clock s.viewer.toApp area).map (fun drawn => { s with viewer := { s.viewer with toApp := drawn.1 } })
  | .key code control =>
    if s.viewer.shouldQuit then none else (s.viewer.onKey o code control).map (fun v => { s with viewer := v })
  | .recv =>
    if s.viewer.shouldQuit then none
    else
      match s.channel with
      | [] => none
      | (_, msg) :: channel => (s.viewer.onMsg o msg).map (fun v => ⟨v, channel⟩)
  | .respond stream error =>
    (s.taskIn stream .connecting).bind (fun task =>
      match error with
      | none => (s.enter stream .streaming).send stream task .connected
      | some e => (s.enter stream .ended).send stream task (.disconnected e))
  | .item stream item =>
    (s.taskIn stream .streaming).bind (fun task =>
      match item with
      | .event data =>
        if data.isEmpty then some s
        else
          match parse data with
          | .ok e => s.send stream task (.log e)
          | .error e => s.send stream task (.parseWarn e)
      | .error e => (s.enter stream .ended).send stream task (.disconnected e)
      | .stop => some (s.enter stream .ended))
  | .cancel stream =>
    (s.viewer.streams[stream]?).bind (fun task => if task.aborted then some (s.enter stream .ended) else none)

end Session

/-! ## What a step can do -/

def clears (code : KeyCode) (control : Bool) : Bool := !control && code = .char 'c'

/-- What a stream asks for, and its epoch, stay as they are. -/
def Viewer.subscriptions (v : Viewer) : List Subscription := v.streams.map StreamTask.subscription

namespace Viewer

variable {o : Overflow} {v v' : Viewer}

/-- **A reconnect opens one more subscription**, of what is selected and with the next epoch. -/
theorem subscriptions_of_reconnect (h : v.reconnect o = some v') : ∃ epoch, increment o v.epoch = some epoch ∧
    v'.subscriptions = v.subscriptions ++ [⟨v.currentQuery, epoch⟩] ∧
    v' = { v with epoch := epoch, conn := .reconnecting, scroll := 0, streams := v'.streams } := by
  obtain ⟨epoch, hepoch, rfl⟩ := Option.map_eq_some_iff.1 h
  have hstopped : v.stopStream.map StreamTask.subscription = v.subscriptions :=
    Arrivals.map_modify (f := StreamTask.abort) (fun _ => rfl) _ _
  refine ⟨epoch, hepoch, ?_, rfl⟩
  rw [← hstopped, subscriptions, List.map_append]
  rfl

/-- What a key does: it clears the logs, moves the pane or quits, or it changes the filter and reconnects. -/
inductive KeyEffect (o : Overflow) (v : Viewer) (clearing : Bool) : Viewer → Prop
  | cleared (hc : clearing = true) : KeyEffect o v clearing { v with logs := .empty, scroll := 0 }
  | moved (hc : clearing = false) (scroll : Nat) (quit : Bool) :
    KeyEffect o v clearing { v with scroll := scroll, shouldQuit := quit }
  | filtered (hc : clearing = false) (selected : Nat) (minLevel : Option LogLevel)
    (hs : v.selected ≤ v.devices.length → selected ≤ v.devices.length) (v' : Viewer)
    (hv : ({ v with selected := selected, minLevel := minLevel }).reconnect o = some v') : KeyEffect o v clearing v'

namespace KeyEffect

variable {clearing : Bool}

theorem same (hc : clearing = false) (h : some v = some v') : KeyEffect o v clearing v' :=
  Option.some.inj h ▸ .moved hc v.scroll v.shouldQuit

theorem setLevel {level : Option LogLevel} (hc : clearing = false) (h : v.setLevel o level = some v') :
    KeyEffect o v clearing v' := by
  unfold Viewer.setLevel at h
  split at h
  · exact .filtered hc v.selected level id v' h
  · exact same hc h

theorem selectNext (hc : clearing = false) (h : v.selectNext o = some v') : KeyEffect o v clearing v' := by
  unfold Viewer.selectNext at h
  split at h
  · rename_i hlt
    exact .filtered hc (v.selected + 1) v.minLevel (fun _ => hlt) v' h
  · exact same hc h

theorem selectPrev (hc : clearing = false) (h : v.selectPrev o = some v') : KeyEffect o v clearing v' := by
  unfold Viewer.selectPrev at h
  split at h
  · exact .filtered hc (v.selected - 1) v.minLevel (fun hle => (Nat.sub_le _ _).trans hle) v' h
  · exact same hc h

theorem selectAll (hc : clearing = false) (h : v.selectAll o = some v') : KeyEffect o v clearing v' := by
  unfold Viewer.selectAll at h
  split at h
  · exact .filtered hc 0 v.minLevel (fun _ => Nat.zero_le _) v' h
  · exact same hc h

end KeyEffect

theorem keyEffect_of_onKey {code : KeyCode} {control : Bool} (h : v.onKey o code control = some v') :
    KeyEffect o v (clears code control) v' := by
  have hother : ∀ code, code ≠ .char 'c' → clears code control = false := by
    intro code hcode
    rw [clears, decide_eq_false hcode, Bool.and_false]
  unfold onKey at h
  split at h
  · -- Ctrl-C quits
    rename_i hquit
    obtain ⟨rfl, -⟩ := Bool.and_eq_true_iff.1 hquit
    exact Option.some.inj h ▸ .moved rfl v.scroll true
  rename_i hplain
  split at h
  · exact Option.some.inj h ▸ .moved (hother _ (by decide)) v.scroll true
  · exact Option.some.inj h ▸ .moved (hother _ (by decide)) v.scroll true
  · exact .setLevel (hother _ (by decide)) h
  · exact .setLevel (hother _ (by decide)) h
  · exact .setLevel (hother _ (by decide)) h
  · exact .setLevel (hother _ (by decide)) h
  · have hclears : clears (.char 'c') control = true := by
      cases control with
      | false => rfl
      | true => exact absurd rfl hplain
    exact Option.some.inj h ▸ .cleared hclears
  · exact Option.some.inj h ▸ .moved (hother _ (by decide)) _ v.shouldQuit
  · exact Option.some.inj h ▸ .moved (hother _ (by decide)) _ v.shouldQuit
  · exact .selectNext (hother _ (by decide)) h
  · exact .selectNext (hother _ (by decide)) h
  · exact .selectPrev (hother _ (by decide)) h
  · exact .selectPrev (hother _ (by decide)) h
  · exact .selectAll (hother _ (by decide)) h
  · exact .selectAll (hother _ (by decide)) h
  · rename_i hc _ _ _ _ _ _ _ _
    exact .same (hother _ hc) h

theorem onMsg_cases {msg : Msg} (h : v.onMsg o msg = some v') :
    (msg.epoch ≠ v.epoch ∧ v' = v) ∨
      (msg.epoch = v.epoch ∧ (∀ e, msg.kind ≠ .log e) ∧
        ∃ conn lastWarn, v' = { v with conn := conn, lastWarn := lastWarn }) ∨
      (msg.epoch = v.epoch ∧ ∃ e logs scroll, msg.kind = .log e ∧ v.logs.push v.maxLogs e = some logs ∧
        v' = { v with conn := .live, logs := logs, scroll := scroll }) := by
  unfold onMsg at h
  split at h
  · rename_i hne
    exact .inl ⟨hne, (Option.some.inj h).symm⟩
  rename_i heq
  have heq : msg.epoch = v.epoch := Classical.byContradiction heq
  refine .inr ?_
  split at h
  · rename_i hkind
    exact .inl ⟨heq, fun e he => (by rw [hkind] at he; cases he), _, _, (Option.some.inj h).symm⟩
  · rename_i e hkind
    obtain ⟨logs, hpush, h⟩ := Option.bind_eq_some_iff.1 h
    refine .inr ⟨heq, e, logs, ?_⟩
    split at h
    · obtain ⟨scroll, -, rfl⟩ := Option.map_eq_some_iff.1 h
      exact ⟨scroll, hkind, hpush, rfl⟩
    · exact ⟨v.scroll, hkind, hpush, (Option.some.inj h).symm⟩
  · rename_i e hkind
    exact .inl ⟨heq, fun e he => (by rw [hkind] at he; cases he), _, _, (Option.some.inj h).symm⟩
  · rename_i e hkind
    exact .inl ⟨heq, fun e he => (by rw [hkind] at he; cases he), _, _, (Option.some.inj h).symm⟩

end Viewer

namespace Session

/-- What arrives at the logs: they are all the live subscription has shown since they were cleared. -/
def arrived (s : Session) (a : SessionAction) (entries : List LogEvent) : List LogEvent :=
  match a with
  | .key code control => if clears code control then [] else entries
  | .recv =>
    match s.channel with
    | (_, ⟨epoch, .log e⟩) :: _ => if epoch = s.viewer.epoch then entries ++ [e] else entries
    | _ => entries
  | _ => entries

/-- A step of one of the tasks. -/
def ofTask : SessionAction → Bool
  | .respond _ _ => true
  | .item _ _ => true
  | .cancel _ => true
  | _ => false

variable {o : Overflow} {clock : Int → List Char} {parse : List Char → Except (List Char) LogEvent} {s s' : Session}
  {a : SessionAction}

theorem arrived_of_task (ha : ofTask a = true) (entries : List LogEvent) : s.arrived a entries = entries := by
  cases a with
  | draw | respond | item | cancel => rfl
  | key | recv => cases ha

/-- Nothing but keys and messages changes what is shown, and what a task sends carries its own epoch. -/
inductive Stepped (o : Overflow) (s : Session) : SessionAction → Session → Prop
  | drawn (area : Rect) (scroll viewport : Nat) :
    Stepped o s (.draw area) { s with viewer := { s.viewer with scroll := scroll, viewport := viewport } }
  | key (code : KeyCode) (control : Bool) (v : Viewer) (hv : s.viewer.KeyEffect o (clears code control) v) :
    Stepped o s (.key code control) { s with viewer := v }
  | received (stream : Nat) (msg : Msg) (channel : List (Nat × Msg)) (v : Viewer)
    (hc : s.channel = (stream, msg) :: channel) (hv : s.viewer.onMsg o msg = some v) : Stepped o s .recv ⟨v, channel⟩
  | streamed (a : SessionAction) (ha : ofTask a = true) (streams : List StreamTask)
    (hstreams : streams.map StreamTask.subscription = s.viewer.subscriptions) (sent : List (Nat × Msg))
    (hsent : ∀ m ∈ sent, ∃ sub, s.viewer.subscriptions[m.1]? = some sub ∧ m.2.epoch = sub.epoch) :
    Stepped o s a ⟨{ s.viewer with streams := streams }, s.channel ++ sent⟩

theorem toApp_of_drawLogs {app : App} {area : Rect} {drawn : App × Pane} (h : drawLogs clock app area = some drawn) :
    ∃ scroll viewport, drawn.1 = { app with scroll := scroll, viewport := viewport } := by
  obtain ⟨stop, -, h⟩ := Option.bind_eq_some_iff.1 h
  obtain ⟨visible, -, rfl⟩ := Option.map_eq_some_iff.1 h
  exact ⟨_, _, rfl⟩

theorem subscriptions_enter (i : Nat) (phase : Phase) :
    (s.enter i phase).viewer.streams.map StreamTask.subscription = s.viewer.subscriptions :=
  Arrivals.map_modify (f := StreamTask.enter phase) (fun _ => rfl) _ _

/-- A task goes on without a message. -/
theorem Stepped.entered (ha : ofTask a = true) (i : Nat) (phase : Phase) :
    Stepped o s a (s.enter i phase) := by
  have h := Stepped.streamed (o := o) (s := s) a ha _ (subscriptions_enter i phase) [] nofun
  rw [List.append_nil] at h
  exact h

/-- A task sends a message, whatever it does then. -/
theorem Stepped.sent (ha : ofTask a = true) {i : Nat} {task : StreamTask} {phase : Phase}
    (htask : s.taskIn i phase = some task) {s₁ : Session}
    (hs₁ : s₁ = s ∨ ∃ phase, s₁ = s.enter i phase) {kind : MsgKind} (h : s₁.send i task kind = some s') :
    Stepped o s a s' := by
  have hsub : s.viewer.subscriptions[i]? = some task.subscription := by
    rw [Viewer.subscriptions, List.getElem?_map, (Option.filter_eq_some_iff.1 htask).1, Option.map_some]
  have hsent : ∀ m ∈ [(i, (⟨task.subscription.epoch, kind⟩ : Msg))],
      ∃ sub, s.viewer.subscriptions[m.1]? = some sub ∧ m.2.epoch = sub.epoch := by
    intro m hm
    rw [List.mem_singleton.1 hm]
    exact ⟨_, hsub, rfl⟩
  unfold send at h
  split at h
  · rw [← Option.some.inj h]
    rcases hs₁ with rfl | ⟨phase, rfl⟩
    · exact .streamed a ha s₁.viewer.streams rfl _ hsent
    · exact .streamed a ha _ (subscriptions_enter i phase) _ hsent
  · cases h

theorem stepped_of_step (h : s.step o clock parse a = some s') : Stepped o s a s' := by
  cases a with
  | draw area =>
    simp only [step] at h
    split at h
    · cases h
    · obtain ⟨drawn, hdrawn, rfl⟩ := Option.map_eq_some_iff.1 h
      obtain ⟨scroll, viewport, happ⟩ := toApp_of_drawLogs hdrawn
      rw [happ]
      exact .drawn area scroll viewport
  | key code control =>
    simp only [step] at h
    split at h
    · cases h
    · obtain ⟨v, hv, rfl⟩ := Option.map_eq_some_iff.1 h
      exact .key code control v (Viewer.keyEffect_of_onKey hv)
  | recv =>
    simp only [step] at h
    split at h
    · cases h
    split at h
    · cases h
    · rename_i stream msg channel hc
      obtain ⟨v, hv, rfl⟩ := Option.map_eq_some_iff.1 h
      exact .received stream msg channel v hc hv
  | respond stream error =>
    obtain ⟨task, htask, h⟩ := Option.bind_eq_some_iff.1 h
    cases error with
    | none => exact .sent rfl htask (.inr ⟨_, rfl⟩) h
    | some e => exact .sent rfl htask (.inr ⟨_, rfl⟩) h
  | item stream item =>
    obtain ⟨task, htask, h⟩ := Option.bind_eq_some_iff.1 h
    cases item with
    | event data =>
      dsimp only at h
      split at h
      · have hnothing := Stepped.streamed (o := o) (.item stream (.event data)) rfl s.viewer.streams rfl [] nofun
        rw [List.append_nil] at hnothing
        exact Option.some.inj h ▸ hnothing
      split at h
      · exact .sent rfl htask (.inl rfl) h
      · exact .sent rfl htask (.inl rfl) h
    | error e => exact .sent rfl htask (.inr ⟨_, rfl⟩) h
    | stop => exact Option.some.inj h ▸ .entered rfl stream .ended
  | cancel stream =>
    obtain ⟨task, htask, h⟩ := Option.bind_eq_some_iff.1 h
    split at h
    · exact Option.some.inj h ▸ .entered rfl stream .ended
    · cases h

end Session
end LogTui
end ZeroDowntime
