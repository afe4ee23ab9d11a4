import Mathlib.Data.List.InsertIdx
import ZeroDowntime.ApiLogPages
import ZeroDowntime.Broadcast
import ZeroDowntime.Runs
/-!
# ApiLogStream — POST /device/logs, and the streams of GET /logs/stream

A handler commits its rows with one INSERT and then publishes them, one after the other, on a channel of 1024 values.  A
stream forwards what it receives and its parameters match; that it has been overtaken goes unnoticed.  Handlers and streams
take their steps in any order.  A request may be dropped while its INSERT is being answered: its rows stay unpublished.
-/
namespace ZeroDowntime
namespace Api

open Broadcast (Channel Read)
open Logs (LogLevel PostBodyItem)
open Runs (run Along)

inductive LogKind
  | device
  | application
  deriving DecidableEq, Repr

inductive LogEvent
  | device (model : DeviceLogModel)
  | application (model : ApplicationLogModel)
  deriving DecidableEq, Repr

namespace LogEvent

def kind : LogEvent → LogKind
  | .device _ => .device
  | .application _ => .application

def deviceId : LogEvent → Int
  | .device model => model.deviceId
  | .application model => model.deviceId

def applicationId : LogEvent → Option Int
  | .device _ => none
  | .application model => some model.applicationId

def level : LogEvent → LogLevel
  | .device model => model.level
  | .application model => model.level

def time : LogEvent → Int
  | .device model => model.time
  | .application model => model.time

end LogEvent

structure LogStreamQuery where
  deviceId : Option Int
  applicationId : Option Int
  level : Option LogLevel
  kind : Option LogKind
  deriving DecidableEq, Repr

/-- `matches` -/
def LogStreamQuery.selects (q : LogStreamQuery) (event : LogEvent) : Bool :=
  q.kind.all (fun kind => decide (event.kind = kind)) &&
    q.deviceId.all (fun deviceId => decide (event.deviceId = deviceId)) &&
    q.applicationId.all (fun applicationId => decide (event.applicationId = some applicationId)) &&
    q.level.all (fun minLevel => decide (severity minLevel ≤ severity event.level))

/-! ## The tables -/

/-- What the server adds to an entry: a fresh id, and the time if the device gave none. -/
structure Draw where
  id : Nat
  now : Int
  deriving DecidableEq, Repr

def insertDeviceLogEntries (deviceId : Int) (entries : List (PostBodyItem × Draw)) : List DeviceLogModel :=
  entries.map (fun e => ⟨e.1.time.getD e.2.now, e.2.id, deviceId, e.1.level, e.1.message, e.1.source⟩)

def insertApplicationLogEntries (deviceId applicationId : Int) (entries : List (PostBodyItem × Draw)) :
    List ApplicationLogModel :=
  entries.map (fun e => ⟨e.1.time.getD e.2.now, e.2.id, deviceId, applicationId, e.1.level, e.1.message, e.1.source⟩)

/-- The rows of a request, as they are published. -/
def postedEvents (deviceId : Int) (applicationId : Option Int) (body : List (PostBodyItem × Draw)) : List LogEvent :=
  match applicationId with
  | some appId => (insertApplicationLogEntries deviceId appId body).map .application
  | none => (insertDeviceLogEntries deviceId body).map .device

def DeviceLogModel.key (m : DeviceLogModel) : Int × Nat := (m.time, m.id)

def ApplicationLogModel.key (m : ApplicationLogModel) : Int × Nat := (m.time, m.id)

/-- An INSERT of many rows fails as a whole. -/
def insertMany {α κ : Type} [DecidableEq κ] {key : α → κ} (t : Keyed α κ key) (rows : List α) : Option (Keyed α κ key) :=
  if h : ((t.rows ++ rows).map key).Nodup then some ⟨t.rows ++ rows, h⟩ else none

theorem insertMany_rows {α κ : Type} [DecidableEq κ] {key : α → κ} {t t' : Keyed α κ key} {rows : List α}
    (h : insertMany t rows = some t') : t'.rows = t.rows ++ rows := by
  unfold insertMany at h
  split at h
  · exact Option.some.inj h ▸ rfl
  · cases h

theorem mem_insertMany {α κ : Type} [DecidableEq κ] {key : α → κ} {t t' : Keyed α κ key} {rows : List α} {a : α}
    (h : insertMany t rows = some t') : a ∈ t'.rows ↔ a ∈ t.rows ∨ a ∈ rows := by
  rw [insertMany_rows h, List.mem_append]

def Keyed.retain {α κ : Type} {key : α → κ} (t : Keyed α κ key) (p : α → Bool) : Keyed α κ key :=
  ⟨t.rows.filter p, t.keys.sublist (List.filter_sublist.map key)⟩

/-- The two tables.  `horizon` is the end of the last chunk that the retention policy has dropped. -/
structure TsDb where
  deviceLogs : Keyed DeviceLogModel (Int × Nat) DeviceLogModel.key
  applicationLogs : Keyed ApplicationLogModel (Int × Nat) ApplicationLogModel.key
  horizon : Option Int

namespace TsDb

def init : TsDb := ⟨⟨[], List.nodup_nil⟩, ⟨[], List.nodup_nil⟩, none⟩

variable (column : Int → Int)

/-- The row of an event.  `column` is what a time is in its column, whose precision is coarser. -/
def deviceRow (m : DeviceLogModel) : DeviceLogModel := { m with time := column m.time }

def applicationRow (m : ApplicationLogModel) : ApplicationLogModel := { m with time := column m.time }

def insert (db : TsDb) (deviceId : Int) (applicationId : Option Int) (body : List (PostBodyItem × Draw)) :
    Option TsDb :=
  match applicationId with
  | some appId =>
    (insertMany db.applicationLogs ((insertApplicationLogEntries deviceId appId body).map (applicationRow column))).map
      (fun t => { db with applicationLogs := t })
  | none =>
    (insertMany db.deviceLogs ((insertDeviceLogEntries deviceId body).map (deviceRow column))).map
      (fun t => { db with deviceLogs := t })

/-- The job of the retention policy drops whole chunks: all rows before the end of one. -/
def retention (db : TsDb) (chunkEnd : Int) : TsDb where
  deviceLogs := db.deviceLogs.retain (fun m => decide (chunkEnd ≤ m.time))
  applicationLogs := db.applicationLogs.retain (fun m => decide (chunkEnd ≤ m.time))
  horizon := some (db.horizon.elim chunkEnd (max chunkEnd))

/-- The row of the event is there. -/
def Stores (db : TsDb) : LogEvent → Prop
  | .device m => deviceRow column m ∈ db.deviceLogs.rows
  | .application m => applicationRow column m ∈ db.applicationLogs.rows

/-- The row of the event is there unless the retention policy dropped it. -/
def Keeps (db : TsDb) (e : LogEvent) : Prop :=
  db.horizon.all (fun t => decide (t ≤ column e.time)) = true → db.Stores column e

end TsDb

/-! ## The handlers and the streams -/

/-- What comes of an INSERT: it is committed and answered, it is committed and the handler never learns of it, or it
fails. -/
inductive InsertOutcome
  | answered
  | unanswered
  | failed
  deriving DecidableEq, Repr

/-- A client of GET /logs/stream, with the number of values that had been sent when it came, and what it got. -/
structure LogStream (C : Channel LogEvent 1024) where
  params : LogStreamQuery
  rx : C.Receiver
  since : Nat
  yielded : List LogEvent

/-- What a stream does with an item: an error is no item, and an event goes on if it matches. -/
def LogStream.onItem {C : Channel LogEvent 1024} (st : LogStream C)
    (x : Broadcast.Received LogEvent × C.Receiver × C.Shared) : LogStream C :=
  { st with
    rx := x.2.1
    yielded := st.yielded ++ (x.1.value?.filter st.params.selects).toList }

/-- `publishing` has what each handler whose INSERT was answered is still to publish; `sent` is all that was sent while
there was a receiver. -/
structure LogServer (C : Channel LogEvent 1024) where
  db : TsDb
  tx : C.Shared
  publishing : List (List LogEvent)
  streams : List (LogStream C)
  sent : List LogEvent

inductive LogAction
  | post (deviceId : Int) (applicationId : Option Int) (body : List (PostBodyItem × Draw)) (outcome : InsertOutcome)
  | publish (handler : Nat)
  | streamLogs (params : LogStreamQuery)
  | poll (stream : Nat)
  | close (stream : Nat)
  | retention (chunkEnd : Int)

namespace LogServer

variable {C : Channel LogEvent 1024} (column : Int → Int)

def init : LogServer C := ⟨.init, C.new, [], [], []⟩

/-- A failed INSERT is answered with INTERNAL_SERVER_ERROR, whatever it failed for. -/
def post (s : LogServer C) (deviceId : Int) (applicationId : Option Int) (body : List (PostBodyItem × Draw)) :
    InsertOutcome → LogServer C
  | .failed => s
  | .answered =>
    match s.db.insert column deviceId applicationId body with
    | none => s
    | some db => { s with db, publishing := s.publishing ++ [postedEvents deviceId applicationId body] }
  | .unanswered =>
    match s.db.insert column deviceId applicationId body with
    | none => s
    | some db => { s with db }

/-- `publish`: without a receiver, `send` is an error, which is ignored. -/
def publish (s : LogServer C) (event : LogEvent) : LogServer C :=
  { s with
    tx := C.send s.tx event
    sent := if s.streams.isEmpty then s.sent else s.sent ++ [event] }

def step (s : LogServer C) : LogAction → Option (LogServer C)
  | .post deviceId applicationId body outcome => some (s.post column deviceId applicationId body outcome)
  | .publish handler =>
    match s.publishing[handler]? with
    | none => none
    | some [] => some { s with publishing := s.publishing.eraseIdx handler }
    | some (event :: rest) => some { s.publish event with publishing := s.publishing.set handler rest }
  | .streamLogs params =>
    some { s with
      tx := (C.subscribe s.tx).2
      streams := s.streams ++ [⟨params, (C.subscribe s.tx).1, s.sent.length, []⟩] }
  | .poll stream =>
    (s.streams[stream]?).map (fun st =>
      { s with
        tx := (C.tryRecv s.tx st.rx).2.2
        streams := s.streams.set stream (st.onItem (C.tryRecv s.tx st.rx)) })
  | .close stream =>
    (s.streams[stream]?).map (fun st =>
      { s with
        tx := C.drop s.tx st.rx
        streams := s.streams.eraseIdx stream })
  | .retention chunkEnd => some { s with db := s.db.retention chunkEnd }

/-! ## What a stream yields -/

/-- The receivers of the channel are those of the streams, and a stream has yielded what it read and its parameters match;
it has missed nothing but values that were overwritten. -/
structure Streaming (s : LogServer C) : Prop where
  holds : C.Holds s.tx s.sent (s.streams.map LogStream.rx)
  read : ∀ st ∈ s.streams, ∃ reads, Read 1024 s.sent st.since (C.next st.rx) reads ∧
    st.yielded = (reads.filterMap (fun p => s.sent[p]?)).filter st.params.selects

theorem Streaming.init : Streaming (LogServer.init : LogServer C) where
  holds := C.holds_new
  read := fun _ hst => absurd hst List.not_mem_nil

/-- What has been read stays what it was when more is sent. -/
theorem filterMap_append {sent : List LogEvent} {since next : Nat} {reads : List Nat} (h : Read 1024 sent since next reads)
    (more : List LogEvent) : reads.filterMap (fun p => (sent ++ more)[p]?) = reads.filterMap (fun p => sent[p]?) :=
  List.filterMap_congr (fun p hp => List.getElem?_append_left (Nat.lt_of_lt_of_le (h.within p hp).2 h.next_le))

variable {s s' : LogServer C}

theorem Streaming.publish (h : Streaming s) (event : LogEvent) : Streaming (s.publish event) where
  holds := by
    have hsend := C.holds_send event h.holds
    rw [List.isEmpty_map] at hsend
    exact hsend
  read := fun st hst => by
    obtain ⟨reads, hread, hy⟩ := h.read st hst
    have hsent : ∃ more, (s.publish event).sent = s.sent ++ more := by
      unfold LogServer.publish
      dsimp only
      split
      · exact ⟨[], (List.append_nil _).symm⟩
      · exact ⟨[event], rfl⟩
    obtain ⟨more, hmore⟩ := hsent
    rw [hmore]
    exact ⟨reads, hread.send more, by rw [filterMap_append hread]; exact hy⟩

theorem Streaming.streamLogs (h : Streaming s) (params : LogStreamQuery) :
    Streaming { s with
      tx := (C.subscribe s.tx).2
      streams := s.streams ++ [⟨params, (C.subscribe s.tx).1, s.sent.length, []⟩] } where
  holds := by
    rw [List.map_append]
    exact C.holds_subscribe h.holds
  read := fun st hst => by
    rcases List.mem_append.1 hst with hst | hst
    · exact h.read st hst
    · obtain rfl := List.mem_singleton.1 hst
      refine ⟨[], ?_, rfl⟩
      dsimp only
      rw [C.next_subscribe h.holds]
      exact Read.start 1024 s.sent

theorem Streaming.poll (h : Streaming s) {stream : Nat} {st : LogStream C} (hst : s.streams[stream]? = some st) :
    Streaming { s with
      tx := (C.tryRecv s.tx st.rx).2.2
      streams := s.streams.set stream (st.onItem (C.tryRecv s.tx st.rx)) } := by
  have hrx : (s.streams.map LogStream.rx)[stream]? = some st.rx := by
    rw [List.getElem?_map, hst]
    rfl
  refine ⟨?_, fun st' hst' => ?_⟩
  · rw [List.map_set]
    exact C.holds_tryRecv h.holds hrx
  · rcases List.mem_or_eq_of_mem_set hst' with hst' | rfl
    · exact h.read st' hst'
    · obtain ⟨reads, hread, hy⟩ := h.read st (List.mem_of_getElem? hst)
      have hrecv := C.tryRecv_eq h.holds hrx
      have hx : (C.tryRecv s.tx st.rx).1 = (Broadcast.receive 1024 s.sent (C.next st.rx)).1 := congrArg Prod.fst hrecv
      have hnext : C.next (C.tryRecv s.tx st.rx).2.1 = (Broadcast.receive 1024 s.sent (C.next st.rx)).2 :=
        congrArg Prod.snd hrecv
      refine ⟨reads ++ ((C.tryRecv s.tx st.rx).1.position? (C.next st.rx)).toList, ?_, ?_⟩
      · dsimp only [LogStream.onItem]
        rw [hnext, hx]
        exact hread.receive
      · -- the value it gets is the one at the position it reads
        dsimp only [LogStream.onItem]
        rw [hy, List.filterMap_append, List.filter_append, hx, Option.toList_filter, Broadcast.value?_receive]

theorem Streaming.close (h : Streaming s) {stream : Nat} {st : LogStream C} (hst : s.streams[stream]? = some st) :
    Streaming { s with
      tx := C.drop s.tx st.rx
      streams := s.streams.eraseIdx stream } where
  holds := by
    rw [← List.eraseIdx_map]
    refine C.holds_drop h.holds ?_
    rw [List.getElem?_map, hst]
    rfl
  read := fun st' hst' => h.read st' (List.mem_of_mem_eraseIdx hst')

theorem Streaming.congr (h : Streaming s) (db : TsDb) (publishing : List (List LogEvent)) :
    Streaming { s with db, publishing } := ⟨h.holds, h.read⟩

/-- What a request does: nothing, if its INSERT fails; else its rows are in the tables, and a handler that learns of it
has them to publish. -/
theorem post_cases (s : LogServer C) (deviceId : Int) (applicationId : Option Int) (body : List (PostBodyItem × Draw))
    (outcome : InsertOutcome) : s.post column deviceId applicationId body outcome = s ∨
      ∃ db, s.db.insert column deviceId applicationId body = some db ∧
        (s.post column deviceId applicationId body outcome = { s with db } ∨
          s.post column deviceId applicationId body outcome =
            { s with db, publishing := s.publishing ++ [postedEvents deviceId applicationId body] }) := by
  cases outcome with
  | failed => exact .inl rfl
  | answered =>
    rw [LogServer.post]
    cases s.db.insert column deviceId applicationId body with
    | none => exact .inl rfl
    | some db => exact .inr ⟨db, rfl, .inr rfl⟩
  | unanswered =>
    rw [LogServer.post]
    cases s.db.insert column deviceId applicationId body with
    | none => exact .inl rfl
    | some db => exact .inr ⟨db, rfl, .inl rfl⟩

theorem Streaming.post (h : Streaming s) (deviceId : Int) (applicationId : Option Int)
    (body : List (PostBodyItem × Draw)) (outcome : InsertOutcome) :
    Streaming (s.post column deviceId applicationId body outcome) := by
  rcases post_cases column s deviceId applicationId body outcome with heq | ⟨db, -, heq | heq⟩
  · exact heq.symm ▸ h
  · exact heq.symm ▸ h.congr db s.publishing
  · exact heq.symm ▸ h.congr db _

/-- **No step of a handler or of a stream makes a stream skip an event that is still kept.** -/
theorem Streaming.step (h : Streaming s) {a : LogAction} (hs : s.step column a = some s') : Streaming s' := by
  cases a with
  | post deviceId applicationId body outcome =>
    exact Option.some.inj hs ▸ h.post column deviceId applicationId body outcome
  | publish handler =>
    rw [LogServer.step] at hs
    split at hs
    · cases hs
    · exact Option.some.inj hs ▸ h.congr s.db _
    · rename_i event rest _
      exact Option.some.inj hs ▸ (h.publish event).congr s.db _
  | streamLogs params => exact Option.some.inj hs ▸ h.streamLogs params
  | poll stream =>
    obtain ⟨st, hst, rfl⟩ := Option.map_eq_some_iff.1 hs
    exact h.poll hst
  | close stream =>
    obtain ⟨st, hst, rfl⟩ := Option.map_eq_some_iff.1 hs
    exact h.close hst
  | retention chunkEnd => exact Option.some.inj hs ▸ h.congr _ s.publishing

theorem Streaming.run {as : List LogAction} (h : Streaming s) (hr : run (LogServer.step column) s as = some s') :
    Streaming s' :=
  Runs.run_invariant (fun _ _ _ h hs => h.step column hs) h hr

/-! ## What is streamed is stored -/

/-- An event that is published, or has yet to be, has its row in the tables, until the retention policy drops it. -/
structure Backed (s : LogServer C) : Prop where
  publishing : ∀ es ∈ s.publishing, ∀ e ∈ es, s.db.Keeps column e
  sent : ∀ e ∈ s.sent, s.db.Keeps column e

end LogServer

namespace TsDb

variable {column : Int → Int} {db db' : TsDb}

theorem horizon_insert {deviceId : Int} {applicationId : Option Int} {body : List (PostBodyItem × Draw)}
    (h : db.insert column deviceId applicationId body = some db') : db'.horizon = db.horizon := by
  unfold TsDb.insert at h
  split at h
  · obtain ⟨t, -, rfl⟩ := Option.map_eq_some_iff.1 h
    rfl
  · obtain ⟨t, -, rfl⟩ := Option.map_eq_some_iff.1 h
    rfl

theorem Stores.insert {e : LogEvent} (he : db.Stores column e) {deviceId : Int} {applicationId : Option Int}
    {body : List (PostBodyItem × Draw)} (h : db.insert column deviceId applicationId body = some db') :
    db'.Stores column e := by
  unfold TsDb.insert at h
  split at h
  · obtain ⟨t, ht, rfl⟩ := Option.map_eq_some_iff.1 h
    cases e with
    | device m => exact he
    | application m => exact (mem_insertMany ht).2 (.inl he)
  · obtain ⟨t, ht, rfl⟩ := Option.map_eq_some_iff.1 h
    cases e with
    | device m => exact (mem_insertMany ht).2 (.inl he)
    | application m => exact he

/-- What an INSERT was given is there. -/
theorem stores_posted {deviceId : Int} {applicationId : Option Int} {body : List (PostBodyItem × Draw)}
    (h : db.insert column deviceId applicationId body = some db') :
    ∀ e ∈ postedEvents deviceId applicationId body, db'.Stores column e := by
  intro e he
  cases applicationId with
  | some appId =>
    obtain ⟨t, ht, rfl⟩ := Option.map_eq_some_iff.1 h
    obtain ⟨m, hm, rfl⟩ := List.mem_map.1 he
    exact (mem_insertMany ht).2 (.inr (List.mem_map_of_mem hm))
  | none =>
    obtain ⟨t, ht, rfl⟩ := Option.map_eq_some_iff.1 h
    obtain ⟨m, hm, rfl⟩ := List.mem_map.1 he
    exact (mem_insertMany ht).2 (.inr (List.mem_map_of_mem hm))

theorem Keeps.insert {e : LogEvent} (he : db.Keeps column e) {deviceId : Int} {applicationId : Option Int}
    {body : List (PostBodyItem × Draw)} (h : db.insert column deviceId applicationId body = some db') :
    db'.Keeps column e :=
  fun hlate => (he (horizon_insert h ▸ hlate)).insert h

/-- What is not before the new horizon was not before the old one, and is not dropped. -/
theorem after_horizon_retention (db : TsDb) (chunkEnd time : Int) :
    (db.retention chunkEnd).horizon.all (fun t => decide (t ≤ time)) = true ↔
      chunkEnd ≤ time ∧ db.horizon.all (fun t => decide (t ≤ time)) = true := by
  unfold retention
  cases db.horizon with
  | none => simp
  | some t => simp

theorem Keeps.retention {e : LogEvent} (he : db.Keeps column e) (chunkEnd : Int) :
    (db.retention chunkEnd).Keeps column e := by
  intro hlate
  obtain ⟨hend, hold⟩ := (db.after_horizon_retention chunkEnd (column e.time)).1 hlate
  have hstored : db.Stores column e := he hold
  cases e with
  | device m => exact List.mem_filter.2 ⟨hstored, decide_eq_true hend⟩
  | application m => exact List.mem_filter.2 ⟨hstored, decide_eq_true hend⟩

end TsDb

namespace LogServer

variable {C : Channel LogEvent 1024} {column : Int → Int} {s s' : LogServer C}

theorem Backed.init : Backed column (LogServer.init : LogServer C) where
  publishing := fun _ h => absurd h List.not_mem_nil
  sent := fun _ h => absurd h List.not_mem_nil

theorem Backed.post (h : Backed column s) (deviceId : Int) (applicationId : Option Int)
    (body : List (PostBodyItem × Draw)) (outcome : InsertOutcome) :
    Backed column (s.post column deviceId applicationId body outcome) := by
  rcases post_cases column s deviceId applicationId body outcome with heq | ⟨db, hdb, hpost⟩
  · exact heq.symm ▸ h
  · have hold : ∀ es ∈ s.publishing, ∀ e ∈ es, db.Keeps column e :=
      fun es hes e he => (h.publishing es hes e he).insert hdb
    have hsent : ∀ e ∈ s.sent, db.Keeps column e := fun e he => (h.sent e he).insert hdb
    rcases hpost with heq | heq
    · exact heq.symm ▸ ⟨hold, hsent⟩
    · refine heq.symm ▸ ⟨fun es hes => ?_, hsent⟩
      rcases List.mem_append.1 hes with hes | hes
      · exact hold es hes
      · obtain rfl := List.mem_singleton.1 hes
        exact fun e he _ => TsDb.stores_posted hdb e he

theorem Backed.step (h : Backed column s) {a : LogAction} (hs : s.step column a = some s') : Backed column s' := by
  cases a with
  | post deviceId applicationId body outcome =>
    exact Option.some.inj hs ▸ h.post deviceId applicationId body outcome
  | publish handler =>
    rw [LogServer.step] at hs
    split at hs
    · cases hs
    · exact Option.some.inj hs ▸ ⟨fun es hes => h.publishing es (List.mem_of_mem_eraseIdx hes), h.sent⟩
    · rename_i event rest hev
      have hes := h.publishing _ (List.mem_of_getElem? hev)
      refine Option.some.inj hs ▸ ⟨fun es hes' => ?_, fun e he => ?_⟩
      · rcases List.mem_or_eq_of_mem_set hes' with hes' | rfl
        · exact h.publishing es hes'
        · exact fun e he => hes e (List.mem_cons_of_mem _ he)
      · dsimp only [LogServer.publish] at he
        split at he
        · exact h.sent e he
        · rcases List.mem_append.1 he with he | he
          · exact h.sent e he
          · exact List.mem_singleton.1 he ▸ hes event List.mem_cons_self
  | streamLogs params => exact Option.some.inj hs ▸ ⟨h.publishing, h.sent⟩
  | poll stream =>
    obtain ⟨st, -, rfl⟩ := Option.map_eq_some_iff.1 hs
    exact ⟨h.publishing, h.sent⟩
  | close stream =>
    obtain ⟨st, -, rfl⟩ := Option.map_eq_some_iff.1 hs
    exact ⟨h.publishing, h.sent⟩
  | retention chunkEnd =>
    exact Option.some.inj hs ▸ ⟨fun es hes e he => (h.publishing es hes e he).retention chunkEnd,
      fun e he => (h.sent e he).retention chunkEnd⟩

theorem Backed.run {as : List LogAction} (h : Backed column s) (hr : run (LogServer.step column) s as = some s') :
    Backed column s' :=
  Runs.run_invariant (fun _ _ _ h hs => h.step hs) h hr

/-! ## Streams against the history -/

theorem all_severity (minLevel : Option LogLevel) (level : LogLevel) :
    minLevel.all (fun min => decide (severity min ≤ severity level)) =
      minLevel.all (fun min => decide (level ∈ levelsAtLeast min)) := by
  cases minLevel with
  | none => rfl
  | some min => exact decide_eq_decide.2 (mem_levelsAtLeast min level).symm

/-- A stream forwards a device event if the history of the device logs lists its row, with the same parameters and
whatever the time, and an application is not asked for. -/
theorem selects_device (column : Int → Int) (q : LogStreamQuery) (m : DeviceLogModel) :
    q.selects (.device m) = (q.kind.all (fun kind => decide (LogKind.device = kind)) && q.applicationId.isNone &&
      (listDeviceLogs q.deviceId q.level none none).selects (TsDb.deviceRow column m)) := by
  have hselects : q.selects (.device m) = (q.kind.all (fun kind => decide (LogKind.device = kind)) &&
      eqIfGiven q.deviceId m.deviceId && q.applicationId.all (fun a => decide ((none : Option Int) = some a)) &&
      q.level.all (fun min => decide (severity min ≤ severity m.level))) := rfl
  have happ : q.applicationId.all (fun a => decide ((none : Option Int) = some a)) = q.applicationId.isNone := by
    cases q.applicationId <;> rfl
  have hlist : (listDeviceLogs q.deviceId q.level none none).selects (TsDb.deviceRow column m) =
      (eqIfGiven q.deviceId m.deviceId &&
        (q.level.all (fun min => decide (m.level ∈ levelsAtLeast min)) && true && true)) := rfl
  rw [hselects, happ, all_severity, hlist, Bool.and_true, Bool.and_true, Bool.and_assoc, Bool.and_assoc, Bool.and_assoc,
    Bool.and_left_comm (eqIfGiven q.deviceId m.deviceId)]

theorem selects_application (column : Int → Int) (q : LogStreamQuery) (m : ApplicationLogModel) :
    q.selects (.application m) = (q.kind.all (fun kind => decide (LogKind.application = kind)) &&
      (listApplicationLogs q.deviceId q.applicationId q.level none none).selects (TsDb.applicationRow column m)) := by
  have hselects : q.selects (.application m) = (q.kind.all (fun kind => decide (LogKind.application = kind)) &&
      eqIfGiven q.deviceId m.deviceId && q.applicationId.all (fun a => decide (some m.applicationId = some a)) &&
      q.level.all (fun min => decide (severity min ≤ severity m.level))) := rfl
  have happ : q.applicationId.all (fun a => decide (some m.applicationId = some a)) =
      eqIfGiven q.applicationId m.applicationId := by
    unfold eqIfGiven
    cases q.applicationId with
    | none => rfl
    | some a => exact decide_eq_decide.2 Option.some_inj
  have hlist : (listApplicationLogs q.deviceId q.applicationId q.level none none).selects (TsDb.applicationRow column m) =
      (eqIfGiven q.deviceId m.deviceId && eqIfGiven q.applicationId m.applicationId &&
        (q.level.all (fun min => decide (m.level ∈ levelsAtLeast min)) && true && true)) := rfl
  rw [hselects, happ, all_severity, hlist, Bool.and_true, Bool.and_true, Bool.and_assoc, Bool.and_assoc, Bool.and_assoc]

/-- **A stream yields, in order, the matching events among those sent since it came, but for events that 1024 later ones
have overwritten**; none comes twice. -/
theorem stream_yields (column : Int → Int) {as : List LogAction} {s : LogServer C}
    (hr : run (LogServer.step column) .init as = some s) : ∀ st ∈ s.streams, ∃ reads : List Nat,
      reads.Pairwise (· < ·) ∧ (∀ p ∈ reads, st.since ≤ p ∧ p < C.next st.rx) ∧
      (∀ p, st.since ≤ p → p < C.next st.rx → p ∉ reads → p + 1024 < s.sent.length) ∧
      st.yielded = (reads.filterMap (fun p => s.sent[p]?)).filter st.params.selects := by
  intro st hst
  obtain ⟨reads, hread, hy⟩ := (Streaming.init.run column hr).read st hst
  exact ⟨reads, hread.sorted, hread.within, hread.missed, hy⟩

/-- The channel as `broadcast::channel(1024)` makes it. -/
def eventRing : Channel LogEvent 1024 := Broadcast.ring 1024 (by decide)

/-- A client reads the first of two entries; one that asks for another device gets nothing. -/
def oneRead : List LogAction :=
  [.streamLogs ⟨some 1, none, none, none⟩, .streamLogs ⟨some 2, none, none, none⟩,
    .post 1 none [(⟨some 5, .info, "a".toList, none⟩, ⟨7, 6⟩), (⟨none, .warn, "b".toList, none⟩, ⟨8, 6⟩)] .answered,
    .publish 0, .poll 0, .poll 1, .publish 0, .publish 0]

def oneReadServer : LogServer eventRing :=
  (run (LogServer.step id) .init oneRead).getD .init

theorem oneRead_run : run (LogServer.step id) .init oneRead = some oneReadServer := rfl

theorem oneRead_yields : (∀ st ∈ oneReadServer.streams, ∃ reads : List Nat,
      reads.Pairwise (· < ·) ∧ (∀ p ∈ reads, st.since ≤ p ∧ p < st.rx) ∧
      (∀ p, st.since ≤ p → p < st.rx → p ∉ reads → p + 1024 < oneReadServer.sent.length) ∧
      st.yielded = (reads.filterMap (fun p => oneReadServer.sent[p]?)).filter st.params.selects) ∧
    oneReadServer.streams.map LogStream.yielded = [[.device ⟨5, 7, 1, .info, "a".toList, none⟩], []] :=
  ⟨stream_yields id oneRead_run, rfl⟩

/-- **Whatever a stream has yielded, the history lists with the same parameters**, until the retention policy drops it. -/
theorem streamed_listed (column : Int → Int) {as : List LogAction} {s : LogServer C}
    (hr : run (LogServer.step column) .init as = some s) : ∀ st ∈ s.streams, ∀ e ∈ st.yielded,
      s.db.horizon.all (fun t => decide (t ≤ column e.time)) = true →
        match e with
        | .device m => TsDb.deviceRow column m ∈
            (listDeviceLogs st.params.deviceId st.params.level none none).matching s.db.deviceLogs.rows
        | .application m => TsDb.applicationRow column m ∈
            (listApplicationLogs st.params.deviceId st.params.applicationId st.params.level none none).matching
              s.db.applicationLogs.rows := by
  intro st hst e he hlate
  obtain ⟨reads, -, hy⟩ := (Streaming.init.run column hr).read st hst
  obtain ⟨hin, hsel⟩ := List.mem_filter.1 (hy ▸ he)
  obtain ⟨p, -, hp⟩ := List.mem_filterMap.1 hin
  have hstored : s.db.Stores column e := (Backed.init.run hr).sent e (List.mem_of_getElem? hp) hlate
  cases e with
  | device m =>
    rw [selects_device column, Bool.and_eq_true] at hsel
    exact List.mem_filter.2 ⟨hstored, hsel.2⟩
  | application m =>
    rw [selects_application column, Bool.and_eq_true] at hsel
    exact List.mem_filter.2 ⟨hstored, hsel.2⟩

theorem oneRead_listed : TsDb.deviceRow id ⟨5, 7, 1, .info, "a".toList, none⟩ ∈
    (listDeviceLogs (some 1) none none none).matching oneReadServer.db.deviceLogs.rows :=
  streamed_listed id oneRead_run _ List.mem_cons_self _ List.mem_cons_self rfl

end LogServer

/-! ## A stream that keeps up -/

namespace LogStream

variable {C : Channel LogEvent 1024}

/-- What a stream that misses nothing has yielded. -/
def Complete (sent : List LogEvent) (st : LogStream C) : Prop :=
  st.yielded = ((sent.drop st.since).take (C.next st.rx - st.since)).filter st.params.selects

theorem Complete.send {sent : List LogEvent} {st : LogStream C} (h : st.Complete sent)
    (hnext : C.next st.rx ≤ sent.length) (hsince : st.since ≤ C.next st.rx) (more : List LogEvent) :
    st.Complete (sent ++ more) := by
  unfold Complete at *
  rw [List.drop_append_of_le_length (Nat.le_trans hsince hnext), List.take_append_of_le_length, h]
  rw [List.length_drop]
  omega

theorem Complete.onItem {sent : List LogEvent} {st : LogStream C} (h : st.Complete sent)
    {x : Broadcast.Received LogEvent × C.Receiver × C.Shared} (hsince : st.since ≤ C.next st.rx)
    (hx : (x.1, C.next x.2.1) = Broadcast.receive 1024 sent (C.next st.rx))
    (hkeep : sent.length ≤ C.next st.rx + 1024) : (st.onItem x).Complete sent := by
  have hx₁ : x.1 = (Broadcast.receive 1024 sent (C.next st.rx)).1 := congrArg Prod.fst hx
  have hx₂ : C.next x.2.1 = (Broadcast.receive 1024 sent (C.next st.rx)).2 := congrArg Prod.snd hx
  unfold Complete at *
  dsimp only [LogStream.onItem]
  rw [hx₁, hx₂, h]
  rcases Broadcast.receive_cases 1024 sent (C.next st.rx) with ⟨-, heq⟩ | ⟨a, -, hlag, -⟩ | ⟨a, ha, -, heq⟩
  · rw [heq]
    exact List.append_nil _
  · omega
  · have hdrop : (sent.drop st.since)[C.next st.rx - st.since]? = some a := by
      rw [List.getElem?_drop, Nat.add_sub_cancel' hsince, ha]
    rw [heq, Nat.succ_sub hsince, List.take_add_one, hdrop, List.filter_append, Option.toList_filter]
    rfl

end LogStream

namespace LogServer

variable {C : Channel LogEvent 1024}

/-- A stream that is polled is at most 1024 events behind. -/
def keepsUp (s : LogServer C) : LogAction → Bool
  | .poll stream => (s.streams[stream]?).all (fun st => decide (s.sent.length ≤ C.next st.rx + 1024))
  | _ => true

/-- The streams miss nothing, step after step. -/
theorem complete_step {column : Int → Int} {s s' : LogServer C} {a : LogAction}
    (h : Streaming s ∧ ∀ st ∈ s.streams, st.Complete s.sent) (hkeep : keepsUp s a = true)
    (hs : s.step column a = some s') : Streaming s' ∧ ∀ st ∈ s'.streams, st.Complete s'.sent := by
  refine ⟨h.1.step column hs, ?_⟩
  cases a with
  | post deviceId applicationId body outcome =>
    obtain rfl := Option.some.inj hs
    rcases post_cases column s deviceId applicationId body outcome with heq | ⟨db, -, heq | heq⟩
    all_goals rw [heq]; exact h.2
  | publish handler =>
    rw [LogServer.step] at hs
    split at hs
    · cases hs
    · exact Option.some.inj hs ▸ h.2
    · rename_i event rest _
      obtain rfl := Option.some.inj hs
      intro st hst
      obtain ⟨reads, hread, -⟩ := h.1.read st hst
      dsimp only [LogServer.publish]
      split
      · exact h.2 st hst
      · exact (h.2 st hst).send hread.next_le hread.since_le [event]
  | streamLogs params =>
    obtain rfl := Option.some.inj hs
    intro st hst
    rcases List.mem_append.1 hst with hst | hst
    · exact h.2 st hst
    · obtain rfl := List.mem_singleton.1 hst
      unfold LogStream.Complete
      dsimp only
      rw [C.next_subscribe h.1.holds, Nat.sub_self, List.take_zero, List.filter_nil]
  | poll stream =>
    obtain ⟨st, hst, rfl⟩ := Option.map_eq_some_iff.1 hs
    intro st' hst'
    rcases List.mem_or_eq_of_mem_set hst' with hst' | rfl
    · exact h.2 st' hst'
    · have hmem := List.mem_of_getElem? hst
      obtain ⟨reads, hread, -⟩ := h.1.read st hmem
      have hrx : (s.streams.map LogStream.rx)[stream]? = some st.rx := by
        rw [List.getElem?_map, hst]
        rfl
      have hle : (s.streams[stream]?).all (fun st => decide (s.sent.length ≤ C.next st.rx + 1024)) = true := hkeep
      rw [hst] at hle
      exact (h.2 st hmem).onItem hread.since_le (C.tryRecv_eq h.1.holds hrx) (of_decide_eq_true hle)
  | close stream =>
    obtain ⟨st, -, rfl⟩ := Option.map_eq_some_iff.1 hs
    exact fun st' hst' => h.2 st' (List.mem_of_mem_eraseIdx hst')
  | retention chunkEnd => exact Option.some.inj hs ▸ h.2

/-- **If no stream is ever more than 1024 events behind when it is polled, each has yielded all that matches of what was
sent since it came**, up to where it has read. -/
theorem stream_complete (column : Int → Int) {as : List LogAction} {s : LogServer C}
    (hr : run (LogServer.step column) .init as = some s)
    (hkeep : Along (LogServer.step column) (fun (s : LogServer C) a => s.keepsUp a = true) .init as) :
    ∀ st ∈ s.streams, st.yielded = ((s.sent.drop st.since).take (C.next st.rx - st.since)).filter st.params.selects :=
  (hkeep.invariant (fun _ _ _ h hk hs => complete_step h hk hs)
    ⟨Streaming.init, fun _ h => absurd h List.not_mem_nil⟩ hr).2

theorem oneRead_complete : (∀ st ∈ oneReadServer.streams, st.yielded = ((oneReadServer.sent.drop st.since).take
      (eventRing.next st.rx - st.since)).filter st.params.selects) ∧
    oneReadServer.streams.map LogStream.yielded = [[.device ⟨5, 7, 1, .info, "a".toList, none⟩], []] :=
  ⟨stream_complete id oneRead_run (by decide), rfl⟩

end LogServer

end Api
end ZeroDowntime
