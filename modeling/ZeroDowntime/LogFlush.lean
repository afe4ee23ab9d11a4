import Mathlib.Data.List.Nodup
import ZeroDowntime.Arrivals
import ZeroDowntime.DeviceLogs
/-!
# LogFlush — flush calls and the task that answers them

Entries and flush requests go through one channel, in the order they were sent.  A request carries the sender of the
call's acknowledgement; the call waits for it until it is sent or dropped.  A push takes time: while the task waits for
the API, anything else may be sent, called or dropped.
-/
namespace ZeroDowntime
namespace Logs

open Shipping (Event Settled)

/-- An entry on the channel.  Its place among the messages sent tells it from another of the same text. -/
structure SentEntry where
  place : Nat
  entry : PostBodyItem
  deriving DecidableEq, Repr

/-- A `LogMessage`; a flush request with the call whose acknowledgement it carries. -/
inductive Message
  | entry (e : SentEntry)
  | flush (call : Nat)
  deriving DecidableEq, Repr

/-- A call of `LogFlusher::flush`.  It returns once it does not wait. -/
inductive FlushCall
  | refused
  | waiting
  | acknowledged
  | closed
  | cancelled
  deriving DecidableEq, Repr

/-- What the task does after a flush. -/
inductive After
  | loop
  | ack (call : Nat)
  | finish
  deriving DecidableEq, Repr

/-- Where the logger is, and with it the receiver of the channel. -/
inductive Shipper
  | unspawned
  | selecting
  | pushing (after : After)
  | dropped
  deriving DecidableEq, Repr

/-- The two ends of the channel and the calls.  A logger that is dropped takes its buffer with it; `buffer` is then what it
last held. -/
structure LogChannel where
  sent : List Message
  queue : List Message
  sendersAlive : Bool
  shipper : Shipper
  buffer : List SentEntry
  events : List (Event SentEntry)
  calls : List FlushCall
  deriving DecidableEq, Repr

inductive LogAction
  /-- A task logs. -/
  | send (entry : PostBodyItem)
  /-- A task calls `LogFlusher::flush`, or gives a call up. -/
  | callFlush
  | cancel (call : Nat)
  | dropSenders
  | spawn
  /-- `select!` takes what the channel has, or the tick. -/
  | recv
  | tick
  /-- The API answers a push. -/
  | answer (ok : Bool)
  /-- The logger, or the task that has it, is dropped. -/
  | dropLogger
  deriving DecidableEq, Repr

def Message.ack? : Message → Option Nat
  | .entry _ => none
  | .flush call => some call

/-- The acknowledgement the task itself is about to send. -/
def Shipper.ack? : Shipper → Option Nat
  | .pushing (.ack call) => some call
  | _ => none

namespace LogChannel

def init : LogChannel := ⟨[], [], true, .unspawned, [], [], []⟩

/-- The calls whose acknowledgement can still be sent. -/
def held (s : LogChannel) : List Nat := s.shipper.ack?.toList ++ s.queue.filterMap Message.ack?

def enqueue (s : LogChannel) (m : Message) : LogChannel := { s with sent := s.sent ++ [m], queue := s.queue ++ [m] }

/-- The receiver drops what is queued, and with it the acknowledgements. -/
def drop (s : LogChannel) : LogChannel :=
  { s with
    queue := []
    shipper := .dropped
    calls := s.calls.mapIdx (fun i c => if i ∈ s.held ∧ c = .waiting then .closed else c) }

/-- `ack.send(())`; nobody receives it where the call was given up. -/
def acknowledge (s : LogChannel) (call : Nat) : LogChannel :=
  { s with calls := if s.calls[call]? = some .waiting then s.calls.set call .acknowledged else s.calls }

def proceed (s : LogChannel) : After → LogChannel
  | .loop => { s with shipper := .selecting }
  | .ack call => ({ s with shipper := .selecting }).acknowledge call
  | .finish => s.drop

/-- The head of `flush`: an empty buffer is not pushed. -/
def flush (s : LogChannel) (after : After) : LogChannel :=
  if s.buffer.isEmpty then s.proceed after else { s with shipper := .pushing after }

/-- The rest of `flush`, when the API has answered. -/
def settle (s : LogChannel) (logMaxBuffer : Nat) (ok : Bool) : LogChannel :=
  { s with
    buffer := (Shipping.flush logMaxBuffer ok s.buffer).2
    events := s.events ++ (Shipping.flush logMaxBuffer ok s.buffer).1 }

def receive (s : LogChannel) (e : SentEntry) : LogChannel :=
  { s with buffer := s.buffer ++ [e], events := s.events ++ [.received e] }

def recv (s : LogChannel) (logMaxBatch : Nat) : Option LogChannel :=
  match s.queue with
  | .entry e :: queue =>
    let s := ({ s with queue := queue }).receive e
    some (if logMaxBatch ≤ s.buffer.length then s.flush .loop else s)
  | .flush call :: queue => some (({ s with queue := queue }).flush (.ack call))
  | [] => if s.sendersAlive then none else some (s.flush .finish)

/-- A call of `flush` borrows a sender for as long as it waits. -/
def step (logMaxBatch logMaxBuffer : Nat) (s : LogChannel) : LogAction → Option LogChannel
  | .send entry =>
    if s.sendersAlive = false then none
    else if s.shipper = .dropped then some s
    else some (s.enqueue (.entry ⟨s.sent.length, entry⟩))
  | .callFlush =>
    if s.sendersAlive = false then none
    else if s.shipper = .dropped then some { s with calls := s.calls ++ [.refused] }
    else some { s.enqueue (.flush s.calls.length) with calls := s.calls ++ [.waiting] }
  | .cancel call => if s.calls[call]? = some .waiting then some { s with calls := s.calls.set call .cancelled } else none
  | .dropSenders => if .waiting ∈ s.calls then none else some { s with sendersAlive := false }
  | .spawn => if s.shipper = .unspawned then some { s with shipper := .selecting } else none
  | .recv => if s.shipper = .selecting then s.recv logMaxBatch else none
  | .tick => if s.shipper = .selecting then some (if s.buffer.isEmpty then s else s.flush .loop) else none
  | .answer ok =>
    match s.shipper with
    | .pushing after => some ((s.settle logMaxBuffer ok).proceed after)
    | _ => none
  | .dropLogger => if s.shipper = .dropped then none else some s.drop

/-- What a step can do.  Calls may be refused or given up, but they begin to wait only by a message sent, and are
acknowledged only by the task. -/
inductive Stepped (logMaxBatch logMaxBuffer : Nat) (s : LogChannel) : LogChannel → Prop
  | calls (calls : List FlushCall) (hlen : s.calls.length ≤ calls.length)
    (hc : ∀ (call : Nat) (c : FlushCall), c = .waiting ∨ c = .acknowledged →
      calls[call]? = some c → s.calls[call]? = some c) :
    Stepped logMaxBatch logMaxBuffer s { s with calls := calls }
  | sent (entry : PostBodyItem) (hs : s.shipper ≠ .dropped) :
    Stepped logMaxBatch logMaxBuffer s (s.enqueue (.entry ⟨s.sent.length, entry⟩))
  | called (hs : s.shipper ≠ .dropped) :
    Stepped logMaxBatch logMaxBuffer s { s.enqueue (.flush s.calls.length) with calls := s.calls ++ [.waiting] }
  | closed : Stepped logMaxBatch logMaxBuffer s { s with sendersAlive := false }
  | spawned (hs : s.shipper = .unspawned) : Stepped logMaxBatch logMaxBuffer s { s with shipper := .selecting }
  | received (s' : LogChannel) (hs : s.shipper = .selecting) (h : s.recv logMaxBatch = some s') :
    Stepped logMaxBatch logMaxBuffer s s'
  | ticked (hs : s.shipper = .selecting) (hb : s.buffer.isEmpty = false) :
    Stepped logMaxBatch logMaxBuffer s (s.flush .loop)
  | answered (a : After) (ok : Bool) (hs : s.shipper = .pushing a) :
    Stepped logMaxBatch logMaxBuffer s ((s.settle logMaxBuffer ok).proceed a)
  | dropped (hs : s.shipper ≠ .dropped) : Stepped logMaxBatch logMaxBuffer s s.drop

/-- What is found after a call has changed to something else was there before. -/
theorem getElem?_set_of_ne {calls : List FlushCall} {call i : Nat} {c c' : FlushCall} (hne : c' ≠ c)
    (h : (calls.set call c')[i]? = some c) : calls[i]? = some c := by
  rw [List.getElem?_set] at h
  split at h
  · split at h
    · exact absurd (Option.some.inj h) hne
    · cases h
  · exact h

theorem getElem?_concat_of_ne {calls : List FlushCall} {i : Nat} {c c' : FlushCall} (hne : c' ≠ c)
    (h : (calls ++ [c'])[i]? = some c) : calls[i]? = some c :=
  (Arrivals.of_concat h).resolve_right (fun h => hne h.2.symm)

theorem stepped_of_step {logMaxBatch logMaxBuffer : Nat} {s s' : LogChannel} {a : LogAction}
    (h : s.step logMaxBatch logMaxBuffer a = some s') : Stepped logMaxBatch logMaxBuffer s s' := by
  have hsame : Stepped logMaxBatch logMaxBuffer s s := .calls s.calls (Nat.le_refl _) (fun _ _ _ h => h)
  cases a with
  | send entry =>
    simp only [step] at h
    split at h
    · cases h
    split at h
    · exact Option.some.inj h ▸ hsame
    · rename_i hs
      exact Option.some.inj h ▸ .sent entry hs
  | callFlush =>
    simp only [step] at h
    split at h
    · cases h
    split at h
    · refine Option.some.inj h ▸ .calls _ (by simp) (fun call c hc => getElem?_concat_of_ne ?_)
      rcases hc with rfl | rfl <;> decide
    · rename_i hs
      exact Option.some.inj h ▸ .called hs
  | cancel call =>
    simp only [step] at h
    split at h
    · refine Option.some.inj h ▸ .calls _ (Nat.le_of_eq List.length_set.symm) (fun i c hc => getElem?_set_of_ne ?_)
      rcases hc with rfl | rfl <;> decide
    · cases h
  | dropSenders =>
    simp only [step] at h
    split at h
    · cases h
    · exact Option.some.inj h ▸ .closed
  | spawn =>
    simp only [step] at h
    split at h
    · rename_i hs
      exact Option.some.inj h ▸ .spawned hs
    · cases h
  | recv =>
    simp only [step] at h
    split at h
    · rename_i hs
      exact .received s' hs h
    · cases h
  | tick =>
    simp only [step] at h
    split at h
    · rename_i hs
      rw [← Option.some.inj h]
      split
      · exact hsame
      · rename_i hb
        exact .ticked hs (Bool.eq_false_iff.2 hb)
    · cases h
  | answer ok =>
    simp only [step] at h
    split at h
    · rename_i a hs
      exact Option.some.inj h ▸ .answered a ok hs
    · cases h
  | dropLogger =>
    simp only [step] at h
    split at h
    · cases h
    · rename_i hs
      exact Option.some.inj h ▸ .dropped hs

/-! ## What a flush covers -/

/-- Every entry sent before the message of `call` has been pushed, and is delivered, evicted, or still buffered. -/
def Covers (logMaxBuffer : Nat) (s : LogChannel) (call : Nat) : Prop :=
  ∃ pre post, s.sent = pre ++ .flush call :: post ∧
    ∀ e, .entry e ∈ pre → Settled logMaxBuffer s.events s.buffer e

def Acked (logMaxBuffer : Nat) (s : LogChannel) : Prop :=
  ∀ call : Nat, s.calls[call]? = some .acknowledged → s.Covers logMaxBuffer call

/-- The task has received everything but the queue, and has buffered or settled it; `after` its flush it answers the last
message received, and whoever waits is answered then or is in the queue. -/
structure Busy (logMaxBuffer : Nat) (s : LogChannel) (after : After) : Prop where
  order : ∃ handled, s.sent = handled ++ s.queue ∧
    (∀ e, .entry e ∈ handled → e ∈ s.buffer ∨ Settled logMaxBuffer s.events s.buffer e) ∧
    ∀ call, after = .ack call → ∃ before, handled = before ++ [.flush call]
  waiting : ∀ call : Nat, s.calls[call]? = some .waiting → after = .ack call ∨ .flush call ∈ s.queue

def after : Shipper → After
  | .pushing after => after
  | _ => .loop

structure Inv (logMaxBuffer : Nat) (s : LogChannel) : Prop where
  acked : s.Acked logMaxBuffer
  busy : s.shipper ≠ .dropped → s.Busy logMaxBuffer (after s.shipper)
  dropped : s.shipper = .dropped → ∀ call : Nat, s.calls[call]? ≠ some .waiting

variable {logMaxBuffer : Nat} {s : LogChannel}

theorem inv_init : Inv logMaxBuffer init where
  acked := fun _ h => by cases h
  busy := fun _ => ⟨⟨[], rfl, fun _ h => (List.not_mem_nil h).elim, fun _ h => by cases h⟩, fun _ h => by cases h⟩
  dropped := fun h => by cases h

/-! ## Calls -/

theorem Acked.calls (h : s.Acked logMaxBuffer) (calls : List FlushCall)
    (hc : ∀ call : Nat, calls[call]? = some .acknowledged → s.calls[call]? = some .acknowledged) :
    Acked logMaxBuffer { s with calls := calls } :=
  fun call ha => h call (hc call ha)

theorem Busy.calls {a : After} (h : s.Busy logMaxBuffer a) (calls : List FlushCall)
    (hc : ∀ call : Nat, calls[call]? = some .waiting → s.calls[call]? = some .waiting) :
    Busy logMaxBuffer { s with calls := calls } a :=
  ⟨h.order, fun call hw => h.waiting call (hc call hw)⟩

theorem drop_calls {i : Nat} {c : FlushCall} (hne : c ≠ .closed) (h : s.drop.calls[i]? = some c) :
    s.calls[i]? = some c ∧ (c = .waiting → i ∉ s.held) := by
  rw [drop, List.getElem?_mapIdx, Option.map_eq_some_iff] at h
  obtain ⟨c', hc', heq⟩ := h
  split at heq
  · exact absurd heq.symm hne
  · rename_i hheld
    subst heq
    exact ⟨hc', fun hw hi => hheld ⟨hi, hw⟩⟩

/-! ## Dropping and proceeding -/

theorem mem_held {call : Nat} (h : .flush call ∈ s.queue) : call ∈ s.held :=
  List.mem_append_right _ (List.mem_filterMap.2 ⟨_, h, rfl⟩)

theorem mem_held_of_after {call : Nat} (h : after s.shipper = .ack call) : call ∈ s.held := by
  refine List.mem_append_left _ ?_
  cases hs : s.shipper with
  | pushing a =>
    rw [hs] at h
    obtain rfl : a = .ack call := h
    simp [Shipper.ack?]
  | unspawned => rw [hs] at h; cases h
  | selecting => rw [hs] at h; cases h
  | dropped => rw [hs] at h; cases h

theorem inv_drop (ha : s.Acked logMaxBuffer) (hw : ∀ call : Nat, s.calls[call]? = some .waiting → call ∈ s.held) :
    s.drop.Inv logMaxBuffer where
  acked := fun call hc => ha call (drop_calls (by decide) hc).1
  busy := fun h => absurd rfl h
  dropped := fun _ call hc => (drop_calls (by decide) hc).2 rfl (hw call (drop_calls (by decide) hc).1)

theorem Busy.inv (hb : s.Busy logMaxBuffer (after s.shipper)) (ha : s.Acked logMaxBuffer) (hs : s.shipper ≠ .dropped) :
    s.Inv logMaxBuffer :=
  ⟨ha, fun _ => hb, fun h => absurd h hs⟩

/-- Nothing the task has received is unsettled: it has just flushed. -/
def Flushed (logMaxBuffer : Nat) (s : LogChannel) : Prop :=
  ∀ e ∈ s.buffer, Settled logMaxBuffer s.events s.buffer e

/-- **After a flush the task may acknowledge it**: what was sent before the request was received before it. -/
theorem inv_proceed {a : After} (hb : s.Busy logMaxBuffer a) (ha : s.Acked logMaxBuffer) (hf : s.Flushed logMaxBuffer) :
    (s.proceed a).Inv logMaxBuffer := by
  cases a with
  | loop => exact Busy.inv ⟨hb.order, hb.waiting⟩ ha (by simp [proceed])
  | ack call =>
    obtain ⟨handled, hsent, hin, hlast⟩ := hb.order
    have hcovers : s.Covers logMaxBuffer call := by
      obtain ⟨before, rfl⟩ := hlast call rfl
      refine ⟨before, s.queue, by simp [hsent], fun e he => ?_⟩
      exact (hin e (List.mem_append_left _ he)).elim (hf e) id
    refine Busy.inv ⟨⟨handled, hsent, hin, fun _ h => by cases h⟩, fun i hi => ?_⟩ (fun i hi => ?_)
      (by simp [proceed, acknowledge])
    · -- who still waits is not the call that has been answered
      simp only [proceed, acknowledge] at hi
      split at hi
      · rename_i hwait
        have hne : i ≠ call := by
          rintro rfl
          rw [List.getElem?_set_self (List.getElem?_eq_some_iff.1 hwait).1] at hi
          cases hi
        rw [List.getElem?_set_ne hne.symm] at hi
        exact (hb.waiting i hi).imp (fun h => absurd (After.ack.inj h).symm hne) id
      · rename_i hwait
        refine (hb.waiting i hi).imp (fun h => ?_) id
        obtain rfl := After.ack.inj h
        exact absurd hi hwait
    · by_cases h : i = call
      · exact h ▸ hcovers
      · refine ha i ?_
        simp only [proceed, acknowledge] at hi
        split at hi
        · rwa [List.getElem?_set_ne (fun h' => h h'.symm)] at hi
        · exact hi
  | finish =>
    refine inv_drop ha (fun call hw => mem_held ?_)
    exact (hb.waiting call hw).resolve_left (fun h => by cases h)

theorem inv_flush {a : After} (hb : s.Busy logMaxBuffer a) (ha : s.Acked logMaxBuffer) :
    (s.flush a).Inv logMaxBuffer := by
  unfold flush
  split
  · rename_i hempty
    refine inv_proceed hb ha (fun e he => ?_)
    rw [List.isEmpty_iff.1 hempty] at he
    cases he
  · exact Busy.inv ⟨hb.order, hb.waiting⟩ ha (by simp)

theorem Acked.settle (ha : s.Acked logMaxBuffer) (ok : Bool) : (s.settle logMaxBuffer ok).Acked logMaxBuffer := by
  intro call hc
  obtain ⟨pre, post, hsent, hpre⟩ := ha call hc
  exact ⟨pre, post, hsent, fun e he => (hpre e he).flush ok⟩

theorem Busy.settle {a : After} (hb : s.Busy logMaxBuffer a) (ok : Bool) :
    (s.settle logMaxBuffer ok).Busy logMaxBuffer a := by
  obtain ⟨handled, hsent, hin, hlast⟩ := hb.order
  refine ⟨⟨handled, hsent, fun e he => .inr ?_, hlast⟩, hb.waiting⟩
  exact (hin e he).elim (Shipping.settled_flush ok s.events) (fun h => h.flush ok)

theorem flushed_settle (ok : Bool) : (s.settle logMaxBuffer ok).Flushed logMaxBuffer := by
  intro e he
  refine Shipping.settled_flush ok s.events ?_
  have hsub := Shipping.segments_flush logMaxBuffer ok s.buffer
  rw [← hsub]
  exact List.mem_append_right _ he

theorem Acked.receive (ha : s.Acked logMaxBuffer) (x : SentEntry) : (s.receive x).Acked logMaxBuffer := by
  intro call hc
  obtain ⟨pre, post, hsent, hpre⟩ := ha call hc
  exact ⟨pre, post, hsent, fun e he => (hpre e he).receive x⟩

/-! ## One step -/

/-- The message at the head of the queue is received. -/
theorem inv_recv {logMaxBatch : Nat} {s' : LogChannel} (hb : s.Busy logMaxBuffer .loop) (ha : s.Acked logMaxBuffer)
    (hs : s.shipper = .selecting) (h : s.recv logMaxBatch = some s') : s'.Inv logMaxBuffer := by
  obtain ⟨handled, hsent, hin, -⟩ := hb.order
  unfold recv at h
  split at h
  · rename_i x queue hq
    obtain rfl := Option.some.inj h
    have hbusy : Busy logMaxBuffer (({ s with queue := queue }).receive x) .loop := by
      refine ⟨⟨handled ++ [.entry x], by simp [receive, hsent, hq], fun e he => ?_, fun _ h => by cases h⟩, fun i hi => ?_⟩
      · rcases List.mem_append.1 he with he | he
        · exact (hin e he).imp (fun h => List.mem_append_left _ h) (fun h => h.receive x)
        · obtain rfl := Message.entry.inj (List.mem_singleton.1 he)
          exact .inl (List.mem_append_right _ (List.mem_singleton_self _))
      · refine (hb.waiting i hi).imp id (fun h => ?_)
        rw [hq] at h
        exact (List.mem_cons.1 h).resolve_left (fun h => by cases h)
    have hacked : Acked logMaxBuffer (({ s with queue := queue }).receive x) := Acked.receive ha x
    split
    · exact inv_flush hbusy hacked
    · exact ⟨hacked, fun _ => by simpa only [receive, hs, after] using hbusy, fun h => by simp [receive, hs] at h⟩
  · rename_i call queue hq
    obtain rfl := Option.some.inj h
    refine inv_flush ⟨⟨handled ++ [.flush call], by simp [hsent, hq], fun e he => hin e ?_, ?_⟩, fun i hi => ?_⟩ ha
    · exact (List.mem_append.1 he).resolve_right (fun h => by simp at h)
    · rintro i hi
      obtain rfl := After.ack.inj hi
      exact ⟨handled, rfl⟩
    · have h := (hb.waiting i hi).resolve_left (fun h => by cases h)
      rw [hq] at h
      exact (List.mem_cons.1 h).imp (fun h => by rw [Message.flush.inj h]) id
  · split at h
    · cases h
    · obtain rfl := Option.some.inj h
      exact inv_flush ⟨⟨handled, hsent, hin, fun _ h => by cases h⟩, fun i hi => .inr ((hb.waiting i hi).resolve_left
        (fun h => by cases h))⟩ ha

theorem Acked.enqueue (ha : s.Acked logMaxBuffer) (m : Message) : (s.enqueue m).Acked logMaxBuffer := by
  intro call hc
  obtain ⟨pre, post, hsent, hpre⟩ := ha call hc
  exact ⟨pre, post ++ [m], by simp [LogChannel.enqueue, hsent], hpre⟩

theorem Busy.enqueue {a : After} (hb : s.Busy logMaxBuffer a) (m : Message) : (s.enqueue m).Busy logMaxBuffer a := by
  obtain ⟨handled, hsent, hin, hlast⟩ := hb.order
  refine ⟨⟨handled, by simp [LogChannel.enqueue, hsent], hin, hlast⟩, fun i hi => (hb.waiting i hi).imp id ?_⟩
  exact fun h => List.mem_append_left _ h

theorem Inv.busy_of (hi : s.Inv logMaxBuffer) {shipper : Shipper} (hs : s.shipper = shipper) (hne : shipper ≠ .dropped) :
    s.Busy logMaxBuffer (after shipper) :=
  hs ▸ hi.busy (hs ▸ hne)

theorem Inv.enqueue (hi : s.Inv logMaxBuffer) (hs : s.shipper ≠ .dropped) (m : Message) :
    (s.enqueue m).Inv logMaxBuffer :=
  Busy.inv ((hi.busy hs).enqueue m) (hi.acked.enqueue m) hs

/-- **Every action keeps the invariant.** -/
theorem Inv.step {logMaxBatch : Nat} {a : LogAction} {s' : LogChannel} (hi : s.Inv logMaxBuffer)
    (h : s.step logMaxBatch logMaxBuffer a = some s') : s'.Inv logMaxBuffer := by
  cases stepped_of_step h with
  | calls calls hlen hc =>
    exact ⟨hi.acked.calls calls (fun call => hc call _ (.inr rfl)),
      fun hs => (hi.busy hs).calls calls (fun call => hc call _ (.inl rfl)),
      fun hs call hw => hi.dropped hs call (hc call _ (.inl rfl) hw)⟩
  | sent entry hs => exact hi.enqueue hs _
  | called hs =>
    have hq := hi.enqueue hs (.flush s.calls.length)
    refine Busy.inv ⟨(hq.busy hs).order, fun i hw => ?_⟩ (hq.acked.calls _ (fun i => getElem?_concat_of_ne (by decide))) hs
    -- the new call waits for the message that is now in the queue
    by_cases hlt : i < s.calls.length
    · exact (hq.busy hs).waiting i (by rwa [List.getElem?_append_left hlt] at hw)
    · have hlen := (List.getElem?_eq_some_iff.1 hw).1
      obtain rfl : i = s.calls.length := by
        rw [List.length_append, List.length_singleton] at hlen
        omega
      exact .inr (List.mem_append_right _ (List.mem_singleton_self _))
  | closed => exact ⟨hi.acked, fun hs => ⟨(hi.busy hs).order, (hi.busy hs).waiting⟩, hi.dropped⟩
  | spawned hs =>
    have hb : s.Busy logMaxBuffer .loop := hi.busy_of hs (by decide)
    exact Busy.inv ⟨hb.order, hb.waiting⟩ hi.acked (by simp)
  | received s' hs h => exact inv_recv (hi.busy_of hs (by decide)) hi.acked hs h
  | ticked hs hne =>
    have hb : s.Busy logMaxBuffer .loop := hi.busy_of hs (by decide)
    exact inv_flush hb hi.acked
  | answered a ok hs =>
    have hb : s.Busy logMaxBuffer a := hi.busy_of hs Shipper.noConfusion
    exact inv_proceed (hb.settle ok) (hi.acked.settle ok) (flushed_settle ok)
  | dropped hs =>
    refine inv_drop hi.acked (fun call hw => ?_)
    rcases (hi.busy hs).waiting call hw with hafter | hq
    · exact mem_held_of_after hafter
    · exact mem_held hq

theorem Inv.run {logMaxBatch : Nat} {as : List LogAction} {s' : LogChannel} (hi : s.Inv logMaxBuffer)
    (h : Runs.run (LogChannel.step logMaxBatch logMaxBuffer) s as = some s') : s'.Inv logMaxBuffer :=
  Runs.run_invariant (fun _ _ _ hi h => Inv.step hi h) hi h

/-! ## Messages are told apart -/

structure Numbered (s : LogChannel) : Prop where
  nodup : s.sent.Nodup
  places : ∀ e, .entry e ∈ s.sent → e.place < s.sent.length
  known : ∀ call, .flush call ∈ s.sent → call < s.calls.length

/-- Nothing is sent and no call begins. -/
def Quiet (s s' : LogChannel) : Prop := s'.sent = s.sent ∧ s'.calls.length = s.calls.length

theorem quiet_drop (s : LogChannel) : s.Quiet s.drop := ⟨rfl, List.length_mapIdx⟩

theorem quiet_proceed (s : LogChannel) (a : After) : s.Quiet (s.proceed a) := by
  cases a with
  | loop => exact ⟨rfl, rfl⟩
  | ack call =>
    refine ⟨rfl, ?_⟩
    simp only [proceed, acknowledge]
    split
    · exact List.length_set
    · rfl
  | finish => exact quiet_drop s

theorem quiet_flush (s : LogChannel) (a : After) : s.Quiet (s.flush a) := by
  unfold flush
  split
  · exact quiet_proceed s a
  · exact ⟨rfl, rfl⟩

theorem quiet_recv {logMaxBatch : Nat} {s' : LogChannel} (h : s.recv logMaxBatch = some s') : s.Quiet s' := by
  unfold recv at h
  split at h
  · obtain rfl := Option.some.inj h
    split
    · exact quiet_flush _ _
    · exact ⟨rfl, rfl⟩
  · obtain rfl := Option.some.inj h
    exact quiet_flush _ _
  · split at h
    · cases h
    · obtain rfl := Option.some.inj h
      exact quiet_flush _ _

/-- **One action sends one message at most**, an entry at the next place or the request of the next call. -/
theorem step_sent {logMaxBatch : Nat} {a : LogAction} {s' : LogChannel}
    (h : s.step logMaxBatch logMaxBuffer a = some s') : (s'.sent = s.sent ∧ s.calls.length ≤ s'.calls.length) ∨
      (∃ entry, s'.sent = s.sent ++ [.entry ⟨s.sent.length, entry⟩] ∧ s'.calls = s.calls) ∨
      (s'.sent = s.sent ++ [.flush s.calls.length] ∧ s'.calls.length = s.calls.length + 1) := by
  have hquiet : ∀ {t : LogChannel}, s.Quiet t → (t.sent = s.sent ∧ s.calls.length ≤ t.calls.length) :=
    fun h => ⟨h.1, Nat.le_of_eq h.2.symm⟩
  cases stepped_of_step h with
  | calls calls hlen hc => exact .inl ⟨rfl, hlen⟩
  | sent entry hs => exact .inr (.inl ⟨entry, rfl, rfl⟩)
  | called hs => exact .inr (.inr ⟨rfl, by simp⟩)
  | closed => exact .inl ⟨rfl, Nat.le_refl _⟩
  | spawned hs => exact .inl ⟨rfl, Nat.le_refl _⟩
  | received s' hs h => exact .inl (hquiet (quiet_recv h))
  | ticked hs hb => exact .inl (hquiet (quiet_flush s .loop))
  | answered a ok hs => exact .inl (hquiet (quiet_proceed (s.settle logMaxBuffer ok) a))
  | dropped hs => exact .inl (hquiet (quiet_drop s))

theorem Numbered.step {logMaxBatch : Nat} {a : LogAction} {s' : LogChannel} (hn : s.Numbered)
    (h : s.step logMaxBatch logMaxBuffer a = some s') : s'.Numbered := by
  rcases step_sent h with ⟨hsent, hlen⟩ | ⟨entry, hsent, hcalls⟩ | ⟨hsent, hlen⟩
  · refine ⟨hsent ▸ hn.nodup, fun e he => ?_, fun call hc => ?_⟩
    · rw [hsent] at he ⊢
      exact hn.places e he
    · rw [hsent] at hc
      exact Nat.lt_of_lt_of_le (hn.known call hc) hlen
  · refine ⟨?_, fun e he => ?_, fun call hc => ?_⟩
    · rw [hsent, ← List.concat_eq_append]
      exact hn.nodup.concat (fun hm => Nat.lt_irrefl _ (hn.places _ hm))
    · rw [hsent, List.length_append, List.length_singleton]
      rw [hsent] at he
      rcases List.mem_append.1 he with he | he
      · exact Nat.lt_succ_of_lt (hn.places e he)
      · rw [Message.entry.inj (List.mem_singleton.1 he)]
        exact Nat.lt_succ_self _
    · rw [hcalls]
      rw [hsent] at hc
      exact hn.known call ((List.mem_append.1 hc).resolve_right (fun h => by simp at h))
  · refine ⟨?_, fun e he => ?_, fun call hc => ?_⟩
    · rw [hsent, ← List.concat_eq_append]
      exact hn.nodup.concat (fun hm => Nat.lt_irrefl _ (hn.known _ hm))
    · rw [hsent, List.length_append]
      rw [hsent] at he
      have := hn.places e ((List.mem_append.1 he).resolve_right (fun h => by simp at h))
      omega
    · rw [hlen]
      rw [hsent] at hc
      rcases List.mem_append.1 hc with hc | hc
      · exact Nat.lt_succ_of_lt (hn.known call hc)
      · rw [Message.flush.inj (List.mem_singleton.1 hc)]
        exact Nat.lt_succ_self _

theorem numbered_init : init.Numbered :=
  ⟨List.nodup_nil, fun _ h => (List.not_mem_nil h).elim, fun _ h => (List.not_mem_nil h).elim⟩

/-! ## The task is the one that ships the device's log -/

/-- The logger without the places of its entries. -/
def logger (s : LogChannel) (returned : Bool) : OrchestratorLogger where
  buffer := s.buffer.map SentEntry.entry
  events := s.events.map (Event.map SentEntry.entry)
  returned := returned

/-- The task's own messages and ticks so far lead to the logger; those of a push that is not answered yet will, whatever
the answer. -/
def Ships (logMaxBatch logMaxBuffer : Nat) (s : LogChannel) : Prop :=
  match s.shipper with
  | .dropped => True
  | .pushing a => ∀ ok, ∃ as, Runs.run (OrchestratorLogger.step logMaxBatch logMaxBuffer) .init as =
      some ((s.settle logMaxBuffer ok).logger (decide (a = .finish)))
  | _ => ∃ as, Runs.run (OrchestratorLogger.step logMaxBatch logMaxBuffer) .init as = some (s.logger false)

theorem logger_settle (s : LogChannel) (ok returned : Bool) : (s.settle logMaxBuffer ok).logger returned =
    { (s.logger false).flush logMaxBuffer ok with returned := returned } := by
  simp only [settle, logger, OrchestratorLogger.flush, Shipping.flush_map, List.map_append]

theorem logger_settle_of_empty (hs : s.buffer.isEmpty = true) (ok returned : Bool) :
    (s.settle logMaxBuffer ok).logger returned = s.logger returned := by
  have hnil := List.isEmpty_iff.1 hs
  simp [settle, logger, hnil, Shipping.flush]

/-- One more message or tick of the task, whatever the API answers to it. -/
theorem ships_flush {logMaxBatch : Nat} (a : After)
    (h : ∀ ok, ∃ as, Runs.run (OrchestratorLogger.step logMaxBatch logMaxBuffer) .init as =
      some ((s.settle logMaxBuffer ok).logger (decide (a = .finish)))) : (s.flush a).Ships logMaxBatch logMaxBuffer := by
  unfold flush
  split
  · rename_i hempty
    obtain ⟨as, has⟩ := h true
    rw [logger_settle_of_empty hempty] at has
    cases a with
    | loop => exact ⟨as, has⟩
    | ack call => exact ⟨as, has⟩
    | finish => trivial
  · exact h

theorem ships_step {logMaxBatch : Nat} {as : List ShipperAction} (b : ShipperAction)
    (h : Runs.run (OrchestratorLogger.step logMaxBatch logMaxBuffer) .init as = some (s.logger false)) :
    ∃ bs, Runs.run (OrchestratorLogger.step logMaxBatch logMaxBuffer) .init bs =
      some ((s.logger false).handle logMaxBatch logMaxBuffer b) :=
  ⟨as ++ [b], (Runs.run_append_eq_some ..).2 ⟨_, h, (Runs.run_cons_eq_some ..).2 ⟨_, rfl, rfl⟩⟩⟩

theorem Ships.recv {logMaxBatch : Nat} {s' : LogChannel} (hs : s.shipper = .selecting)
    (h : ∃ as, Runs.run (OrchestratorLogger.step logMaxBatch logMaxBuffer) .init as = some (s.logger false))
    (hr : s.recv logMaxBatch = some s') : s'.Ships logMaxBatch logMaxBuffer := by
  obtain ⟨as, has⟩ := h
  unfold LogChannel.recv at hr
  split at hr
  · rename_i x queue hq
    obtain rfl := Option.some.inj hr
    have hpush : (({ s with queue := queue }).receive x).logger false = (s.logger false).push x.entry := by
      simp [receive, logger, OrchestratorLogger.push, Event.map]
    have hlen : (({ s with queue := queue }).receive x).buffer.length = ((s.logger false).push x.entry).buffer.length := by
      simp [receive, logger, OrchestratorLogger.push]
    split
    · rename_i hbatch
      refine ships_flush .loop (fun ok => ?_)
      obtain ⟨bs, hbs⟩ := ships_step (.recv (some (.entry x.entry)) ok) has
      rw [OrchestratorLogger.handle, if_pos (hlen ▸ hbatch)] at hbs
      exact ⟨bs, by rw [logger_settle, hpush]; exact hbs⟩
    · rename_i hbatch
      obtain ⟨bs, hbs⟩ := ships_step (.recv (some (.entry x.entry)) true) has
      rw [OrchestratorLogger.handle, if_neg (hlen ▸ hbatch), ← hpush] at hbs
      simp only [Ships, receive, hs]
      exact ⟨bs, hbs⟩
  · obtain rfl := Option.some.inj hr
    refine ships_flush _ (fun ok => ?_)
    obtain ⟨bs, hbs⟩ := ships_step (.recv (some .flush) ok) has
    exact ⟨bs, by rw [logger_settle]; exact hbs⟩
  · split at hr
    · cases hr
    · obtain rfl := Option.some.inj hr
      refine ships_flush _ (fun ok => ?_)
      obtain ⟨bs, hbs⟩ := ships_step (.recv none ok) has
      exact ⟨bs, by rw [logger_settle]; exact hbs⟩

theorem Ships.selecting {logMaxBatch : Nat} (h : s.Ships logMaxBatch logMaxBuffer) (hs : s.shipper = .selecting) :
    ∃ as, Runs.run (OrchestratorLogger.step logMaxBatch logMaxBuffer) .init as = some (s.logger false) := by
  simpa only [Ships, hs] using h

/-- Messages sent and calls made do not touch the task. -/
theorem Ships.congr {logMaxBatch : Nat} {s' : LogChannel} (h : s.Ships logMaxBatch logMaxBuffer)
    (hs : s'.shipper = s.shipper) (hb : s'.buffer = s.buffer) (he : s'.events = s.events) :
    s'.Ships logMaxBatch logMaxBuffer := by
  unfold Ships settle logger at *
  rw [hs, hb, he]
  exact h

theorem Ships.step {logMaxBatch : Nat} {a : LogAction} {s' : LogChannel} (h : s.Ships logMaxBatch logMaxBuffer)
    (hstep : s.step logMaxBatch logMaxBuffer a = some s') : s'.Ships logMaxBatch logMaxBuffer := by
  cases stepped_of_step hstep with
  | calls calls hlen hc => exact h.congr rfl rfl rfl
  | sent entry hs => exact h.congr rfl rfl rfl
  | called hs => exact h.congr rfl rfl rfl
  | closed => exact h.congr rfl rfl rfl
  | spawned hs =>
    simp only [Ships, hs] at h ⊢
    exact h
  | received s' hs hr => exact Ships.recv hs (h.selecting hs) hr
  | ticked hs hb =>
    obtain ⟨as, has⟩ := h.selecting hs
    refine ships_flush .loop (fun ok => ?_)
    obtain ⟨bs, hbs⟩ := ships_step (.tick ok) has
    rw [OrchestratorLogger.handle, if_neg (by simpa [logger] using hb)] at hbs
    exact ⟨bs, by rw [logger_settle]; exact hbs⟩
  | answered a ok hs =>
    simp only [Ships, hs] at h
    cases a with
    | loop => exact h ok
    | ack call => exact h ok
    | finish => trivial
  | dropped hs => trivial

/-- **Whenever the task selects, its buffer and its events are those of the task that ships the device's log**, after some
messages and ticks of its own. -/
theorem run_ships {logMaxBatch : Nat} {as : List LogAction}
    (hrun : Runs.run (LogChannel.step logMaxBatch logMaxBuffer) .init as = some s) :
    s.Ships logMaxBatch logMaxBuffer :=
  Runs.run_invariant (fun _ _ _ h hstep => Ships.step h hstep) (s := init) ⟨[], rfl⟩ hrun

end LogChannel

open Shipping (Delivered Failed Evicted)

/-- **A flush acknowledgement covers everything sent before it**: each entry sent before the request has been pushed, and is
delivered, was evicted after a push that failed, or is still buffered after one.  Once the logger is dropped nobody waits.
-/
theorem flush_acknowledged_covers (logMaxBatch logMaxBuffer : Nat) (as : List LogAction) (s : LogChannel)
    (hrun : Runs.run (LogChannel.step logMaxBatch logMaxBuffer) .init as = some s) :
    s.sent.Nodup ∧
    (∀ call : Nat, s.calls[call]? = some .acknowledged → ∃ pre post, s.sent = pre ++ .flush call :: post ∧
      ∀ e, .entry e ∈ pre → (∃ entries ok, .pushed entries ok ∈ s.events ∧ e ∈ entries) ∧
        (Delivered s.events e ∨ Evicted logMaxBuffer s.events e ∨ (e ∈ s.buffer ∧ Failed s.events e))) ∧
    (s.shipper = .dropped → ∀ call : Nat, s.calls[call]? ≠ some .waiting) := by
  have hinv := LogChannel.inv_init.run hrun
  refine ⟨?_, fun call hc => ?_, hinv.dropped⟩
  · exact (Runs.run_invariant (I := LogChannel.Numbered) (fun _ _ _ hn h => hn.step h) LogChannel.numbered_init hrun).nodup
  · obtain ⟨pre, post, hsent, hpre⟩ := hinv.acked call hc
    exact ⟨pre, post, hsent, fun e he => ⟨(hpre e he).attempted, hpre e he⟩⟩

/-- Two calls: the first is answered after a push in vain, the second is in the queue when the logger is dropped. -/
def flushedInVain : List LogAction :=
  [.send (entryOf "a"), .callFlush, .send (entryOf "b"), .spawn, .recv, .recv, .callFlush, .answer false, .dropLogger]

theorem flush_acknowledged_covers_in_vain : ∃ s, Runs.run (LogChannel.step 10 10) .init flushedInVain = some s ∧
    s.calls = [.acknowledged, .closed] ∧ (∃ pre post, s.sent = pre ++ .flush 0 :: post ∧
      ∀ e, .entry e ∈ pre → (∃ entries ok, .pushed entries ok ∈ s.events ∧ e ∈ entries) ∧
        (Delivered s.events e ∨ Evicted 10 s.events e ∨ (e ∈ s.buffer ∧ Failed s.events e))) ∧
    ∀ call : Nat, s.calls[call]? ≠ some .waiting :=
  have h := flush_acknowledged_covers 10 10 flushedInVain _ rfl
  ⟨_, rfl, rfl, h.2.1 0 rfl, h.2.2 rfl⟩

end Logs
end ZeroDowntime
