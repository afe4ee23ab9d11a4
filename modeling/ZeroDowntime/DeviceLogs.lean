import ZeroDowntime.Runs
import ZeroDowntime.Shipping
/-!
# DeviceLogs — the task that ships the device's own log entries

Entries and flush requests come over one channel.  The task flushes when the buffer has reached a batch, on a request, at
a tick with entries buffered, and a last time when the channel is closed.
-/
namespace ZeroDowntime
namespace Logs

open Runs (run)
open Shipping (Event Accounted Justified)

inductive LogLevel
  | trace
  | debug
  | info
  | warn
  | error
  | fatal
  deriving DecidableEq, Repr

/-- An entry as it is sent to the API; `time` counts from the epoch. -/
structure PostBodyItem where
  time : Option Int
  level : LogLevel
  message : List Char
  source : Option (List Char)
  deriving DecidableEq, Repr

inductive LogMessage
  | entry (entry : PostBodyItem)
  | flush
  deriving DecidableEq, Repr

/-- The task, with all it has received, pushed and dropped so far. -/
structure OrchestratorLogger where
  buffer : List PostBodyItem
  events : List (Event PostBodyItem)
  returned : Bool
  deriving DecidableEq, Repr

def OrchestratorLogger.init : OrchestratorLogger := ⟨[], [], false⟩

/-- The branch of `select!` that completes: a message, the closed channel (`none`), or the tick; with what the API answers
if it is pushed to. -/
inductive ShipperAction
  | recv (maybeMsg : Option LogMessage) (ok : Bool)
  | tick (ok : Bool)
  deriving DecidableEq, Repr

def OrchestratorLogger.push (l : OrchestratorLogger) (entry : PostBodyItem) : OrchestratorLogger :=
  { l with buffer := l.buffer ++ [entry], events := l.events ++ [.received entry] }

def OrchestratorLogger.flush (l : OrchestratorLogger) (maxBuffer : Nat) (ok : Bool) : OrchestratorLogger :=
  { l with
    buffer := (Shipping.flush maxBuffer ok l.buffer).2
    events := l.events ++ (Shipping.flush maxBuffer ok l.buffer).1 }

def OrchestratorLogger.handle (logMaxBatch logMaxBuffer : Nat) (l : OrchestratorLogger) :
    ShipperAction → OrchestratorLogger
  | .recv (some (.entry entry)) ok =>
    if logMaxBatch ≤ (l.push entry).buffer.length then (l.push entry).flush logMaxBuffer ok else l.push entry
  | .recv (some .flush) ok => l.flush logMaxBuffer ok
  | .recv none ok => { l.flush logMaxBuffer ok with returned := true }
  | .tick ok => if l.buffer.isEmpty then l else l.flush logMaxBuffer ok

def OrchestratorLogger.step (logMaxBatch logMaxBuffer : Nat) (l : OrchestratorLogger) (a : ShipperAction) :
    Option OrchestratorLogger :=
  if l.returned then none else some (l.handle logMaxBatch logMaxBuffer a)

/-! ## What the task keeps -/

structure Shipped (logMaxBatch logMaxBuffer : Nat) (l : OrchestratorLogger) : Prop where
  accounted : Accounted l.events l.buffer
  justified : Justified logMaxBuffer l.events
  bounded : l.buffer.length ≤ max logMaxBuffer (logMaxBatch - 1)

variable {logMaxBatch logMaxBuffer : Nat} {l l' : OrchestratorLogger}

theorem Shipped.flush (ha : Accounted l.events l.buffer) (hj : Justified logMaxBuffer l.events) (ok : Bool) :
    Shipped logMaxBatch logMaxBuffer (l.flush logMaxBuffer ok) where
  accounted := ha.flush logMaxBuffer ok
  justified := hj.append logMaxBuffer (Shipping.justified_flush logMaxBuffer ok l.buffer)
  bounded := Nat.le_trans (Shipping.flush_length_le logMaxBuffer ok l.buffer) (Nat.le_max_left _ _)

/-- **Every branch keeps the account**; a buffer that is not flushed holds less than a batch. -/
theorem Shipped.handle (h : Shipped logMaxBatch logMaxBuffer l) (a : ShipperAction) :
    Shipped logMaxBatch logMaxBuffer (l.handle logMaxBatch logMaxBuffer a) := by
  cases a with
  | recv maybeMsg ok =>
    have hflush : Shipped logMaxBatch logMaxBuffer (l.flush logMaxBuffer ok) := .flush h.accounted h.justified ok
    rcases maybeMsg with _ | entry | _
    · exact ⟨hflush.accounted, hflush.justified, hflush.bounded⟩
    · have hpush : Accounted (l.push entry).events (l.push entry).buffer := h.accounted.receive entry
      have hjust : Justified logMaxBuffer (l.push entry).events :=
        h.justified.append logMaxBuffer (Shipping.justified_received logMaxBuffer entry)
      by_cases hb : logMaxBatch ≤ (l.push entry).buffer.length
      · rw [OrchestratorLogger.handle, if_pos hb]
        exact .flush hpush hjust ok
      · rw [OrchestratorLogger.handle, if_neg hb]
        exact ⟨hpush, hjust, by omega⟩
    · exact hflush
  | tick ok =>
    by_cases he : l.buffer.isEmpty = true
    · rw [OrchestratorLogger.handle, if_pos he]
      exact h
    · rw [OrchestratorLogger.handle, if_neg he]
      exact .flush h.accounted h.justified ok

theorem Shipped.step (h : Shipped logMaxBatch logMaxBuffer l) {a : ShipperAction}
    (hs : l.step logMaxBatch logMaxBuffer a = some l') : Shipped logMaxBatch logMaxBuffer l' := by
  unfold OrchestratorLogger.step at hs
  split at hs
  · cases hs
  · exact Option.some.inj hs ▸ h.handle a

theorem Shipped.run {as : List ShipperAction} (h : Shipped logMaxBatch logMaxBuffer l)
    (hr : Runs.run (OrchestratorLogger.step logMaxBatch logMaxBuffer) l as = some l') :
    Shipped logMaxBatch logMaxBuffer l' :=
  Runs.run_invariant (fun _ _ _ h hs => h.step hs) h hr

/-! ## What was received -/

def ShipperAction.entry? : ShipperAction → Option PostBodyItem
  | .recv (some (.entry entry)) _ => some entry
  | _ => none

theorem received_flush (ok : Bool) :
    Shipping.received (l.flush logMaxBuffer ok).events = Shipping.received l.events := by
  rw [OrchestratorLogger.flush, Shipping.received_append, Shipping.received_flush, List.append_nil]

theorem received_handle (a : ShipperAction) : Shipping.received (l.handle logMaxBatch logMaxBuffer a).events
    = Shipping.received l.events ++ a.entry?.toList := by
  cases a with
  | recv maybeMsg ok =>
    rcases maybeMsg with _ | entry | _
    · exact (received_flush ok).trans (List.append_nil _).symm
    · have hpush : Shipping.received (l.push entry).events = Shipping.received l.events ++ [entry] :=
        Shipping.received_append _ _
      by_cases hb : logMaxBatch ≤ (l.push entry).buffer.length
      · rw [OrchestratorLogger.handle, if_pos hb, received_flush, hpush]
        rfl
      · rw [OrchestratorLogger.handle, if_neg hb, hpush]
        rfl
    · exact (received_flush ok).trans (List.append_nil _).symm
  | tick ok =>
    rw [OrchestratorLogger.handle]
    split
    · exact (List.append_nil _).symm
    · exact (received_flush ok).trans (List.append_nil _).symm

theorem received_run : ∀ (as : List ShipperAction) (l l' : OrchestratorLogger),
    run (OrchestratorLogger.step logMaxBatch logMaxBuffer) l as = some l' →
      Shipping.received l'.events = Shipping.received l.events ++ as.filterMap ShipperAction.entry?
  | [], _, _, hr => Option.some.inj hr ▸ (List.append_nil _).symm
  | a :: as, l, l', hr => by
    obtain ⟨l₁, h₁, hr⟩ := (Runs.run_cons_eq_some _ l l' a as).1 hr
    unfold OrchestratorLogger.step at h₁
    split at h₁
    · cases h₁
    · rw [received_run as l₁ l' hr, ← Option.some.inj h₁, received_handle, List.append_assoc]
      cases ha : a.entry? <;> simp [ha]

/-- **The entries received so far are the segments that were delivered or evicted, in order, and then the buffer**;
whatever was evicted stood at the front of a buffer over `log_max_buffer` whose push had just failed; and the buffer holds
at most `log_max_buffer`, or less than a batch.  This is so after every message and every tick, whatever was pushed in
vain, also when the closed channel ends the task. -/
theorem device_logs_accounted (logMaxBatch logMaxBuffer : Nat) (as : List ShipperAction) (l : OrchestratorLogger)
    (hrun : run (OrchestratorLogger.step logMaxBatch logMaxBuffer) .init as = some l) :
    as.filterMap ShipperAction.entry? = (Shipping.segments l.events).flatMap Shipping.Segment.entries ++ l.buffer ∧
    Justified logMaxBuffer l.events ∧ l.buffer.length ≤ max logMaxBuffer (logMaxBatch - 1) := by
  have hinit : Shipped logMaxBatch logMaxBuffer .init :=
    ⟨Shipping.accounted_nil, Shipping.justified_nil logMaxBuffer, Nat.zero_le _⟩
  have h := hinit.run hrun
  exact ⟨(received_run as _ l hrun).symm.trans h.accounted, h.justified, h.bounded⟩

def entryOf (message : String) : PostBodyItem := ⟨some 0, .info, message.toList, none⟩

/-- Four entries, batches of two, a buffer of one: the second push fails and costs an entry, the third succeeds. -/
def outage : List ShipperAction :=
  [.recv (some (.entry (entryOf "a"))) true, .recv (some (.entry (entryOf "b"))) true,
    .recv (some (.entry (entryOf "c"))) false, .recv (some (.entry (entryOf "d"))) false, .tick false,
    .recv (some .flush) true, .recv none true]

theorem device_logs_accounted_outage : ∃ l, run (OrchestratorLogger.step 2 1) .init outage = some l ∧
    outage.filterMap ShipperAction.entry? = (Shipping.segments l.events).flatMap Shipping.Segment.entries ++ l.buffer :=
  ⟨_, rfl, (device_logs_accounted 2 1 outage _ rfl).1⟩

example : (run (OrchestratorLogger.step 2 1) .init outage).map (fun l => (Shipping.segments l.events, l.buffer))
    = some ([.delivered [entryOf "a", entryOf "b"], .evicted [entryOf "c"], .delivered [entryOf "d"]], []) := by decide

end Logs
end ZeroDowntime
