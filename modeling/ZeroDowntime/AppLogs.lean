import Mathlib.Data.List.AList
import ZeroDowntime.DeviceLogs
/-!
# AppLogs — the task that ships the log entries of the applications

One task reads the streams of all applications and keeps a buffer for each application id.  A removal takes the buffer out
of the map, tries one last push, and forgets what is left: entries are lost exactly there (`app_logs_accounted_iff`).
-/
namespace ZeroDowntime
namespace Logs

open Runs (run Along)
open Shipping (Event Accounted Justified)

inductive LogStreamKind
  | stdout
  | stderr
  deriving DecidableEq, Repr

structure LogChunk where
  stream : LogStreamKind
  time : Option Int
  message : List Char
  deriving DecidableEq, Repr

def streamToLevel : LogStreamKind → LogLevel
  | .stdout => .info
  | .stderr => .error

/-- The task, with what it has received, pushed and dropped so far under each application id. -/
structure Registry where
  streams : List Int
  buffers : AList (fun _ : Int => List PostBodyItem)
  names : AList (fun _ : Int => List Char)
  events : List (Int × Event PostBodyItem)
  returned : Bool

def Registry.init : Registry := ⟨[], ∅, ∅, [], false⟩

/-- The branch of `select!` that completes: a command (`closed` where every handle is dropped), an item or the end of a
stream, or the tick.  `ok` is what the API answers a push with; a map is gone through in any order. -/
inductive RegistryAction
  | add (applicationId : Int) (name : List Char)
  | remove (applicationId : Int) (ok : Bool)
  | closed (order : List Int) (ok : Int → Bool)
  | item (applicationId : Int) (result : Except String LogChunk) (now : Int) (ok : Bool)
  | ended (applicationId : Int)
  | tick (order : List Int) (ok : Int → Bool)

def Registry.bufferOf (r : Registry) (applicationId : Int) : List PostBodyItem := (r.buffers.lookup applicationId).getD []

/-- `flush_application_logs`: the events under the id, and what is left of the buffer. -/
def flushApplicationLogs (maxBuffer : Nat) (applicationId : Int) (ok : Bool) (buffer : List PostBodyItem) :
    List (Int × Event PostBodyItem) × List PostBodyItem :=
  ((Shipping.flush maxBuffer ok buffer).1.map (applicationId, ·), (Shipping.flush maxBuffer ok buffer).2)

/-- A buffer is taken out, flushed and put back. -/
def Registry.flush (maxBuffer : Nat) (r : Registry) (applicationId : Int) (ok : Bool) : Registry :=
  { r with
    events := r.events ++ (flushApplicationLogs maxBuffer applicationId ok (r.bufferOf applicationId)).1
    buffers := r.buffers.insert applicationId
      (flushApplicationLogs maxBuffer applicationId ok (r.bufferOf applicationId)).2 }

def Registry.flushAll (maxBuffer : Nat) (ok : Int → Bool) : List Int → Registry → Registry
  | [], r => r
  | id :: order, r => Registry.flushAll maxBuffer ok order
      (if (r.bufferOf id).isEmpty then r else r.flush maxBuffer id (ok id))

def Registry.push (r : Registry) (applicationId : Int) (entry : PostBodyItem) : Registry :=
  { r with
    events := r.events ++ [(applicationId, .received entry)]
    buffers := r.buffers.insert applicationId (r.bufferOf applicationId ++ [entry]) }

/-- The buffer is taken out of the map and flushed; what is left of it is not put back. -/
def Registry.removeBuffer (maxBuffer : Nat) (r : Registry) (applicationId : Int) (ok : Bool) : Registry :=
  { r with
    events := r.events ++ (flushApplicationLogs maxBuffer applicationId ok (r.bufferOf applicationId)).1
    buffers := r.buffers.erase applicationId }

def Registry.entry (r : Registry) (applicationId : Int) (chunk : LogChunk) (now : Int) : PostBodyItem where
  time := chunk.time.or (some now)
  level := streamToLevel chunk.stream
  message := chunk.message
  source := r.names.lookup applicationId

def Registry.handle (logMaxBatch logMaxBuffer : Nat) (r : Registry) : RegistryAction → Registry
  | .add id name => { r with streams := r.streams.insert id, names := r.names.insert id name }
  | .remove id ok =>
    { r with streams := r.streams.erase id, names := r.names.erase id }.removeBuffer logMaxBuffer id ok
  | .closed order ok => { r.flushAll logMaxBuffer ok order with buffers := ∅, returned := true }
  | .item id (.ok chunk) now ok =>
    let r' := r.push id (r.entry id chunk now)
    if logMaxBatch ≤ (r'.bufferOf id).length then r'.flush logMaxBuffer id ok else r'
  | .item _ (.error _) _ _ => r
  | .ended id => { r with streams := r.streams.erase id }
  | .tick order ok => r.flushAll logMaxBuffer ok order

/-- An item comes from a registered stream, and a map is gone through once. -/
def RegistryAction.Possible (r : Registry) : RegistryAction → Prop
  | .item id _ _ _ => id ∈ r.streams
  | .ended id => id ∈ r.streams
  | .tick order _ => order.Perm r.buffers.keys
  | .closed order _ => order.Perm r.buffers.keys
  | _ => True

instance (r : Registry) : ∀ a, Decidable (RegistryAction.Possible r a)
  | .item id _ _ _ => inferInstanceAs (Decidable (id ∈ r.streams))
  | .ended id => inferInstanceAs (Decidable (id ∈ r.streams))
  | .tick order _ => inferInstanceAs (Decidable (order.Perm r.buffers.keys))
  | .closed order _ => inferInstanceAs (Decidable (order.Perm r.buffers.keys))
  | .add _ _ | .remove _ _ => .isTrue trivial

def Registry.step (logMaxBatch logMaxBuffer : Nat) (r : Registry) (a : RegistryAction) : Option Registry :=
  if r.returned = false ∧ a.Possible r then some (r.handle logMaxBatch logMaxBuffer a) else none

/-! ## The books of one application -/

def eventsOf (events : List (Int × Event PostBodyItem)) (applicationId : Int) : List (Event PostBodyItem) :=
  events.filterMap fun p => if p.1 = applicationId then some p.2 else none

/-- What was received under the id is accounted for, and every eviction is justified. -/
structure Books (maxBuffer : Nat) (r : Registry) (applicationId : Int) : Prop where
  accounted : Accounted (eventsOf r.events applicationId) (r.bufferOf applicationId)
  justified : Justified maxBuffer (eventsOf r.events applicationId)

/-- A buffer with entries that is removed is delivered, or nothing of it may be kept. -/
def Settles (maxBuffer : Nat) (r : Registry) : RegistryAction → Prop
  | .remove id ok => r.bufferOf id = [] ∨ ok = true ∨ maxBuffer = 0
  | _ => True

instance (maxBuffer : Nat) (r : Registry) : ∀ a, Decidable (Settles maxBuffer r a)
  | .remove id ok => inferInstanceAs (Decidable (r.bufferOf id = [] ∨ ok = true ∨ maxBuffer = 0))
  | .add _ _ | .closed _ _ | .item _ _ _ _ | .ended _ | .tick _ _ => .isTrue trivial

/-- Some registry handle is alive. -/
def RegistryAction.alive : RegistryAction → Bool
  | .closed _ _ => false
  | _ => true

variable {maxBuffer : Nat} {r : Registry}

theorem eventsOf_append (es fs : List (Int × Event PostBodyItem)) (a : Int) :
    eventsOf (es ++ fs) a = eventsOf es a ++ eventsOf fs a :=
  List.filterMap_append

theorem eventsOf_map_self (a : Int) (es : List (Event PostBodyItem)) : eventsOf (es.map (a, ·)) a = es := by
  unfold eventsOf
  rw [List.filterMap_map]
  simp

theorem eventsOf_map_ne {a id : Int} (h : a ≠ id) (es : List (Event PostBodyItem)) :
    eventsOf (es.map (id, ·)) a = [] := by
  unfold eventsOf
  rw [List.filterMap_map, List.filterMap_eq_nil_iff]
  intro e _
  exact if_neg (Ne.symm h)

theorem bufferOf_insert_self (a : Int) (buffer : List PostBodyItem) (es : List (Int × Event PostBodyItem)) :
    Registry.bufferOf { r with events := es, buffers := r.buffers.insert a buffer } a = buffer := by
  rw [Registry.bufferOf, AList.lookup_insert]
  rfl

theorem bufferOf_insert_ne {a id : Int} (h : a ≠ id) (buffer : List PostBodyItem)
    (es : List (Int × Event PostBodyItem)) :
    Registry.bufferOf { r with events := es, buffers := r.buffers.insert id buffer } a = r.bufferOf a := by
  rw [Registry.bufferOf, AList.lookup_insert_ne h]
  rfl

theorem eventsOf_flush_self (a : Int) (ok : Bool) : eventsOf (r.flush maxBuffer a ok).events a
    = eventsOf r.events a ++ (Shipping.flush maxBuffer ok (r.bufferOf a)).1 := by
  rw [Registry.flush, eventsOf_append, flushApplicationLogs, eventsOf_map_self]

theorem eventsOf_flush_ne {a id : Int} (ha : a ≠ id) (ok : Bool) :
    eventsOf (r.flush maxBuffer id ok).events a = eventsOf r.events a := by
  rw [Registry.flush, eventsOf_append, flushApplicationLogs, eventsOf_map_ne ha, List.append_nil]

theorem bufferOf_flush_self (a : Int) (ok : Bool) :
    (r.flush maxBuffer a ok).bufferOf a = (Shipping.flush maxBuffer ok (r.bufferOf a)).2 := by
  rw [Registry.flush, bufferOf_insert_self]
  rfl

theorem bufferOf_flush_ne {a id : Int} (ha : a ≠ id) (ok : Bool) :
    (r.flush maxBuffer id ok).bufferOf a = r.bufferOf a := by
  rw [Registry.flush, bufferOf_insert_ne ha]

theorem eventsOf_push_self (a : Int) (entry : PostBodyItem) :
    eventsOf (r.push a entry).events a = eventsOf r.events a ++ [.received entry] := by
  rw [Registry.push, eventsOf_append]
  exact congrArg _ (eventsOf_map_self a [.received entry])

theorem eventsOf_push_ne {a id : Int} (ha : a ≠ id) (entry : PostBodyItem) :
    eventsOf (r.push id entry).events a = eventsOf r.events a := by
  rw [Registry.push, eventsOf_append,
    show eventsOf [(id, .received entry)] a = [] from eventsOf_map_ne ha [.received entry], List.append_nil]

theorem bufferOf_push_self (a : Int) (entry : PostBodyItem) :
    (r.push a entry).bufferOf a = r.bufferOf a ++ [entry] := by
  rw [Registry.push, bufferOf_insert_self]

theorem bufferOf_push_ne {a id : Int} (ha : a ≠ id) (entry : PostBodyItem) :
    (r.push id entry).bufferOf a = r.bufferOf a := by
  rw [Registry.push, bufferOf_insert_ne ha]

theorem eventsOf_removeBuffer (id : Int) (ok : Bool) : eventsOf (r.removeBuffer maxBuffer id ok).events id
    = eventsOf r.events id ++ (Shipping.flush maxBuffer ok (r.bufferOf id)).1 := by
  rw [Registry.removeBuffer, eventsOf_append, flushApplicationLogs, eventsOf_map_self]

theorem eventsOf_removeBuffer_ne {a id : Int} (ha : a ≠ id) (ok : Bool) :
    eventsOf (r.removeBuffer maxBuffer id ok).events a = eventsOf r.events a := by
  rw [Registry.removeBuffer, eventsOf_append, flushApplicationLogs, eventsOf_map_ne ha, List.append_nil]

theorem bufferOf_removeBuffer (id : Int) (ok : Bool) : (r.removeBuffer maxBuffer id ok).bufferOf id = [] := by
  rw [Registry.bufferOf, Registry.removeBuffer, AList.lookup_erase]
  rfl

theorem bufferOf_removeBuffer_ne {a id : Int} (ha : a ≠ id) (ok : Bool) :
    (r.removeBuffer maxBuffer id ok).bufferOf a = r.bufferOf a := by
  rw [Registry.bufferOf, Registry.removeBuffer, AList.lookup_erase_ne ha]
  rfl

theorem Books.flush {a : Int} (h : Books maxBuffer r a) (id : Int) (ok : Bool) :
    Books maxBuffer (r.flush maxBuffer id ok) a := by
  by_cases ha : a = id
  · subst ha
    constructor
    · rw [eventsOf_flush_self, bufferOf_flush_self]
      exact h.accounted.flush maxBuffer ok
    · rw [eventsOf_flush_self]
      exact h.justified.append maxBuffer (Shipping.justified_flush maxBuffer ok _)
  · constructor
    · rw [eventsOf_flush_ne ha, bufferOf_flush_ne ha]
      exact h.accounted
    · rw [eventsOf_flush_ne ha]
      exact h.justified

theorem Books.flushAll {a : Int} (ok : Int → Bool) : ∀ (order : List Int) (r : Registry), Books maxBuffer r a →
    Books maxBuffer (r.flushAll maxBuffer ok order) a
  | [], _, h => h
  | id :: order, r, h => by
    rw [Registry.flushAll]
    split
    · exact Books.flushAll ok order r h
    · exact Books.flushAll ok order _ (h.flush id (ok id))

theorem Books.push {a : Int} (h : Books maxBuffer r a) (id : Int) (entry : PostBodyItem) :
    Books maxBuffer (r.push id entry) a := by
  by_cases ha : a = id
  · subst ha
    constructor
    · rw [eventsOf_push_self, bufferOf_push_self]
      exact h.accounted.receive entry
    · rw [eventsOf_push_self]
      exact h.justified.append maxBuffer (Shipping.justified_received maxBuffer entry)
  · constructor
    · rw [eventsOf_push_ne ha, bufferOf_push_ne ha]
      exact h.accounted
    · rw [eventsOf_push_ne ha]
      exact h.justified

/-- **A removal keeps the books exactly if the flush left nothing.** -/
theorem accounted_removeBuffer_iff {id : Int} {ok : Bool} (h : Accounted (eventsOf r.events id) (r.bufferOf id)) :
    Accounted (eventsOf (r.removeBuffer maxBuffer id ok).events id) ((r.removeBuffer maxBuffer id ok).bufferOf id) ↔
      r.bufferOf id = [] ∨ ok = true ∨ maxBuffer = 0 := by
  rw [eventsOf_removeBuffer, bufferOf_removeBuffer, ← Shipping.flush_eq_nil maxBuffer ok (r.bufferOf id)]
  have hflush := h.flush maxBuffer ok
  unfold Accounted at *
  rw [List.append_nil]
  constructor
  · intro hnil
    exact List.self_eq_append_right.1 (hnil.symm.trans hflush)
  · intro hnil
    rw [hnil, List.append_nil] at hflush
    exact hflush

theorem Books.removeBuffer {a : Int} (h : Books maxBuffer r a) (id : Int) (ok : Bool)
    (hs : r.bufferOf id = [] ∨ ok = true ∨ maxBuffer = 0) : Books maxBuffer (r.removeBuffer maxBuffer id ok) a := by
  by_cases ha : a = id
  · subst ha
    refine ⟨(accounted_removeBuffer_iff h.accounted).2 hs, ?_⟩
    rw [eventsOf_removeBuffer]
    exact h.justified.append maxBuffer (Shipping.justified_flush maxBuffer ok _)
  · constructor
    · rw [eventsOf_removeBuffer_ne ha, bufferOf_removeBuffer_ne ha]
      exact h.accounted
    · rw [eventsOf_removeBuffer_ne ha]
      exact h.justified

/-- **Every branch but a removal keeps the books**, and a removal does if the buffer is settled by it. -/
theorem Books.handle {logMaxBatch : Nat} {a : Int} (h : Books maxBuffer r a) {act : RegistryAction}
    (hs : Settles maxBuffer r act) (halive : act.alive = true) : Books maxBuffer (r.handle logMaxBatch maxBuffer act) a := by
  cases act with
  | add id name => exact ⟨h.accounted, h.justified⟩
  | remove id ok =>
    have h' : Books maxBuffer { r with streams := r.streams.erase id, names := r.names.erase id } a :=
      ⟨h.accounted, h.justified⟩
    exact h'.removeBuffer id ok hs
  | closed order ok => cases halive
  | item id result now ok =>
    cases result with
    | error e => exact h
    | ok chunk =>
      simp only [Registry.handle]
      split
      · exact (h.push id _).flush id ok
      · exact h.push id _
  | ended id => exact ⟨h.accounted, h.justified⟩
  | tick order ok => exact .flushAll ok order r h

/-! ## What was read -/

def PostBodyItem.content (e : PostBodyItem) : Option Int × LogLevel × List Char := (e.time, e.level, e.message)

/-- What the action reads from a stream registered under the id. -/
def RegistryAction.read? (applicationId : Int) : RegistryAction → Option (Option Int × LogLevel × List Char)
  | .item id (.ok chunk) now _ =>
    if id = applicationId then some (chunk.time.or (some now), streamToLevel chunk.stream, chunk.message) else none
  | _ => none

def Registry.receivedOf (r : Registry) (applicationId : Int) : List (Option Int × LogLevel × List Char) :=
  (Shipping.received (eventsOf r.events applicationId)).map PostBodyItem.content

theorem receivedOf_append {r' : Registry} {es : List (Event PostBodyItem)} {id : Int}
    (h : r'.events = r.events ++ es.map (id, ·)) (hes : Shipping.received es = []) (a : Int) :
    r'.receivedOf a = r.receivedOf a := by
  have hnone : Shipping.received (eventsOf (es.map (id, ·)) a) = [] := by
    by_cases ha : a = id
    · rw [ha, eventsOf_map_self, hes]
    · rw [eventsOf_map_ne ha]
      rfl
  rw [Registry.receivedOf, h, eventsOf_append, Shipping.received_append, hnone, List.append_nil]
  rfl

theorem receivedOf_flush (id : Int) (ok : Bool) (a : Int) : (r.flush maxBuffer id ok).receivedOf a = r.receivedOf a :=
  receivedOf_append rfl (Shipping.received_flush maxBuffer ok _) a

theorem receivedOf_flushAll (ok : Int → Bool) (a : Int) : ∀ (order : List Int) (r : Registry),
    (r.flushAll maxBuffer ok order).receivedOf a = r.receivedOf a
  | [], _ => rfl
  | id :: order, r => by
    rw [Registry.flushAll, receivedOf_flushAll ok a order]
    split
    · rfl
    · exact receivedOf_flush id (ok id) a

theorem receivedOf_push (id : Int) (entry : PostBodyItem) (a : Int) :
    (r.push id entry).receivedOf a = r.receivedOf a ++ if id = a then [entry.content] else [] := by
  rw [Registry.receivedOf, Registry.push, eventsOf_append, Shipping.received_append, List.map_append]
  by_cases ha : id = a
  · rw [if_pos ha, ha]
    refine congrArg (r.receivedOf a ++ ·) ?_
    rw [show eventsOf [(a, .received entry)] a = [.received entry] from eventsOf_map_self a [.received entry]]
    rfl
  · rw [if_neg ha]
    refine congrArg (r.receivedOf a ++ ·) ?_
    rw [show eventsOf [(id, .received entry)] a = [] from eventsOf_map_ne (Ne.symm ha) [.received entry]]
    rfl

theorem receivedOf_handle {logMaxBatch : Nat} (a : Int) (act : RegistryAction) :
    (r.handle logMaxBatch maxBuffer act).receivedOf a = r.receivedOf a ++ (act.read? a).toList := by
  cases act with
  | add id name => exact (List.append_nil _).symm
  | remove id ok =>
    exact (receivedOf_append rfl (Shipping.received_flush maxBuffer ok _) a).trans (List.append_nil _).symm
  | closed order ok => exact (receivedOf_flushAll ok a order r).trans (List.append_nil _).symm
  | item id result now ok =>
    cases result with
    | error e => exact (List.append_nil _).symm
    | ok chunk =>
      have hpush : (r.push id (r.entry id chunk now)).receivedOf a
          = r.receivedOf a ++ ((RegistryAction.item id (.ok chunk) now ok).read? a).toList := by
        rw [receivedOf_push, RegistryAction.read?]
        split <;> rfl
      simp only [Registry.handle]
      split
      · exact (receivedOf_flush id ok a).trans hpush
      · exact hpush
  | ended id => exact (List.append_nil _).symm
  | tick order ok => exact (receivedOf_flushAll ok a order r).trans (List.append_nil _).symm

theorem receivedOf_run {logMaxBatch : Nat} (a : Int) : ∀ (as : List RegistryAction) (r r' : Registry),
    run (Registry.step logMaxBatch maxBuffer) r as = some r' →
      r'.receivedOf a = r.receivedOf a ++ as.filterMap (RegistryAction.read? a)
  | [], _, _, hr => Option.some.inj hr ▸ (List.append_nil _).symm
  | act :: as, r, r', hr => by
    obtain ⟨r₁, h₁, hr⟩ := (Runs.run_cons_eq_some _ r r' act as).1 hr
    unfold Registry.step at h₁
    split at h₁
    · rw [receivedOf_run a as r₁ r' hr, ← Option.some.inj h₁, receivedOf_handle, List.append_assoc]
      cases ha : act.read? a <;> simp [ha]
    · cases h₁

/-! ## Whole runs -/

/-- What the run has read under the id is what was received, and the books of the id are right. -/
structure AccountedFor (maxBuffer : Nat) (as : List RegistryAction) (r : Registry) (applicationId : Int) : Prop where
  read : as.filterMap (RegistryAction.read? applicationId) = r.receivedOf applicationId
  books : Books maxBuffer r applicationId

theorem handle_of_step {logMaxBatch : Nat} {act : RegistryAction} {r' : Registry}
    (h : r.step logMaxBatch maxBuffer act = some r') : r.handle logMaxBatch maxBuffer act = r' := by
  unfold Registry.step at h
  split at h
  · exact Option.some.inj h
  · cases h

theorem books_run {logMaxBatch : Nat} (a : Int) : ∀ (as : List RegistryAction) (r r' : Registry),
    Along (Registry.step logMaxBatch maxBuffer) (Settles maxBuffer) r as → (∀ act ∈ as, act.alive = true) →
    Books maxBuffer r a → run (Registry.step logMaxBatch maxBuffer) r as = some r' → Books maxBuffer r' a
  | [], _, _, _, _, h, hr => Option.some.inj hr ▸ h
  | act :: as, r, r', hs, halive, h, hr => by
    obtain ⟨r₁, h₁, hr⟩ := (Runs.run_cons_eq_some _ r r' act as).1 hr
    refine books_run a as r₁ r' (hs.2 r₁ h₁) (fun b hb => halive b (List.mem_cons_of_mem _ hb)) ?_ hr
    exact handle_of_step h₁ ▸ h.handle hs.1 (halive act (List.mem_cons_self ..))

/-- **While a handle is alive: what was read under each application id is delivered, evicted or buffered at every point of
the run, in order, exactly if every removal of a buffer with entries delivers it (or nothing may be kept).** -/
theorem app_logs_accounted_iff (logMaxBatch logMaxBuffer : Nat) (as : List RegistryAction) (r : Registry)
    (hrun : run (Registry.step logMaxBatch logMaxBuffer) .init as = some r) (halive : ∀ act ∈ as, act.alive = true) :
    (∀ pre post r₁, as = pre ++ post → run (Registry.step logMaxBatch logMaxBuffer) .init pre = some r₁ →
      ∀ applicationId, AccountedFor logMaxBuffer pre r₁ applicationId) ↔
    Along (Registry.step logMaxBatch logMaxBuffer) (Settles logMaxBuffer) .init as := by
  constructor
  · intro h
    refine (Runs.along_or_break (Settles logMaxBuffer) as _).resolve_right ?_
    rintro ⟨pre, act, post, r₁, rfl, -, hpre, hbad⟩
    obtain ⟨r₁', hpre', hpost⟩ := (Runs.run_append_eq_some _ r _ pre _).1 hrun
    obtain rfl := Option.some.inj (hpre.symm.trans hpre')
    obtain ⟨r₂, h₂, -⟩ := (Runs.run_cons_eq_some _ r₁ r act post).1 hpost
    cases act with
    | remove id ok =>
      have hbefore := (h pre _ r₁ rfl hpre id).books.accounted
      have hstep : run (Registry.step logMaxBatch logMaxBuffer) .init (pre ++ [.remove id ok]) = some r₂ :=
        (Runs.run_append_eq_some _ r₂ _ pre _).2 ⟨r₁, hpre, (Runs.run_cons_eq_some ..).2 ⟨r₂, h₂, rfl⟩⟩
      have hafter := (h (pre ++ [.remove id ok]) post r₂ (by simp) hstep id).books.accounted
      rw [← handle_of_step h₂] at hafter
      exact hbad ((accounted_removeBuffer_iff
        (r := { r₁ with streams := r₁.streams.erase id, names := r₁.names.erase id }) hbefore).1 hafter)
    | _ => exact hbad trivial
  · rintro hs pre post r₁ rfl hpre applicationId
    have hbooks : Books logMaxBuffer .init applicationId :=
      ⟨Shipping.accounted_nil, Shipping.justified_nil logMaxBuffer⟩
    refine ⟨((receivedOf_run applicationId pre _ r₁ hpre).trans (List.nil_append _)).symm, ?_⟩
    exact books_run applicationId pre _ r₁ ((Runs.along_append post pre _).1 hs).1
      (fun act hact => halive act (List.mem_append_left _ hact)) hbooks hpre

def chunkOf (message : String) : LogChunk := ⟨.stdout, some 0, message.toList⟩

/-- Application 1 logs a line and is removed; the API answers the last push with `ok`. -/
def removed (ok : Bool) : List RegistryAction :=
  [.add 1 "app".toList, .item 1 (.ok (chunkOf "bye")) 0 true, .remove 1 ok]

theorem app_logs_accounted_delivered : ∃ r, run (Registry.step 10 100) .init (removed true) = some r ∧
    AccountedFor 100 (removed true) r 1 :=
  ⟨_, rfl, (app_logs_accounted_iff 10 100 (removed true) _ rfl (by decide)).2 (by decide) (removed true) [] _ rfl rfl 1⟩

/-- **The last line of a removed application is neither delivered nor evicted, and no longer buffered.** -/
theorem removal_loses_entry : ∃ r, run (Registry.step 10 100) .init (removed false) = some r ∧
    (removed false).filterMap (RegistryAction.read? 1) = [(some 0, .info, "bye".toList)] ∧
    Shipping.segments (eventsOf r.events 1) = [] ∧ r.bufferOf 1 = [] ∧ ¬ AccountedFor 100 (removed false) r 1 :=
  ⟨_, rfl, rfl, rfl, rfl, fun h => absurd h.books.accounted (by decide)⟩

end Logs
end ZeroDowntime
