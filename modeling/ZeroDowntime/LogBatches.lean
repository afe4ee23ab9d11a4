import ZeroDowntime.AppLogs
/-!
# LogBatches — how many entries one payload carries

`log_max_batch` decides when to flush, and a flush pushes all that is buffered.  A payload exceeds the batch exactly if an
entry arrives while its buffer holds a full batch, left there by a push that failed (`log_batches_iff`).
-/
namespace ZeroDowntime
namespace Logs

open Runs (run Along)
open Shipping (Event Fits)

/-! ## The device's own entries -/

/-- An entry finds less than a batch in the buffer. -/
def OrchestratorLogger.Room (logMaxBatch : Nat) (l : OrchestratorLogger) (a : ShipperAction) : Prop :=
  a.entry? = none ∨ l.buffer.length < logMaxBatch

instance (logMaxBatch : Nat) (l : OrchestratorLogger) (a : ShipperAction) : Decidable (l.Room logMaxBatch a) :=
  inferInstanceAs (Decidable (_ ∨ _))

structure OrchestratorLogger.Batched (logMaxBatch : Nat) (l : OrchestratorLogger) : Prop where
  fits : Fits logMaxBatch l.events
  buffered : l.buffer.length ≤ logMaxBatch

variable {logMaxBatch logMaxBuffer : Nat}

theorem OrchestratorLogger.fits_flush (n : Nat) (l : OrchestratorLogger) (ok : Bool) :
    Fits n (l.flush logMaxBuffer ok).events ↔ Fits n l.events ∧ l.buffer.length ≤ n := by
  rw [OrchestratorLogger.flush, Shipping.fits_append, Shipping.fits_flush]

theorem OrchestratorLogger.Batched.flush {l : OrchestratorLogger} (h : l.Batched logMaxBatch) (ok : Bool) :
    (l.flush logMaxBuffer ok).Batched logMaxBatch where
  fits := (l.fits_flush logMaxBatch ok).2 ⟨h.fits, h.buffered⟩
  buffered := Nat.le_trans (Shipping.flush_length_le_self logMaxBuffer ok l.buffer) h.buffered

theorem OrchestratorLogger.Batched.push {l : OrchestratorLogger} (h : l.Batched logMaxBatch) (entry : PostBodyItem)
    (hroom : l.buffer.length < logMaxBatch) : (l.push entry).Batched logMaxBatch where
  fits := (Shipping.fits_append _ _ _).2 ⟨h.fits, Shipping.fits_received _ entry⟩
  buffered := by rw [OrchestratorLogger.push, List.length_append]; exact hroom

/-- **With room for what arrives, every branch keeps to the batch.** -/
theorem OrchestratorLogger.Batched.handle {l : OrchestratorLogger} (h : l.Batched logMaxBatch) {a : ShipperAction}
    (hroom : l.Room logMaxBatch a) : (l.handle logMaxBatch logMaxBuffer a).Batched logMaxBatch := by
  cases a with
  | recv maybeMsg ok =>
    rcases maybeMsg with _ | entry | _
    · exact ⟨(h.flush ok).fits, (h.flush ok).buffered⟩
    · have hpush := h.push entry (hroom.resolve_left (Option.some_ne_none entry))
      rw [OrchestratorLogger.handle]
      split
      · exact hpush.flush ok
      · exact hpush
    · exact h.flush ok
  | tick ok =>
    rw [OrchestratorLogger.handle]
    split
    · exact h
    · exact h.flush ok

/-- **An entry that finds a full batch is pushed with it.** -/
theorem OrchestratorLogger.not_fits_of_not_room {l : OrchestratorLogger} {a : ShipperAction}
    (hroom : ¬ l.Room logMaxBatch a) : ¬ Fits logMaxBatch (l.handle logMaxBatch logMaxBuffer a).events := by
  obtain ⟨hentry, hfull⟩ := not_or.1 hroom
  rcases a with ⟨_ | entry | _, ok⟩ | ok
  · exact absurd rfl hentry
  · have hlen : (l.push entry).buffer.length = l.buffer.length + 1 := List.length_append
    rw [OrchestratorLogger.handle, if_pos (by omega), OrchestratorLogger.fits_flush]
    rintro ⟨-, hle⟩
    omega
  · exact absurd rfl hentry
  · exact absurd rfl hentry

theorem OrchestratorLogger.handle_of_step {l l' : OrchestratorLogger} {a : ShipperAction}
    (h : l.step logMaxBatch logMaxBuffer a = some l') : l.handle logMaxBatch logMaxBuffer a = l' := by
  unfold OrchestratorLogger.step at h
  split at h
  · cases h
  · exact Option.some.inj h

theorem device_batches_iff (logMaxBatch logMaxBuffer : Nat) {as : List ShipperAction} {l : OrchestratorLogger}
    (hrun : run (OrchestratorLogger.step logMaxBatch logMaxBuffer) .init as = some l) :
    (∀ pre post l₁, as = pre ++ post → run (OrchestratorLogger.step logMaxBatch logMaxBuffer) .init pre = some l₁ →
      Fits logMaxBatch l₁.events) ↔
    Along (OrchestratorLogger.step logMaxBatch logMaxBuffer) (OrchestratorLogger.Room logMaxBatch) .init as := by
  have hinit : OrchestratorLogger.init.Batched logMaxBatch := ⟨fun _ _ h => (nomatch h), Nat.zero_le _⟩
  refine Runs.safe_iff (J := OrchestratorLogger.Batched logMaxBatch) ?_ (fun _ h => h.fits) ?_ hinit hrun
  · intro l a l' h hroom hs
    exact OrchestratorLogger.handle_of_step hs ▸ h.handle hroom
  · intro l a l' _ hroom hs
    exact OrchestratorLogger.handle_of_step hs ▸ OrchestratorLogger.not_fits_of_not_room hroom

/-! ## The entries of the applications -/

/-- An entry finds less than a batch under its id. -/
def Registry.Room (logMaxBatch : Nat) (r : Registry) : RegistryAction → Prop
  | .item id (.ok _) _ _ => (r.bufferOf id).length < logMaxBatch
  | _ => True

instance (logMaxBatch : Nat) (r : Registry) : ∀ a, Decidable (r.Room logMaxBatch a)
  | .item id (.ok _) _ _ => inferInstanceAs (Decidable ((r.bufferOf id).length < logMaxBatch))
  | .item _ (.error _) _ _ | .add _ _ | .remove _ _ | .closed _ _ | .ended _ | .tick _ _ => .isTrue trivial

structure Registry.Batched (logMaxBatch : Nat) (r : Registry) (applicationId : Int) : Prop where
  fits : Fits logMaxBatch (eventsOf r.events applicationId)
  buffered : (r.bufferOf applicationId).length ≤ logMaxBatch

variable {r : Registry} {a : Int}

theorem Registry.Batched.flush (h : r.Batched logMaxBatch a) (id : Int) (ok : Bool) :
    (r.flush logMaxBuffer id ok).Batched logMaxBatch a := by
  by_cases ha : a = id
  · subst ha
    constructor
    · rw [eventsOf_flush_self, Shipping.fits_append, Shipping.fits_flush]
      exact ⟨h.fits, h.buffered⟩
    · rw [bufferOf_flush_self]
      exact Nat.le_trans (Shipping.flush_length_le_self logMaxBuffer ok _) h.buffered
  · constructor
    · rw [eventsOf_flush_ne ha]
      exact h.fits
    · rw [bufferOf_flush_ne ha]
      exact h.buffered

theorem Registry.Batched.flushAll (ok : Int → Bool) : ∀ (order : List Int) (r : Registry), r.Batched logMaxBatch a →
    (r.flushAll logMaxBuffer ok order).Batched logMaxBatch a
  | [], _, h => h
  | id :: order, r, h => by
    rw [Registry.flushAll]
    split
    · exact Registry.Batched.flushAll ok order r h
    · exact Registry.Batched.flushAll ok order _ (h.flush id (ok id))

theorem Registry.Batched.push (h : r.Batched logMaxBatch a) (id : Int) (entry : PostBodyItem)
    (hroom : (r.bufferOf id).length < logMaxBatch) : (r.push id entry).Batched logMaxBatch a := by
  by_cases ha : a = id
  · subst ha
    constructor
    · rw [eventsOf_push_self, Shipping.fits_append]
      exact ⟨h.fits, Shipping.fits_received _ entry⟩
    · rw [bufferOf_push_self, List.length_append]
      exact hroom
  · constructor
    · rw [eventsOf_push_ne ha]
      exact h.fits
    · rw [bufferOf_push_ne ha]
      exact h.buffered

theorem Registry.Batched.removeBuffer (h : r.Batched logMaxBatch a) (id : Int) (ok : Bool) :
    (r.removeBuffer logMaxBuffer id ok).Batched logMaxBatch a := by
  by_cases ha : a = id
  · subst ha
    constructor
    · rw [eventsOf_removeBuffer, Shipping.fits_append, Shipping.fits_flush]
      exact ⟨h.fits, h.buffered⟩
    · rw [bufferOf_removeBuffer]
      exact Nat.zero_le _
  · constructor
    · rw [eventsOf_removeBuffer_ne ha]
      exact h.fits
    · rw [bufferOf_removeBuffer_ne ha]
      exact h.buffered

/-- **With room for what arrives, every branch keeps to the batch**, under each id. -/
theorem Registry.Batched.handle (h : r.Batched logMaxBatch a) {act : RegistryAction}
    (hroom : r.Room logMaxBatch act) : (r.handle logMaxBatch logMaxBuffer act).Batched logMaxBatch a := by
  cases act with
  | add id name => exact ⟨h.fits, h.buffered⟩
  | remove id ok =>
    have h' : Registry.Batched logMaxBatch { r with streams := r.streams.erase id, names := r.names.erase id } a :=
      ⟨h.fits, h.buffered⟩
    exact h'.removeBuffer id ok
  | closed order ok => exact ⟨(h.flushAll ok order r).fits, Nat.zero_le _⟩
  | item id result now ok =>
    cases result with
    | error e => exact h
    | ok chunk =>
      have hpush := h.push id (r.entry id chunk now) hroom
      simp only [Registry.handle]
      split
      · exact hpush.flush id ok
      · exact hpush
  | ended id => exact ⟨h.fits, h.buffered⟩
  | tick order ok => exact .flushAll ok order r h

/-- **An entry that finds a full batch under its id is pushed with it.** -/
theorem Registry.not_fits_of_not_room (logMaxBuffer : Nat) {act : RegistryAction} (hroom : ¬ r.Room logMaxBatch act) :
    ∃ id, ¬ Fits logMaxBatch (eventsOf (r.handle logMaxBatch logMaxBuffer act).events id) := by
  cases act with
  | item id result now ok =>
    cases result with
    | error e => exact absurd trivial hroom
    | ok chunk =>
      have hfull : logMaxBatch ≤ (r.bufferOf id).length := Nat.le_of_not_lt hroom
      have hlen : ((r.push id (r.entry id chunk now)).bufferOf id).length = (r.bufferOf id).length + 1 := by
        rw [bufferOf_push_self, List.length_append]
        rfl
      refine ⟨id, ?_⟩
      simp only [Registry.handle]
      rw [if_pos (by omega), eventsOf_flush_self, Shipping.fits_append, Shipping.fits_flush]
      rintro ⟨-, hle⟩
      omega
  | _ => exact absurd trivial hroom

theorem app_batches_iff (logMaxBatch logMaxBuffer : Nat) {as : List RegistryAction} {r : Registry}
    (hrun : run (Registry.step logMaxBatch logMaxBuffer) .init as = some r) :
    (∀ pre post r₁, as = pre ++ post → run (Registry.step logMaxBatch logMaxBuffer) .init pre = some r₁ →
      ∀ applicationId, Fits logMaxBatch (eventsOf r₁.events applicationId)) ↔
    Along (Registry.step logMaxBatch logMaxBuffer) (Registry.Room logMaxBatch) .init as := by
  have hinit : ∀ a, Registry.init.Batched logMaxBatch a := fun a => ⟨fun _ _ h => (nomatch h), Nat.zero_le _⟩
  refine Runs.safe_iff (J := fun r => ∀ a, r.Batched logMaxBatch a) ?_ (fun _ h a => (h a).fits) ?_ hinit hrun
  · intro r act r' h hroom hs a
    exact handle_of_step hs ▸ (h a).handle hroom
  · intro r act r' _ hroom hs hfits
    obtain ⟨id, hbad⟩ := Registry.not_fits_of_not_room logMaxBuffer hroom
    exact hbad (handle_of_step hs ▸ hfits id)

/-! ## Both tasks -/

/-- **No payload of the device or of an application carries more than `log_max_batch` entries, exactly if no entry arrives
while its buffer holds a full batch.**  What a failed push leaves in the buffer counts. -/
theorem log_batches_iff (logMaxBatch logMaxBuffer : Nat) :
    (∀ as l, run (OrchestratorLogger.step logMaxBatch logMaxBuffer) .init as = some l →
      ((∀ pre post l₁, as = pre ++ post → run (OrchestratorLogger.step logMaxBatch logMaxBuffer) .init pre = some l₁ →
        Fits logMaxBatch l₁.events) ↔
      Along (OrchestratorLogger.step logMaxBatch logMaxBuffer) (OrchestratorLogger.Room logMaxBatch) .init as)) ∧
    (∀ as r, run (Registry.step logMaxBatch logMaxBuffer) .init as = some r →
      ((∀ pre post r₁, as = pre ++ post → run (Registry.step logMaxBatch logMaxBuffer) .init pre = some r₁ →
        ∀ applicationId, Fits logMaxBatch (eventsOf r₁.events applicationId)) ↔
      Along (Registry.step logMaxBatch logMaxBuffer) (Registry.Room logMaxBatch) .init as)) :=
  ⟨fun _ _ hrun => device_batches_iff logMaxBatch logMaxBuffer hrun,
    fun _ _ hrun => app_batches_iff logMaxBatch logMaxBuffer hrun⟩

/-- Two lines of application 1 in batches of two, the API answering with `ok`, and one more. -/
def lines (ok : Bool) : List RegistryAction :=
  [.add 1 "app".toList, .item 1 (.ok (chunkOf "a")) 0 true, .item 1 (.ok (chunkOf "b")) 0 ok,
    .item 1 (.ok (chunkOf "c")) 0 true]

theorem log_batches_answered :
    (∃ l, run (OrchestratorLogger.step 2 1) .init outage = some l ∧ Fits 2 l.events) ∧
    ∃ r, run (Registry.step 2 100) .init (lines true) = some r ∧ ∀ applicationId, Fits 2 (eventsOf r.events applicationId) :=
  ⟨⟨_, rfl, ((log_batches_iff 2 1).1 outage _ rfl).2 (by decide) outage [] _ (List.append_nil _).symm rfl⟩,
    ⟨_, rfl, ((log_batches_iff 2 100).2 (lines true) _ rfl).2 (by decide) (lines true) [] _ rfl rfl⟩⟩

/-- **After one failed push the next payload carries three entries in batches of two**, on either way. -/
theorem failed_push_overfills :
    (∃ l, run (OrchestratorLogger.step 2 100) .init [.recv (some (.entry (entryOf "a"))) true,
        .recv (some (.entry (entryOf "b"))) false, .recv (some (.entry (entryOf "c"))) true] = some l ∧
      .pushed [entryOf "a", entryOf "b", entryOf "c"] true ∈ l.events ∧ ¬ Fits 2 l.events) ∧
    ∃ r, run (Registry.step 2 100) .init (lines false) = some r ∧ ¬ Fits 2 (eventsOf r.events 1) :=
  ⟨⟨_, rfl, by decide, fun h => absurd (h [entryOf "a", entryOf "b", entryOf "c"] true (by decide)) (by decide)⟩,
    ⟨_, rfl, fun h => absurd (h _ true (.tail _ (.tail _ (.tail _ (.tail _ (.head _)))))) (by decide)⟩⟩

end Logs
end ZeroDowntime
