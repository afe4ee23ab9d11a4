import Mathlib.Data.List.Forall2
import ZeroDowntime.ApiLogStream
import ZeroDowntime.LogFlush
/-!
# LogPath — an entry's way from the device's log to the table

Each push of the shipper is a request.  It may reach the server late, after the device has given it up, or never; the
server stores what arrives, and the answer may get lost.  Meanwhile entries are logged, other devices push, streams come
and go, and old chunks are dropped.
-/
namespace ZeroDowntime

open Api (DeviceLogModel Draw InsertOutcome LogServer TsDb)
open Broadcast (Channel)
open Logs (LogChannel SentEntry)
open Runs (run)

/-! ## What the shipper holds -/

namespace Logs

def Message.entry? : Message → Option SentEntry
  | .entry e => some e
  | .flush _ => none

def Shipper.isPushing : Shipper → Bool
  | .pushing _ => true
  | _ => false

namespace LogChannel

/-- The entries that are neither delivered nor evicted, the oldest first. -/
def live (s : LogChannel) : List SentEntry := s.buffer ++ s.queue.filterMap Message.entry?

/-- The task goes on, or drops the queue; the buffer is what it was. -/
theorem proceed_frame (s : LogChannel) (a : After) : (s.proceed a).buffer = s.buffer ∧ (s.proceed a).events = s.events ∧
    (s.proceed a).live.Sublist s.live ∧ (s.proceed a).shipper.isPushing = false := by
  cases a with
  | loop => exact ⟨rfl, rfl, List.Sublist.refl _, rfl⟩
  | ack call => exact ⟨rfl, rfl, List.Sublist.refl _, rfl⟩
  | finish => exact ⟨rfl, rfl, (List.Sublist.refl s.buffer).append (List.nil_sublist _), rfl⟩

/-- What a flush begins: a push of the whole buffer, or nothing. -/
theorem flush_frame (s : LogChannel) (a : After) : (s.flush a).buffer = s.buffer ∧ (s.flush a).events = s.events ∧
    (s.flush a).live.Sublist s.live := by
  unfold flush
  split
  · obtain ⟨h₁, h₂, h₃, -⟩ := s.proceed_frame a
    exact ⟨h₁, h₂, h₃⟩
  · exact ⟨rfl, rfl, List.Sublist.refl _⟩

/-- A message goes from the queue to the buffer. -/
theorem recv_frame {s s' : LogChannel} {logMaxBatch : Nat} (h : s.recv logMaxBatch = some s') :
    s'.live.Sublist s.live ∧ ∀ entries, .pushed entries true ∈ s'.events → .pushed entries true ∈ s.events := by
  unfold recv at h
  split at h
  · rename_i e queue hq
    have hlive : (({ s with queue := queue }).receive e).live = s.live := by
      unfold live receive
      rw [hq]
      simp [Message.entry?]
    have hev : ∀ entries, .pushed entries true ∈ (({ s with queue := queue }).receive e).events →
        .pushed entries true ∈ s.events := fun entries hp =>
      (List.mem_append.1 hp).elim id (fun hp => by cases List.mem_singleton.1 hp)
    obtain rfl := Option.some.inj h
    split
    · obtain ⟨-, h₂, h₃⟩ := (({ s with queue := queue }).receive e).flush_frame .loop
      exact ⟨hlive ▸ h₃, h₂.symm ▸ hev⟩
    · exact ⟨hlive ▸ List.Sublist.refl _, hev⟩
  · rename_i call queue hq
    have hlive : ({ s with queue := queue } : LogChannel).live = s.live := by
      unfold live
      rw [hq]
      rfl
    obtain rfl := Option.some.inj h
    obtain ⟨-, h₂, h₃⟩ := ({ s with queue := queue } : LogChannel).flush_frame (.ack call)
    exact ⟨hlive ▸ h₃, fun _ hp => h₂ ▸ hp⟩
  · split at h
    · cases h
    · obtain rfl := Option.some.inj h
      obtain ⟨-, h₂, h₃⟩ := s.flush_frame .finish
      exact ⟨h₃, fun _ hp => h₂ ▸ hp⟩

/-- While no answer comes, a step loses nothing the shipper holds but by dropping it, an entry it adds has the next place,
and nothing is delivered; a push under way keeps the buffer. -/
structure Quietly (s s' : LogChannel) : Prop where
  sent : s.sent.length ≤ s'.sent.length
  live : s'.live.Sublist s.live ∨
    ∃ entry, s'.live = s.live ++ [⟨s.sent.length, entry⟩] ∧ s.sent.length < s'.sent.length
  delivered : ∀ entries, .pushed entries true ∈ s'.events → .pushed entries true ∈ s.events
  pushing : s.shipper.isPushing = true → s'.shipper.isPushing = true → s'.buffer = s.buffer

/-- The shipper's entries stay in order, and a new one has the next place. -/
theorem Quietly.live_sorted {c c' : LogChannel} (hq : Quietly c c')
    (hsorted : c.live.Pairwise (fun e e' => e.place < e'.place)) (hbelow : ∀ e ∈ c.live, e.place < c.sent.length) :
    c'.live.Pairwise (fun e e' => e.place < e'.place) ∧ (∀ e ∈ c'.live, e.place < c'.sent.length) ∧
      ∀ e ∈ c'.live, e ∈ c.live ∨ e.place = c.sent.length := by
  rcases hq.live with hsub | ⟨entry, heq, hlt⟩
  · exact ⟨hsorted.sublist hsub, fun e he => Nat.lt_of_lt_of_le (hbelow e (hsub.subset he)) hq.sent,
      fun e he => .inl (hsub.subset he)⟩
  · rw [heq]
    refine ⟨List.pairwise_append.2 ⟨hsorted, List.pairwise_singleton _ _, fun e he e' he' => ?_⟩, fun e he => ?_,
      fun e he => ?_⟩
    · obtain rfl := List.mem_singleton.1 he'
      exact hbelow e he
    · rcases List.mem_append.1 he with he | he
      · exact Nat.lt_trans (hbelow e he) hlt
      · exact List.mem_singleton.1 he ▸ hlt
    · exact (List.mem_append.1 he).imp id (fun he => congrArg SentEntry.place (List.mem_singleton.1 he))

theorem quietly_step {logMaxBatch logMaxBuffer : Nat} {s s' : LogChannel} {a : LogAction}
    (h : s.step logMaxBatch logMaxBuffer a = some s') (ha : ∀ ok, a ≠ .answer ok) : Quietly s s' := by
  have hsent : s.sent.length ≤ s'.sent.length := by
    rcases step_sent h with ⟨heq, -⟩ | ⟨entry, heq, -⟩ | ⟨heq, -⟩
    · exact Nat.le_of_eq (congrArg List.length heq).symm
    · rw [heq, List.length_append]; exact Nat.le_add_right _ _
    · rw [heq, List.length_append]; exact Nat.le_add_right _ _
  have hselecting : s.shipper = .selecting → ¬ s.shipper.isPushing = true := fun hs hp => by rw [hs] at hp; cases hp
  cases a with
  | send entry =>
    simp only [step] at h
    split at h
    · cases h
    split at h
    · obtain rfl := Option.some.inj h
      exact ⟨hsent, .inl (List.Sublist.refl _), fun _ hp => hp, fun _ _ => rfl⟩
    · obtain rfl := Option.some.inj h
      refine ⟨hsent, .inr ⟨entry, ?_, ?_⟩, fun _ hp => hp, fun _ _ => rfl⟩
      · unfold live enqueue
        simp [Message.entry?]
      · unfold enqueue
        simp
  | callFlush =>
    simp only [step] at h
    split at h
    · cases h
    split at h
    · obtain rfl := Option.some.inj h
      exact ⟨hsent, .inl (List.Sublist.refl _), fun _ hp => hp, fun _ _ => rfl⟩
    · obtain rfl := Option.some.inj h
      have hlive : (s.enqueue (.flush s.calls.length)).live = s.live := by
        unfold live enqueue
        simp [Message.entry?]
      exact ⟨hsent, .inl (hlive ▸ List.Sublist.refl _), fun _ hp => hp, fun _ _ => rfl⟩
  | cancel call =>
    simp only [step] at h
    split at h
    · obtain rfl := Option.some.inj h
      exact ⟨hsent, .inl (List.Sublist.refl _), fun _ hp => hp, fun _ _ => rfl⟩
    · cases h
  | dropSenders =>
    simp only [step] at h
    split at h
    · cases h
    · obtain rfl := Option.some.inj h
      exact ⟨hsent, .inl (List.Sublist.refl _), fun _ hp => hp, fun _ _ => rfl⟩
  | spawn =>
    simp only [step] at h
    split at h
    · obtain rfl := Option.some.inj h
      exact ⟨hsent, .inl (List.Sublist.refl _), fun _ hp => hp, fun _ _ => rfl⟩
    · cases h
  | recv =>
    simp only [step] at h
    split at h
    · rename_i hs
      obtain ⟨hlive, hev⟩ := recv_frame h
      exact ⟨hsent, .inl hlive, hev, fun hp => absurd hp (hselecting hs)⟩
    · cases h
  | tick =>
    simp only [step] at h
    split at h
    · rename_i hs
      split at h
      · obtain rfl := Option.some.inj h
        exact ⟨hsent, .inl (List.Sublist.refl _), fun _ hp => hp, fun _ _ => rfl⟩
      · obtain rfl := Option.some.inj h
        obtain ⟨-, h₂, h₃⟩ := s.flush_frame .loop
        exact ⟨hsent, .inl h₃, fun _ hp => h₂ ▸ hp, fun hp => absurd hp (hselecting hs)⟩
    · cases h
  | answer ok => exact absurd rfl (ha ok)
  | dropLogger =>
    simp only [step] at h
    split at h
    · cases h
    · obtain rfl := Option.some.inj h
      exact ⟨hsent, .inl ((List.Sublist.refl s.buffer).append (List.nil_sublist _)), fun _ hp => hp, fun _ _ => rfl⟩

/-- **An answer settles the push**: all of the buffer if it is good, else the front of it if it is too long. -/
theorem answer_step {logMaxBatch logMaxBuffer : Nat} {s s' : LogChannel} {ok : Bool}
    (h : s.step logMaxBatch logMaxBuffer (.answer ok) = some s') : s.shipper.isPushing = true ∧
      s'.shipper.isPushing = false ∧ s'.sent = s.sent ∧ s'.live.Sublist s.live ∧
      (ok = true → s'.live.Sublist (s.queue.filterMap Message.entry?)) ∧
      ∀ entries, .pushed entries true ∈ s'.events → .pushed entries true ∈ s.events ∨ (ok = true ∧ entries = s.buffer) := by
  simp only [step] at h
  split at h
  · rename_i after hs
    obtain rfl := Option.some.inj h
    obtain ⟨-, h₂, h₃, h₄⟩ := (s.settle logMaxBuffer ok).proceed_frame after
    have hbuf : (s.settle logMaxBuffer ok).buffer.Sublist s.buffer := by
      have hparts := Shipping.segments_flush logMaxBuffer ok s.buffer
      exact hparts ▸ List.sublist_append_right _ _
    refine ⟨by rw [hs]; rfl, h₄, (quiet_proceed (s.settle logMaxBuffer ok) after).1, ?_, fun hok => ?_, fun entries hp => ?_⟩
    · exact h₃.trans (hbuf.append (List.Sublist.refl _))
    · have hnil : (s.settle logMaxBuffer ok).buffer = [] :=
        (Shipping.flush_eq_nil logMaxBuffer ok s.buffer).2 (.inr (.inl hok))
      refine h₃.trans ?_
      unfold live
      rw [hnil]
      exact List.Sublist.refl _
    · rw [h₂] at hp
      refine (List.mem_append.1 hp).imp id (fun hp => ?_)
      exact Shipping.pushed_of_mem_flush hp
  · cases h

end LogChannel

end Logs

/-! ## The device, the requests and the server -/

/-- A push: what it carries, how the server has handled it if it has arrived, and whether the device has been told that it
is stored. -/
structure PushRequest where
  entries : List SentEntry
  outcome : Option InsertOutcome
  acknowledged : Bool
  deriving DecidableEq, Repr

def PushRequest.isStored (r : PushRequest) : Bool := decide (r.outcome = some .answered ∨ r.outcome = some .unanswered)

/-- `stored` is what the requests carried that were stored, in the order in which they were. -/
structure LogPath (C : Channel Api.LogEvent 1024) where
  device : LogChannel
  requests : List PushRequest
  server : LogServer C
  stored : List (List SentEntry)

inductive PathAction
  /-- Whatever happens on the device, but for the answer to a push. -/
  | device (a : Logs.LogAction)
  /-- A request arrives and is handled. -/
  | arrive (request : Nat) (draws : List Draw) (outcome : InsertOutcome)
  /-- The push under way ends: with CREATED, or in any other way. -/
  | answer (ok : Bool)
  /-- Whatever else the server does. -/
  | server (a : Api.LogAction)

/-- Not a push of the device's own log. -/
def Api.LogAction.foreign (deviceId : Int) : Api.LogAction → Bool
  | .post device applicationId _ _ => decide (device ≠ deviceId) || applicationId.isSome
  | _ => true

namespace LogPath

variable {C : Channel Api.LogEvent 1024} (deviceId : Int) (column : Int → Int) (logMaxBatch logMaxBuffer : Nat)

def init : LogPath C := ⟨.init, [], .init, []⟩

/-- The request of a push that has begun. -/
def begun (device device' : LogChannel) : List PushRequest :=
  if !device.shipper.isPushing && device'.shipper.isPushing then [⟨device'.buffer, none, false⟩] else []

def bodyOf (entries : List SentEntry) (draws : List Draw) : List (Logs.PostBodyItem × Draw) :=
  (entries.map SentEntry.entry).zip draws

/-- How the handler ends: an INSERT that violates a constraint has failed. -/
def outcomeOf (s : LogPath C) (entries : List SentEntry) (draws : List Draw) (outcome : InsertOutcome) : InsertOutcome :=
  if (s.server.db.insert column deviceId none (bodyOf entries draws)).isSome then outcome else .failed

def arrive (s : LogPath C) (request : Nat) (r : PushRequest) (draws : List Draw) (outcome : InsertOutcome) : LogPath C :=
  { s with
    server := s.server.post column deviceId none (bodyOf r.entries draws) outcome
    requests := s.requests.set request { r with outcome := some (outcomeOf deviceId column s r.entries draws outcome) }
    stored := if outcomeOf deviceId column s r.entries draws outcome = .failed then s.stored else s.stored ++ [r.entries] }

def step (s : LogPath C) : PathAction → Option (LogPath C)
  | .device (.answer _) => none
  | .device a => (s.device.step logMaxBatch logMaxBuffer a).map (fun device =>
      { s with
        device
        requests := s.requests ++ begun s.device device })
  | .arrive request draws outcome =>
    match s.requests[request]? with
    | none => none
    | some r =>
      if r.outcome = none ∧ draws.length = r.entries.length then some (s.arrive deviceId column request r draws outcome)
      else none
  | .answer ok =>
    match s.requests[s.requests.length - 1]? with
    | none => none
    | some r =>
      if ok = true ∧ r.outcome ≠ some .answered then none
      else (s.device.step logMaxBatch logMaxBuffer (.answer ok)).map (fun device =>
        { s with
          device
          requests := s.requests.set (s.requests.length - 1) { r with acknowledged := ok } })
  | .server a =>
    if a.foreign deviceId then (s.server.step column a).map (fun server => { s with server }) else none

/-! ## What is acknowledged is pushed no more -/

def Before (entries entries' : List SentEntry) : Prop := ∀ e ∈ entries, ∀ e' ∈ entries', e.place < e'.place

/-- The entries are pushed in the order of their places.  A request that is acknowledged has been stored, and neither a later
one nor the shipper has any of its entries. -/
structure Ordered (s : LogPath C) : Prop where
  live : s.device.live.Pairwise (fun e e' => e.place < e'.place)
  below : ∀ e ∈ s.device.live, e.place < s.device.sent.length
  sorted : ∀ r ∈ s.requests, r.entries.Pairwise (fun e e' => e.place < e'.place)
  requested : ∀ r ∈ s.requests, ∀ e ∈ r.entries, e.place < s.device.sent.length
  apart : ∀ (i j : Nat) r r', i < j → s.requests[i]? = some r → s.requests[j]? = some r' → r.acknowledged = true →
    Before r.entries r'.entries
  ahead : ∀ r ∈ s.requests, r.acknowledged = true → Before r.entries s.device.live
  pushing : s.device.shipper.isPushing = true → ∃ r, s.requests[s.requests.length - 1]? = some r ∧
    r.entries = s.device.buffer ∧ r.acknowledged = false
  delivered : ∀ entries, .pushed entries true ∈ s.device.events → ∃ r ∈ s.requests,
    r.acknowledged = true ∧ r.entries = entries
  seen : ∀ r ∈ s.requests, r.acknowledged = true → r.outcome = some .answered

variable {deviceId column logMaxBatch logMaxBuffer} {s s' : LogPath C}

theorem Ordered.init : Ordered (LogPath.init : LogPath C) where
  live := List.Pairwise.nil
  below := fun _ h => absurd h List.not_mem_nil
  sorted := fun _ h => absurd h List.not_mem_nil
  requested := fun _ h => absurd h List.not_mem_nil
  apart := fun _ _ _ _ _ h => absurd h.symm (Option.some_ne_none _)
  ahead := fun _ h => absurd h List.not_mem_nil
  pushing := fun h => absurd h Bool.false_ne_true
  delivered := fun _ h => absurd h List.not_mem_nil
  seen := fun _ h => absurd h List.not_mem_nil

theorem mem_begun {device device' : LogChannel} {r : PushRequest} (h : r ∈ begun device device') :
    r = ⟨device'.buffer, none, false⟩ ∧ begun device device' = [⟨device'.buffer, none, false⟩] := by
  unfold begun at h ⊢
  split at h
  · rename_i hb
    exact ⟨List.mem_singleton.1 h, if_pos hb⟩
  · cases h

theorem buffer_sublist (c : LogChannel) : c.buffer.Sublist c.live := List.sublist_append_left _ _

/-- The requests with the one that has begun. -/
theorem getElem?_begun {requests : List PushRequest} {device device' : LogChannel} {i : Nat} {r : PushRequest}
    (h : (requests ++ begun device device')[i]? = some r) :
    requests[i]? = some r ∨ (i = requests.length ∧ r = ⟨device'.buffer, none, false⟩) := by
  cases hb : begun device device' with
  | nil =>
    rw [hb, List.append_nil] at h
    exact .inl h
  | cons x xs =>
    obtain ⟨rfl, hx⟩ := mem_begun (hb ▸ List.mem_cons_self : x ∈ begun device device')
    rw [hx] at h
    exact Arrivals.of_concat h

theorem Ordered.device (h : Ordered s) {device : LogChannel} (hq : LogChannel.Quietly s.device device) :
    Ordered { s with device, requests := s.requests ++ begun s.device device } := by
  obtain ⟨hsorted, hbelow, hnew⟩ := hq.live_sorted h.live h.below
  have hahead : ∀ r ∈ s.requests, r.acknowledged = true → Before r.entries device.live := fun r hr hack e he e' he' =>
    (hnew e' he').elim (h.ahead r hr hack e he e') (fun heq => heq ▸ h.requested r hr e he)
  refine ⟨hsorted, hbelow, fun r hr => ?_, fun r hr e he => ?_, ?_, fun r hr hack => ?_, fun hp => ?_,
    fun entries hp => ?_, fun r hr hack => ?_⟩
  · rcases List.mem_append.1 hr with hr | hr
    · exact h.sorted r hr
    · obtain ⟨rfl, -⟩ := mem_begun hr
      exact hsorted.sublist (buffer_sublist device)
  · rcases List.mem_append.1 hr with hr | hr
    · exact Nat.lt_of_lt_of_le (h.requested r hr e he) hq.sent
    · obtain ⟨rfl, -⟩ := mem_begun hr
      exact hbelow e ((buffer_sublist device).subset he)
  · intro i j r r' hij hi hj hack
    rcases getElem?_begun hi with hi | ⟨-, rfl⟩
    · rcases getElem?_begun hj with hj | ⟨-, rfl⟩
      · exact h.apart i j r r' hij hi hj hack
      · exact fun e he e' he' => hahead r (List.mem_of_getElem? hi) hack e he e' ((buffer_sublist device).subset he')
    · cases hack
  · rcases List.mem_append.1 hr with hr | hr
    · exact hahead r hr hack
    · obtain ⟨rfl, -⟩ := mem_begun hr
      cases hack
  · cases hold : s.device.shipper.isPushing with
    | true =>
      obtain ⟨r, hr, hbuf, hack⟩ := h.pushing hold
      have hnone : begun s.device device = [] := by
        unfold begun
        rw [hold]
        rfl
      refine ⟨r, ?_, hbuf.trans (hq.pushing hold hp).symm, hack⟩
      dsimp only
      rw [hnone, List.append_nil, hr]
    | false =>
      have hone : begun s.device device = [⟨device.buffer, none, false⟩] := by
        unfold begun
        rw [hold, hp]
        rfl
      refine ⟨⟨device.buffer, none, false⟩, ?_, rfl, rfl⟩
      dsimp only
      rw [hone, List.length_append, List.length_singleton, Nat.add_sub_cancel, List.getElem?_append_right (Nat.le_refl _),
        Nat.sub_self]
      rfl
  · obtain ⟨r, hr, hack⟩ := h.delivered entries (hq.delivered entries hp)
    exact ⟨r, List.mem_append_left _ hr, hack⟩
  · rcases List.mem_append.1 hr with hr | hr
    · exact h.seen r hr hack
    · obtain ⟨rfl, -⟩ := mem_begun hr
      cases hack

theorem mem_set {requests : List PushRequest} {i : Nat} {r r' x : PushRequest} (hr : requests[i]? = some r)
    (h : x ∈ requests.set i r') : x = r' ∨ (x ∈ requests ∧ ∃ j, j ≠ i ∧ requests[j]? = some x) := by
  obtain ⟨j, hj⟩ := List.mem_iff_getElem?.1 h
  rw [Arrivals.getElem?_set requests i j r r' hr] at hj
  split at hj
  · exact .inl (Option.some.inj hj).symm
  · rename_i hne
    exact .inr ⟨List.mem_of_getElem? hj, j, fun heq => hne heq.symm, hj⟩

/-- A request that changes keeps what it carries; it is the last one if it is acknowledged now. -/
theorem Ordered.set (h : Ordered s) {i : Nat} {r : PushRequest} (hr : s.requests[i]? = some r) (r' : PushRequest)
    (hent : r'.entries = r.entries) (hseen : r'.acknowledged = true → r'.outcome = some .answered)
    {device : LogChannel} (hsent : device.sent = s.device.sent) (hlive : device.live.Sublist s.device.live)
    (hnow : r'.acknowledged = true → r.acknowledged = true ∨
      (i = s.requests.length - 1 ∧ Before r.entries device.live))
    (hpush : device.shipper.isPushing = true → ∃ r, (s.requests.set i r')[s.requests.length - 1]? = some r ∧
      r.entries = device.buffer ∧ r.acknowledged = false)
    (hdel : ∀ entries, .pushed entries true ∈ device.events → ∃ r ∈ s.requests.set i r',
      r.acknowledged = true ∧ r.entries = entries) (server : LogServer C) (stored : List (List SentEntry)) :
    Ordered ⟨device, s.requests.set i r', server, stored⟩ := by
  have hmem := List.mem_of_getElem? hr
  refine ⟨h.live.sublist hlive, fun e he => hsent ▸ h.below e (hlive.subset he), fun x hx => ?_, fun x hx e he => ?_, ?_,
    fun x hx hack e he e' he' => ?_, fun hp => ?_, hdel, fun x hx hack => ?_⟩
  · rcases mem_set hr hx with rfl | ⟨hx, -⟩
    · exact hent ▸ h.sorted r hmem
    · exact h.sorted x hx
  · rcases mem_set hr hx with rfl | ⟨hx, -⟩
    · exact hsent ▸ h.requested r hmem e (hent ▸ he)
    · exact hsent ▸ h.requested x hx e he
  · intro a b x y hab ha hb hack
    dsimp only at ha hb
    rw [Arrivals.getElem?_set _ _ _ _ _ hr] at ha hb
    split at ha
    · -- the changed request is not the last one, so it was acknowledged before
      rename_i hia
      obtain rfl := Option.some.inj ha
      rw [if_neg (fun hib => Nat.ne_of_lt hab (hia.symm.trans hib))] at hb
      have hlt := (List.getElem?_eq_some_iff.1 hb).1
      rw [hent]
      exact h.apart a b r y hab (hia ▸ hr) hb ((hnow hack).resolve_right (fun hlast => by omega))
    · split at hb
      · rename_i hib
        obtain rfl := Option.some.inj hb
        rw [hent]
        exact h.apart a b x r hab ha (hib ▸ hr) hack
      · exact h.apart a b x y hab ha hb hack
  · rcases mem_set hr hx with rfl | ⟨hx, -⟩
    · rw [hent] at he
      rcases hnow hack with hack | ⟨-, hbefore⟩
      · exact h.ahead r hmem hack e he e' (hlive.subset he')
      · exact hbefore e he e' he'
    · exact h.ahead x hx hack e he e' (hlive.subset he')
  · dsimp only
    rw [List.length_set]
    exact hpush hp
  · rcases mem_set hr hx with rfl | ⟨hx, -⟩
    · exact hseen hack
    · exact h.seen x hx hack

theorem Ordered.arrive (h : Ordered s) {i : Nat} {r : PushRequest} (hr : s.requests[i]? = some r) (hnone : r.outcome = none)
    (draws : List Draw) (outcome : InsertOutcome) : Ordered (s.arrive deviceId column i r draws outcome) := by
  have hfresh : r.acknowledged = true → False := fun hack => by
    rw [h.seen r (List.mem_of_getElem? hr) hack] at hnone
    cases hnone
  have hold : ∀ (o : Option InsertOutcome) (k : Nat) x, s.requests[k]? = some x →
      ∃ x', (s.requests.set i { r with outcome := o })[k]? = some x' ∧ x'.entries = x.entries ∧
        x'.acknowledged = x.acknowledged := by
    intro o k x hx
    rw [Arrivals.getElem?_set _ _ _ _ _ hr]
    split
    · rename_i hik
      obtain rfl := Option.some.inj (hr.symm.trans (hik ▸ hx))
      exact ⟨_, rfl, rfl, rfl⟩
    · exact ⟨x, hx, rfl, rfl⟩
  refine h.set hr { r with outcome := some (outcomeOf deviceId column s r.entries draws outcome) } rfl
    (fun hack => (hfresh hack).elim) rfl (List.Sublist.refl _) (fun hack => .inl hack) (fun hp => ?_)
    (fun entries hp => ?_) _ _
  · obtain ⟨x, hx, hbuf, hack⟩ := h.pushing hp
    obtain ⟨x', hx', hent, hack'⟩ := hold _ _ x hx
    exact ⟨x', hx', hent.trans hbuf, hack'.trans hack⟩
  · obtain ⟨x, hx, hack, hent⟩ := h.delivered entries hp
    obtain ⟨k, hk⟩ := List.mem_iff_getElem?.1 hx
    obtain ⟨x', hx', hent', hack'⟩ := hold _ k x hk
    exact ⟨x', List.mem_of_getElem? hx', hack'.trans hack, hent'.trans hent⟩

/-- The push under way is that of the last request, which carries the buffer. -/
theorem Ordered.answer (h : Ordered s) {ok : Bool} {device : LogChannel} {r : PushRequest}
    (hr : s.requests[s.requests.length - 1]? = some r) (hok : ok = true → r.outcome = some .answered)
    (hs : s.device.step logMaxBatch logMaxBuffer (.answer ok) = some device) :
    Ordered { s with device, requests := s.requests.set (s.requests.length - 1) { r with acknowledged := ok } } := by
  obtain ⟨hp, hp', hsent, hlive, hcleared, hdel⟩ := LogChannel.answer_step hs
  obtain ⟨x, hx, hbuf, hack⟩ := h.pushing hp
  obtain rfl := Option.some.inj (hr.symm.trans hx)
  refine h.set hr { r with acknowledged := ok } rfl hok hsent hlive (fun hack => .inr ⟨rfl, fun e he e' he' => ?_⟩)
    (fun hpush => absurd hpush (by rw [hp']; exact Bool.false_ne_true)) (fun entries hp => ?_) _ _
  · exact (List.pairwise_append.1 h.live).2.2 e (hbuf ▸ he) e' ((hcleared hack).subset he')
  · rcases hdel entries hp with hp | ⟨hok, rfl⟩
    · obtain ⟨y, hy, hyack, hent⟩ := h.delivered entries hp
      obtain ⟨k, hk⟩ := List.mem_iff_getElem?.1 hy
      have hne : s.requests.length - 1 ≠ k := fun hk' => by
        obtain rfl := Option.some.inj (hr.symm.trans (hk' ▸ hk))
        rw [hack] at hyack
        cases hyack
      refine ⟨y, List.mem_of_getElem? (i := k) ?_, hyack, hent⟩
      rw [Arrivals.getElem?_set _ _ _ _ _ hr, if_neg hne, hk]
    · refine ⟨{ r with acknowledged := ok }, List.mem_of_getElem? (i := s.requests.length - 1) ?_, hok, hbuf⟩
      rw [Arrivals.getElem?_set _ _ _ _ _ hr, if_pos rfl]

/-- The ways a step is made. -/
theorem step_cases {a : PathAction} (hs : s.step deviceId column logMaxBatch logMaxBuffer a = some s') :
    (∃ device, LogChannel.Quietly s.device device ∧ (∃ b, s.device.step logMaxBatch logMaxBuffer b = some device) ∧
      s' = { s with device, requests := s.requests ++ begun s.device device }) ∨
    (∃ i r draws outcome, s.requests[i]? = some r ∧ r.outcome = none ∧ draws.length = r.entries.length ∧
      s' = s.arrive deviceId column i r draws outcome) ∨
    (∃ ok device r, s.requests[s.requests.length - 1]? = some r ∧ (ok = true → r.outcome = some .answered) ∧
      s.device.step logMaxBatch logMaxBuffer (.answer ok) = some device ∧
      s' = { s with device, requests := s.requests.set (s.requests.length - 1) { r with acknowledged := ok } }) ∨
    (∃ b server, b.foreign deviceId = true ∧ s.server.step column b = some server ∧ s' = { s with server }) := by
  cases a with
  | device a =>
    have hmap : (∀ ok, a ≠ .answer ok) ∧ (s.device.step logMaxBatch logMaxBuffer a).map (fun device =>
        { s with device, requests := s.requests ++ begun s.device device }) = some s' := by
      cases a <;> first | exact ⟨fun _ h => (by cases h), hs⟩ | cases hs
    obtain ⟨device, hd, rfl⟩ := Option.map_eq_some_iff.1 hmap.2
    exact .inl ⟨device, LogChannel.quietly_step hd hmap.1, ⟨a, hd⟩, rfl⟩
  | arrive i draws outcome =>
    simp only [step] at hs
    split at hs
    · cases hs
    · rename_i r hr
      split at hs
      · rename_i hc
        exact .inr (.inl ⟨i, r, draws, outcome, hr, hc.1, hc.2, (Option.some.inj hs).symm⟩)
      · cases hs
  | answer ok =>
    simp only [step] at hs
    split at hs
    · cases hs
    · rename_i r hr
      split at hs
      · cases hs
      · rename_i hc
        obtain ⟨device, hd, rfl⟩ := Option.map_eq_some_iff.1 hs
        exact .inr (.inr (.inl ⟨ok, device, r, hr, fun hok => Decidable.not_not.1 (fun hne => hc ⟨hok, hne⟩), hd, rfl⟩))
  | server b =>
    simp only [step] at hs
    split at hs
    · rename_i hb
      obtain ⟨server, hb', rfl⟩ := Option.map_eq_some_iff.1 hs
      exact .inr (.inr (.inr ⟨b, server, hb, hb', rfl⟩))
    · cases hs

theorem Ordered.step {a : PathAction} (h : Ordered s) (hs : s.step deviceId column logMaxBatch logMaxBuffer a = some s') :
    Ordered s' := by
  rcases step_cases hs with ⟨device, hq, -, rfl⟩ | ⟨i, r, draws, outcome, hr, hnone, -, rfl⟩ |
    ⟨ok, device, r, hr, hok, hd, rfl⟩ | ⟨b, server, -, -, rfl⟩
  · exact h.device hq
  · exact h.arrive hr hnone draws outcome
  · exact h.answer hr hok hd
  · exact ⟨h.live, h.below, h.sorted, h.requested, h.apart, h.ahead, h.pushing, h.delivered, h.seen⟩

/-! ## What the table has of the device -/

/-- The row of an entry. -/
structure Shows (deviceId : Int) (column : Int → Int) (e : SentEntry) (m : DeviceLogModel) : Prop where
  deviceId : m.deviceId = deviceId
  level : m.level = e.entry.level
  message : m.message = e.entry.message
  source : m.source = e.entry.source
  time : ∀ t, e.entry.time = some t → m.time = column t

def ofDevice (deviceId : Int) (m : DeviceLogModel) : Bool := decide (m.deviceId = deviceId)

/-- `full` are the rows of the device that have ever been inserted: one for each entry of each request that was stored.  The
table has them, but for those the retention policy has dropped. -/
structure Filed (deviceId : Int) (column : Int → Int) (s : LogPath C) (full : List DeviceLogModel) : Prop where
  shows : List.Forall₂ (Shows deviceId column) s.stored.flatten full
  rows : (s.server.db.deviceLogs.rows.filter (ofDevice deviceId)).Sublist full
  kept : ∀ m ∈ full, s.server.db.horizon.all (fun t => decide (t ≤ m.time)) = true →
    m ∈ s.server.db.deviceLogs.rows.filter (ofDevice deviceId)
  stored : s.stored.Perm ((s.requests.filter PushRequest.isStored).map PushRequest.entries)

theorem insert_none {db db' : TsDb} {device : Int} {body : List (Logs.PostBodyItem × Draw)}
    (h : db.insert column device none body = some db') : db'.deviceLogs.rows = db.deviceLogs.rows ++
      (Api.insertDeviceLogEntries device body).map (TsDb.deviceRow column) := by
  obtain ⟨t, ht, rfl⟩ := Option.map_eq_some_iff.1 h
  exact Api.insertMany_rows ht

theorem filter_posted_of_ne {device : Int} (hne : device ≠ deviceId) (body : List (Logs.PostBodyItem × Draw)) :
    ((Api.insertDeviceLogEntries device body).map (TsDb.deviceRow column)).filter (ofDevice deviceId) = [] := by
  refine List.filter_eq_nil_iff.2 (fun m hm => ?_)
  obtain ⟨m', hm', rfl⟩ := List.mem_map.1 hm
  obtain ⟨e, -, rfl⟩ := List.mem_map.1 hm'
  exact fun h => hne (of_decide_eq_true h)

theorem filter_posted_self (body : List (Logs.PostBodyItem × Draw)) :
    ((Api.insertDeviceLogEntries deviceId body).map (TsDb.deviceRow column)).filter (ofDevice deviceId) =
      (Api.insertDeviceLogEntries deviceId body).map (TsDb.deviceRow column) := by
  refine List.filter_eq_self.2 (fun m hm => ?_)
  obtain ⟨m', hm', rfl⟩ := List.mem_map.1 hm
  obtain ⟨e, -, rfl⟩ := List.mem_map.1 hm'
  exact decide_eq_true rfl

/-- Whatever else the server does to the table of device logs, it leaves the rows of the device, or drops chunks. -/
theorem foreign_db {server server' : LogServer C} {b : Api.LogAction} (hb : b.foreign deviceId = true)
    (hs : server.step column b = some server') :
    (server'.db.deviceLogs.rows.filter (ofDevice deviceId) = server.db.deviceLogs.rows.filter (ofDevice deviceId) ∧
      server'.db.horizon = server.db.horizon) ∨ ∃ chunkEnd, server'.db = server.db.retention chunkEnd := by
  cases b with
  | post device applicationId body outcome =>
    obtain rfl := Option.some.inj hs
    refine .inl ?_
    have hinsert : ∀ db, server.db.insert column device applicationId body = some db →
        db.deviceLogs.rows.filter (ofDevice deviceId) = server.db.deviceLogs.rows.filter (ofDevice deviceId) ∧
          db.horizon = server.db.horizon := by
      intro db hdb
      refine ⟨?_, TsDb.horizon_insert hdb⟩
      cases applicationId with
      | some appId =>
        obtain ⟨t, -, rfl⟩ := Option.map_eq_some_iff.1 hdb
        rfl
      | none =>
        have hne : device ≠ deviceId := of_decide_eq_true ((Bool.or_false _).symm.trans hb)
        rw [insert_none hdb, List.filter_append, filter_posted_of_ne hne, List.append_nil]
    rcases LogServer.post_cases column server device applicationId body outcome with heq | ⟨db, hdb, heq | heq⟩
    · rw [heq]; exact ⟨rfl, rfl⟩
    · rw [heq]; exact hinsert db hdb
    · rw [heq]; exact hinsert db hdb
  | publish handler =>
    rw [LogServer.step] at hs
    split at hs
    · cases hs
    · exact Option.some.inj hs ▸ .inl ⟨rfl, rfl⟩
    · exact Option.some.inj hs ▸ .inl ⟨rfl, rfl⟩
  | streamLogs params => exact Option.some.inj hs ▸ .inl ⟨rfl, rfl⟩
  | poll stream =>
    obtain ⟨st, -, rfl⟩ := Option.map_eq_some_iff.1 hs
    exact .inl ⟨rfl, rfl⟩
  | close stream =>
    obtain ⟨st, -, rfl⟩ := Option.map_eq_some_iff.1 hs
    exact .inl ⟨rfl, rfl⟩
  | retention chunkEnd => exact Option.some.inj hs ▸ .inr ⟨chunkEnd, rfl⟩

/-- The rows of a request are those of its entries, one by one. -/
theorem shows_posted : ∀ (entries : List SentEntry) (draws : List Draw), draws.length = entries.length →
    List.Forall₂ (Shows deviceId column) entries
      ((Api.insertDeviceLogEntries deviceId (bodyOf entries draws)).map (TsDb.deviceRow column))
  | [], [], _ => .nil
  | e :: entries, d :: draws, hlen => by
    refine .cons ⟨rfl, rfl, rfl, rfl, fun t ht => ?_⟩ (shows_posted entries draws (Nat.succ.inj hlen))
    show column (e.entry.time.getD d.now) = column t
    rw [ht]
    rfl

theorem filter_set : ∀ {requests : List PushRequest} {i : Nat} {r : PushRequest} (r' : PushRequest),
    requests[i]? = some r → r.isStored = false → ((requests.set i r').filter PushRequest.isStored).Perm
      (requests.filter PushRequest.isStored ++ [r'].filter PushRequest.isStored)
  | x :: xs, 0, r, r', hr, hold => by
    obtain rfl := Option.some.inj hr
    rw [List.set_cons_zero, List.filter_cons_of_neg (Bool.eq_false_iff.1 hold), ← List.singleton_append, List.filter_append]
    exact List.perm_append_comm
  | x :: xs, i + 1, r, r', hr, hold => by
    have ih := filter_set r' (show xs[i]? = some r from hr) hold
    rw [List.set_cons_succ, List.filter_cons, List.filter_cons]
    split
    · exact ih.cons x
    · exact ih

/-- An INSERT that fails leaves the tables; one that is committed has put the rows of the request there. -/
theorem arrive_db (s : LogPath C) (entries : List SentEntry) (draws : List Draw) (outcome : InsertOutcome) :
    (outcomeOf deviceId column s entries draws outcome = .failed ∧
      (s.server.post column deviceId none (bodyOf entries draws) outcome).db = s.server.db) ∨
    (outcomeOf deviceId column s entries draws outcome ≠ .failed ∧
      s.server.db.insert column deviceId none (bodyOf entries draws) =
        some (s.server.post column deviceId none (bodyOf entries draws) outcome).db) := by
  unfold outcomeOf
  cases hins : s.server.db.insert column deviceId none (bodyOf entries draws) with
  | none =>
    refine .inl ⟨rfl, ?_⟩
    rcases LogServer.post_cases column s.server deviceId none (bodyOf entries draws) outcome with heq | ⟨db, hdb, -⟩
    · rw [heq]
    · rw [hins] at hdb
      cases hdb
  | some db =>
    cases outcome with
    | failed => exact .inl ⟨rfl, rfl⟩
    | answered =>
      refine .inr ⟨by simp, ?_⟩
      rw [LogServer.post, hins]
    | unanswered =>
      refine .inr ⟨by simp, ?_⟩
      rw [LogServer.post, hins]

variable {full : List DeviceLogModel} {i : Nat} {r : PushRequest}

theorem Filed.refused (h : Filed deviceId column s full) (hr : s.requests[i]? = some r) (hold : r.isStored = false)
    {server : LogServer C} (hdb : server.db = s.server.db) :
    Filed deviceId column { s with server, requests := s.requests.set i { r with outcome := some .failed } } full where
  shows := h.shows
  rows := hdb.symm ▸ h.rows
  kept := hdb.symm ▸ h.kept
  stored := by
    have hperm := filter_set { r with outcome := some .failed } hr hold
    have hnot : ¬ PushRequest.isStored { r with outcome := some .failed } = true := Bool.false_ne_true
    rw [List.filter_cons_of_neg hnot, List.filter_nil, List.append_nil] at hperm
    exact h.stored.trans (hperm.map _).symm

theorem Filed.accepted (h : Filed deviceId column s full) (hr : s.requests[i]? = some r) (hold : r.isStored = false)
    {outcome : InsertOutcome} (hok : outcome ≠ .failed) {draws : List Draw} (hlen : draws.length = r.entries.length)
    {server : LogServer C}
    (hins : s.server.db.insert column deviceId none (bodyOf r.entries draws) = some server.db) :
    Filed deviceId column
      { s with
        server
        requests := s.requests.set i { r with outcome := some outcome }
        stored := s.stored ++ [r.entries] }
      (full ++ (Api.insertDeviceLogEntries deviceId (bodyOf r.entries draws)).map (TsDb.deviceRow column)) := by
  have hrows : server.db.deviceLogs.rows.filter (ofDevice deviceId) =
      s.server.db.deviceLogs.rows.filter (ofDevice deviceId) ++
        (Api.insertDeviceLogEntries deviceId (bodyOf r.entries draws)).map (TsDb.deviceRow column) := by
    rw [insert_none hins, List.filter_append, filter_posted_self]
  refine ⟨?_, ?_, fun m hm hlate => ?_, ?_⟩
  · rw [List.flatten_append, List.flatten_singleton]
    exact List.rel_append h.shows (shows_posted r.entries draws hlen)
  · dsimp only
    rw [hrows]
    exact h.rows.append (List.Sublist.refl _)
  · dsimp only at hlate ⊢
    rw [TsDb.horizon_insert hins] at hlate
    rw [hrows]
    exact List.mem_append.2 ((List.mem_append.1 hm).imp (fun hm => h.kept m hm hlate) id)
  · have hperm := filter_set { r with outcome := some outcome } hr hold
    have hnew : PushRequest.isStored { r with outcome := some outcome } = true := by
      cases outcome with
      | failed => exact absurd rfl hok
      | answered => rfl
      | unanswered => rfl
    rw [List.filter_cons_of_pos hnew, List.filter_nil] at hperm
    refine (h.stored.append_right [r.entries]).trans ?_
    have hmap := (hperm.map PushRequest.entries).symm
    rw [List.map_append] at hmap
    exact hmap

theorem Filed.arrive (h : Filed deviceId column s full) (hr : s.requests[i]? = some r) (hnone : r.outcome = none)
    {draws : List Draw} (hlen : draws.length = r.entries.length) (outcome : InsertOutcome) :
    ∃ full', Filed deviceId column (s.arrive deviceId column i r draws outcome) full' := by
  have hold : r.isStored = false := by
    unfold PushRequest.isStored
    rw [hnone]
    rfl
  rcases arrive_db s r.entries draws outcome with ⟨hfail, hdb⟩ | ⟨hok, hins⟩
  · refine ⟨full, ?_⟩
    unfold LogPath.arrive
    rw [hfail, if_pos rfl]
    exact h.refused hr hold hdb
  · have hacc := h.accepted hr hold hok hlen hins
    unfold LogPath.arrive
    rw [if_neg hok]
    exact ⟨_, hacc⟩

theorem map_filter_set : ∀ {requests : List PushRequest} {i : Nat} {r : PushRequest} (ok : Bool), requests[i]? = some r →
    ((requests.set i { r with acknowledged := ok }).filter PushRequest.isStored).map PushRequest.entries =
      (requests.filter PushRequest.isStored).map PushRequest.entries
  | x :: xs, 0, r, ok, hr => by
    obtain rfl := Option.some.inj hr
    rw [List.set_cons_zero, List.filter_cons, List.filter_cons]
    cases hx : x.isStored with
    | true =>
      rw [if_pos rfl, if_pos (show PushRequest.isStored { x with acknowledged := ok } = true from hx)]
      rfl
    | false =>
      rw [if_neg Bool.false_ne_true,
        if_neg (Bool.eq_false_iff.1 (show PushRequest.isStored { x with acknowledged := ok } = false from hx))]
  | x :: xs, i + 1, r, ok, hr => by
    have ih := map_filter_set ok (show xs[i]? = some r from hr)
    rw [List.set_cons_succ, List.filter_cons, List.filter_cons]
    split
    · rw [List.map_cons, List.map_cons, ih]
    · exact ih

theorem Filed.step {a : PathAction} (h : ∃ full, Filed deviceId column s full)
    (hs : s.step deviceId column logMaxBatch logMaxBuffer a = some s') : ∃ full, Filed deviceId column s' full := by
  obtain ⟨full, h⟩ := h
  rcases step_cases hs with ⟨device, -, -, rfl⟩ | ⟨i, r, draws, outcome, hr, hnone, hlen, rfl⟩ |
    ⟨ok, device, r, hr, -, -, rfl⟩ | ⟨b, server, hb, hstep, rfl⟩
  · refine ⟨full, h.shows, h.rows, h.kept, ?_⟩
    have hnone : (begun s.device device).filter PushRequest.isStored = [] := by
      refine List.filter_eq_nil_iff.2 (fun r hr => ?_)
      obtain ⟨rfl, -⟩ := mem_begun hr
      exact Bool.false_ne_true
    dsimp only
    rw [List.filter_append, hnone, List.append_nil]
    exact h.stored
  · exact h.arrive hr hnone hlen outcome
  · refine ⟨full, h.shows, h.rows, h.kept, ?_⟩
    dsimp only
    rw [map_filter_set ok hr]
    exact h.stored
  · rcases foreign_db hb hstep with ⟨hrows, hhor⟩ | ⟨chunkEnd, hdb⟩
    · refine ⟨full, h.shows, ?_, fun m hm hlate => ?_, h.stored⟩
      · dsimp only
        rw [hrows]
        exact h.rows
      · dsimp only at hlate ⊢
        rw [hhor] at hlate
        rw [hrows]
        exact h.kept m hm hlate
    · refine ⟨full, h.shows, ?_, fun m hm hlate => ?_, h.stored⟩
      · dsimp only
        rw [hdb]
        exact (List.filter_sublist.filter _).trans h.rows
      · dsimp only at hlate ⊢
        rw [hdb, TsDb.after_horizon_retention] at hlate
        rw [hdb]
        have hold := h.kept m hm hlate.2
        obtain ⟨hin, hdev⟩ := List.mem_filter.1 hold
        exact List.mem_filter.2 ⟨List.mem_filter.2 ⟨hin, decide_eq_true hlate.1⟩, hdev⟩

/-! ## From end to end -/

/-- What holds of every state a run reaches. -/
structure Reached (deviceId : Int) (column : Int → Int) (logMaxBuffer : Nat) (s : LogPath C) : Prop where
  inv : s.device.Inv logMaxBuffer
  ordered : Ordered s
  filed : ∃ full, Filed deviceId column s full

theorem Reached.init : Reached deviceId column logMaxBuffer (LogPath.init : LogPath C) where
  inv := LogChannel.inv_init
  ordered := Ordered.init
  filed :=
    ⟨[], { shows := .nil
           rows := List.Sublist.refl _
           kept := fun _ h => absurd h List.not_mem_nil
           stored := List.Perm.refl _ }⟩

theorem Reached.step {a : PathAction} (h : Reached deviceId column logMaxBuffer s)
    (hs : s.step deviceId column logMaxBatch logMaxBuffer a = some s') : Reached deviceId column logMaxBuffer s' where
  inv := by
    rcases step_cases hs with ⟨device, -, ⟨b, hb⟩, rfl⟩ | ⟨i, r, draws, outcome, -, -, -, rfl⟩ |
      ⟨ok, device, r, -, -, hd, rfl⟩ | ⟨b, server, -, -, rfl⟩
    · exact h.inv.step hb
    · exact h.inv
    · exact h.inv.step hd
    · exact h.inv
  ordered := h.ordered.step hs
  filed := Filed.step h.filed hs

theorem Reached.run {as : List PathAction} (h : Reached deviceId column logMaxBuffer s)
    (hr : run (LogPath.step deviceId column logMaxBatch logMaxBuffer) s as = some s') :
    Reached deviceId column logMaxBuffer s' :=
  Runs.run_invariant (fun _ _ _ h hs => h.step hs) h hr

theorem Before.disjoint {entries entries' : List SentEntry} (h : Before entries entries') : entries.Disjoint entries' :=
  fun e he he' => Nat.lt_irrefl _ (h e he e he')

/-- Requests that are all acknowledged have no entry in common. -/
theorem Ordered.nodup_stored (h : Ordered s) (hstored : s.stored.Perm
      ((s.requests.filter PushRequest.isStored).map PushRequest.entries))
    (hack : ∀ r ∈ s.requests, r.isStored = true → r.acknowledged = true) : s.stored.flatten.Nodup := by
  refine (hstored.flatten.nodup_iff).2 (List.nodup_flatten.2 ⟨fun entries hentries => ?_, ?_⟩)
  · obtain ⟨r, hr, rfl⟩ := List.mem_map.1 hentries
    exact (h.sorted r (List.mem_of_mem_filter hr)).imp (fun hlt heq => Nat.ne_of_lt hlt (congrArg SentEntry.place heq))
  · have hpair : s.requests.Pairwise (fun r r' => r.acknowledged = true → Before r.entries r'.entries) :=
      List.pairwise_iff_getElem.2 (fun i j hi hj hij =>
        h.apart i j _ _ hij (List.getElem?_eq_getElem hi) (List.getElem?_eq_getElem hj))
    refine List.pairwise_map.2 ((hpair.sublist List.filter_sublist).imp_of_mem (fun {r r'} hr _ hbefore => ?_))
    obtain ⟨hin, hst⟩ := List.mem_filter.1 hr
    exact (hbefore (hack r hin hst)).disjoint

/-- **The table has of a device what its requests carried that were stored, request by request, entry by entry, and each
request once**, but for chunks the retention policy has dropped.  A request the device knows to be stored is stored, and none
of its entries is in any later request; so an entry comes twice only if a push that had been stored seemed to fail. -/
theorem pushed_once (deviceId : Int) (column : Int → Int) (logMaxBatch logMaxBuffer : Nat) (as : List PathAction)
    (s : LogPath C) (hr : run (LogPath.step deviceId column logMaxBatch logMaxBuffer) .init as = some s) :
    (∃ full, List.Forall₂ (Shows deviceId column) s.stored.flatten full ∧
      (s.server.db.deviceLogs.rows.filter (ofDevice deviceId)).Sublist full ∧
      ∀ m ∈ full, s.server.db.horizon.all (fun t => decide (t ≤ m.time)) = true → m ∈ s.server.db.deviceLogs.rows) ∧
    s.stored.Perm ((s.requests.filter PushRequest.isStored).map PushRequest.entries) ∧
    (∀ r ∈ s.requests, r.acknowledged = true → r.isStored = true) ∧
    (∀ (i j : Nat) r r', i < j → s.requests[i]? = some r → s.requests[j]? = some r' → r.acknowledged = true →
      ∀ e ∈ r.entries, e ∉ r'.entries) ∧
    ((∀ r ∈ s.requests, r.isStored = true → r.acknowledged = true) → s.stored.flatten.Nodup) := by
  have h := Reached.init.run hr
  obtain ⟨full, hfull⟩ := h.filed
  refine ⟨⟨full, hfull.shows, hfull.rows, fun m hm hlate => List.mem_of_mem_filter (hfull.kept m hm hlate)⟩, hfull.stored,
    fun r hin hack => ?_, fun i j r r' hij hi hj hack => ?_, h.ordered.nodup_stored hfull.stored⟩
  · unfold PushRequest.isStored
    rw [h.ordered.seen r hin hack]
    rfl
  · exact fun e he he' => (h.ordered.apart i j r r' hij hi hj hack).disjoint he he'

/-- The answer to the first push comes too late, and the entry is pushed again for a flush. -/
def answeredLate : List PathAction :=
  [.device .spawn, .device (.send (Logs.entryOf "a")), .device .recv, .answer false, .arrive 0 [⟨7, 0⟩] .answered,
    .device .callFlush, .device .recv, .arrive 1 [⟨8, 0⟩] .answered, .answer true]

def answeredLatePath : LogPath Api.LogServer.eventRing :=
  (run (LogPath.step 1 id 1 10) .init answeredLate).getD .init

theorem answeredLate_run : run (LogPath.step 1 id 1 10) .init answeredLate = some answeredLatePath := rfl

theorem answeredLate_twice : answeredLatePath.stored.flatten = [⟨0, Logs.entryOf "a"⟩, ⟨0, Logs.entryOf "a"⟩] ∧
    answeredLatePath.stored.Perm
      ((answeredLatePath.requests.filter PushRequest.isStored).map PushRequest.entries) ∧
    ∀ r ∈ answeredLatePath.requests, r.acknowledged = true → r.isStored = true :=
  have h := pushed_once 1 id 1 10 answeredLate answeredLatePath answeredLate_run
  ⟨rfl, h.2.1, h.2.2.1⟩

/-- What an acknowledged request carried is in the table, each entry with a row of its own. -/
theorem Reached.row_of_delivered (h : Reached deviceId column logMaxBuffer s) {e : SentEntry}
    (he : Shipping.Delivered s.device.events e) : ∃ m, Shows deviceId column e m ∧
      (s.server.db.horizon.all (fun t => decide (t ≤ m.time)) = true → m ∈ s.server.db.deviceLogs.rows) := by
  obtain ⟨full, hfull⟩ := h.filed
  obtain ⟨entries, hp, hin⟩ := he
  obtain ⟨r, hr, hack, rfl⟩ := h.ordered.delivered entries hp
  have hst : r.isStored = true := by
    unfold PushRequest.isStored
    rw [h.ordered.seen r hr hack]
    rfl
  have hflat : e ∈ s.stored.flatten := List.mem_flatten.2
    ⟨r.entries, hfull.stored.mem_iff.2 (List.mem_map_of_mem (List.mem_filter.2 ⟨hr, hst⟩)), hin⟩
  obtain ⟨i, hi, rfl⟩ := List.getElem_of_mem hflat
  have hlen := hfull.shows.length_eq
  exact ⟨full[i], hfull.shows.get hi (hlen ▸ hi), fun hlate =>
    List.mem_of_mem_filter (hfull.kept _ (List.getElem_mem _) hlate)⟩

/-- **When a flush is acknowledged, every entry logged before it has its row in the table**, until the retention policy drops
it, or was evicted after a push that failed, or is still buffered after one. -/
theorem flushed_stored (deviceId : Int) (column : Int → Int) (logMaxBatch logMaxBuffer : Nat) (as : List PathAction)
    (s : LogPath C) (hr : run (LogPath.step deviceId column logMaxBatch logMaxBuffer) .init as = some s) (call : Nat)
    (hcall : s.device.calls[call]? = some .acknowledged) : ∃ pre post, s.device.sent = pre ++ .flush call :: post ∧
      ∀ e, .entry e ∈ pre →
        (∃ m, Shows deviceId column e m ∧
          (s.server.db.horizon.all (fun t => decide (t ≤ m.time)) = true → m ∈ s.server.db.deviceLogs.rows)) ∨
        Shipping.Evicted logMaxBuffer s.device.events e ∨ (e ∈ s.device.buffer ∧ Shipping.Failed s.device.events e) := by
  have h := Reached.init.run hr
  obtain ⟨pre, post, hsent, hpre⟩ := h.inv.acked call hcall
  exact ⟨pre, post, hsent, fun e he => (hpre e he).imp_left h.row_of_delivered⟩

theorem answeredLate_flushed : ∃ pre post, answeredLatePath.device.sent = pre ++ .flush 0 :: post ∧
    ∀ e, .entry e ∈ pre →
      (∃ m, Shows 1 id e m ∧ (answeredLatePath.server.db.horizon.all (fun t => decide (t ≤ m.time)) = true →
        m ∈ answeredLatePath.server.db.deviceLogs.rows)) ∨
      Shipping.Evicted 10 answeredLatePath.device.events e ∨
        (e ∈ answeredLatePath.device.buffer ∧ Shipping.Failed answeredLatePath.device.events e) :=
  flushed_stored 1 id 1 10 answeredLate answeredLatePath answeredLate_run 0 rfl

end LogPath

end ZeroDowntime
