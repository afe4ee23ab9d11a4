import ZeroDowntime.ApiAuth
import ZeroDowntime.Arrivals
import ZeroDowntime.Runs
import ZeroDowntime.Upserts
/-!
# ApiAudit — the session variable and the audit triggers

All requests share one connection.  The middleware sets `app.audit_user` for a user's request and nobody takes it back;
the triggers read it whenever a row of a tracked table changes.  An action is one statement (or one transaction, which
holds the connection to its end), so those of several requests come in any order.
-/
namespace ZeroDowntime
namespace Api
namespace Audit

open Upserts (upsert lookup)

/-- A row of `users`. -/
structure User where
  id : Int
  subject : String
  name : String
  deriving DecidableEq, Repr

/-- The table as the migration leaves it, with the user `system` in it, and as upserts keep it. -/
structure Users where
  rows : List User
  next : Int
  subjects : (rows.map User.subject).Nodup
  ids : (rows.map User.id).Nodup
  below : ∀ u ∈ rows, u.id < next
  system : "system" ∈ rows.map User.subject

namespace Users

def idOf (t : Users) (subject : String) : Option Int := (lookup User.subject subject t.rows).map User.id

def rename (name : String) (u : User) : User := { u with name := name }

theorem subject_rename (name : String) (u : User) : (rename name u).subject = u.subject := rfl

theorem id_rename (name : String) (u : User) : (rename name u).id = u.id := rfl

/-- The id that `upsert_user` returns. -/
def upsertedId (t : Users) (subject : String) : Int := (t.idOf subject).getD t.next

/-- `upsert_user`: a subject keeps its id. -/
def upsertUser (t : Users) (subject name : String) : Users where
  rows := upsert User.subject (rename name) ⟨t.next, subject, name⟩ t.rows
  next := if subject ∈ t.rows.map User.subject then t.next else t.next + 1
  subjects := Upserts.nodup_upsert (subject_rename name) _ _ t.subjects
  ids := by
    unfold upsert
    split
    · rw [Upserts.map_refresh User.id (id_rename name)]
      exact t.ids
    · rw [List.map_append]
      refine List.nodup_append.2 ⟨t.ids, List.nodup_singleton _, ?_⟩
      rintro id hid _ hid' rfl
      obtain ⟨u, hu, rfl⟩ := List.mem_map.1 hid
      have hlt := t.below u hu
      rw [List.mem_singleton.1 hid'] at hlt
      exact Int.lt_irrefl _ hlt
  below := by
    intro u hu
    unfold upsert at hu
    split at hu
    · rename_i h
      rw [if_pos h]
      obtain ⟨u', hu', rfl⟩ := List.mem_map.1 hu
      have := t.below u' hu'
      split <;> exact this
    · rename_i h
      rw [if_neg h]
      rcases List.mem_append.1 hu with hu | hu
      · have := t.below u hu
        omega
      · obtain rfl := List.mem_singleton.1 hu
        exact Int.lt_succ _
  system := (Upserts.mem_keys_upsert (subject_rename name) _ _ _).2 (.inl t.system)

theorem idOf_system (t : Users) : ∃ id, t.idOf "system" = some id := by
  cases h : lookup User.subject "system" t.rows with
  | none => exact absurd t.system ((Upserts.lookup_eq_none _ _).1 h)
  | some u => exact ⟨u.id, by rw [idOf, h]; rfl⟩

/-- An id is one subject's. -/
theorem idOf_inj (t : Users) (a b : String) (id : Int) (ha : t.idOf a = some id) (hb : t.idOf b = some id) : a = b := by
  obtain ⟨u, hu, rfl⟩ := Option.map_eq_some_iff.1 ha
  obtain ⟨v, hv, hid⟩ := Option.map_eq_some_iff.1 hb
  obtain ⟨hum, hus⟩ := (Upserts.lookup_eq_some t.rows t.subjects a u).1 hu
  obtain ⟨hvm, hvs⟩ := (Upserts.lookup_eq_some t.rows t.subjects b v).1 hv
  rw [← hus, ← hvs, List.inj_on_of_nodup_map t.ids hvm hum hid]

theorem idOf_upsertUser (t : Users) (subject name s : String) :
    (t.upsertUser subject name).idOf s = if s = subject then some (t.upsertedId s) else t.idOf s := by
  unfold upsertedId idOf upsertUser
  rw [Upserts.lookup_upsert (subject_rename name)]
  by_cases h : s = subject
  · rw [if_pos h, if_pos h]
    cases lookup User.subject s t.rows <;> rfl
  · rw [if_neg h, if_neg h]

/-- The ids there are stay. -/
theorem idOf_kept (t : Users) (subject name s : String) (id : Int) (h : t.idOf s = some id) :
    (t.upsertUser subject name).idOf s = some id := by
  rw [idOf_upsertUser, upsertedId, h]
  split <;> rfl

theorem idOf_upserted (t : Users) (subject name : String) :
    (t.upsertUser subject name).idOf subject = some (t.upsertedId subject) :=
  (idOf_upsertUser t subject name subject).trans (if_pos rfl)

end Users

/-! ## Requests on the connection -/

inductive Operation
  | insert
  | update
  | delete
  deriving DecidableEq, Repr

/-- A row that a statement writes, by its table and its `id` (`device_id` for `pings`). -/
structure Change where
  table : String
  record : Int
  operation : Operation
  deriving DecidableEq, Repr

/-- A row of `audit_log`; `request` only records which request has executed the statement. -/
structure AuditLog where
  change : Change
  changedBy : Int
  request : Nat
  deriving DecidableEq, Repr

def defaultAuditTables : List String :=
  ["tenants", "groups", "devices", "applications", "application_configs", "application_assignments", "os_versions",
    "os_assignments", "reported_application_assignments", "reported_os_assignments", "pings"]

/-- The tables with a trigger, for the `tracked_tables` of the configuration. -/
def reconcileAuditTriggers (trackedTables : Option (List String)) : List String := trackedTables.getD defaultAuditTables

inductive Caller
  | user (claims : UserToken.Claims)
  | device (client : ClientDevice)
  | unauthenticated
  deriving DecidableEq, Repr

/-- The subject of the user that a caller's statements are to be attributed to. -/
def Caller.subject : Caller → String
  | .user claims => claims.subject
  | .device _ => "system"
  | .unauthenticated => "system"

/-- Where a request is: before `upsert_user`, before `SET`, in its handler, or past a statement that has failed. -/
inductive Phase
  | upserting
  | setting (userId : Int)
  | handling
  | answered
  deriving DecidableEq, Repr

structure Request where
  caller : Caller
  phase : Phase
  deriving DecidableEq, Repr

/-- The session and the tables.  `setBy` only records whose request has executed the last `SET`. -/
structure State where
  users : Users
  auditUser : Option Int
  auditLog : List AuditLog
  requests : List Request
  setBy : Option String

def State.start (users : Users) : State := ⟨users, none, [], [], none⟩

inductive Action
  | arrive (caller : Caller)
  | upsertUser (r : Nat) (failure : Option DbErr)
  | setPgSessionUser (r : Nat) (failure : Option DbErr)
  | execute (r : Nat) (changes : List Change) (failure : Option DbErr)
  deriving DecidableEq, Repr

def State.goTo (s : State) (r : Nat) (request : Request) : State := { s with requests := s.requests.set r request }

/-- The user the trigger function finds. -/
def State.auditLogTriggerFn (s : State) : Option Int :=
  match s.auditUser with
  | some id => some id
  | none => s.users.idOf "system"

/-- The triggers of one statement.  They fail if they find no user, or if `audit_log` has a trigger itself, which then
calls itself without end. -/
def State.fire (tracked : List String) (s : State) (r : Nat) (changes : List Change) : Option State :=
  if changes.any (fun c => tracked.contains c.table) then
    if tracked.contains "audit_log" then none
    else s.auditLogTriggerFn.map (fun id =>
      { s with auditLog := s.auditLog ++
          (changes.filter (fun c => tracked.contains c.table)).map (fun c => ⟨c, id, r⟩) })
  else some s

def State.step (tracked : List String) (s : State) : Action → Option State
  | .arrive caller =>
    let phase := match caller with
      | .user _ => Phase.upserting
      | _ => Phase.handling
    some { s with requests := s.requests ++ [⟨caller, phase⟩] }
  | .upsertUser r failure =>
    match s.requests[r]?, failure with
    | some ⟨.user claims, .upserting⟩, some _ => some (s.goTo r ⟨.user claims, .answered⟩)
    | some ⟨.user claims, .upserting⟩, none =>
      let id := s.users.upsertedId claims.subject
      let operation := if (s.users.idOf claims.subject).isSome then Operation.update else Operation.insert
      match State.fire tracked { s with users := s.users.upsertUser claims.subject claims.name } r
          [⟨"users", id, operation⟩] with
      | none => some (s.goTo r ⟨.user claims, .answered⟩)
      | some s' => some (s'.goTo r ⟨.user claims, .setting id⟩)
    | _, _ => none
  | .setPgSessionUser r failure =>
    match s.requests[r]?, failure with
    | some ⟨caller, .setting _⟩, some _ => some (s.goTo r ⟨caller, .answered⟩)
    | some ⟨caller, .setting id⟩, none =>
      some { s.goTo r ⟨caller, .handling⟩ with auditUser := some id, setBy := some caller.subject }
    | _, _ => none
  | .execute r changes failure =>
    match s.requests[r]?, failure with
    | some ⟨_, .handling⟩, some _ => some s
    | some ⟨_, .handling⟩, none => some ((s.fire tracked r changes).getD s)
    | _, _ => none

/-! ## Whose name an entry bears -/

def State.callerOf (s : State) (r : Nat) : Option Caller := (s.requests[r]?).map Request.caller

/-- The subject of the last `SET`; before the first one the triggers fall back to `system`. -/
def State.sessionSubject (s : State) : String := s.setBy.getD "system"

/-- A statement of a request that has no trigger to fire, or finds its own subject in the session. -/
def State.own (tracked : List String) (s : State) (r : Nat) (tables : List String) : Bool :=
  !tables.any tracked.contains || tracked.contains "audit_log" ||
    (s.callerOf r).all (fun c => decide (c.subject = s.sessionSubject))

/-- **A statement in a session of its own**: the last `SET` on the connection was a request's of the same subject, or
there was none and the statement is no user's. -/
def State.ownSession (tracked : List String) (s : State) : Action → Bool
  | .upsertUser r none => s.own tracked r ["users"]
  | .execute r changes none => s.own tracked r (changes.map Change.table)
  | _ => true

/-- An entry names the user whose request has executed its statement, or `system` where that is no user's. -/
def State.names (s : State) (e : AuditLog) : Prop :=
  ∃ c, s.callerOf e.request = some c ∧ s.users.idOf c.subject = some e.changedBy

def RightUsers (s : State) : Prop := ∀ e ∈ s.auditLog, s.names e

/-- What every statement leaves true: the session holds the id of the subject that has set it, and so does a request
that is about to set it. -/
structure Sound (s : State) : Prop where
  session : (s.setBy = none ∧ s.auditUser = none) ∨
    ∃ subject id, s.setBy = some subject ∧ s.auditUser = some id ∧ s.users.idOf subject = some id
  setting : ∀ (r : Nat) caller id, s.requests[r]? = some ⟨caller, .setting id⟩ → s.users.idOf caller.subject = some id

theorem sound_start (users : Users) : Sound (.start users) :=
  ⟨.inl ⟨rfl, rfl⟩, fun _ _ _ h => (by cases h)⟩

theorem rightUsers_start (users : Users) : RightUsers (.start users) := fun _ h => (List.not_mem_nil h).elim

/-- The triggers find the subject of the session. -/
theorem Sound.trigger {s : State} (h : Sound s) :
    ∃ id, s.auditLogTriggerFn = some id ∧ s.users.idOf s.sessionSubject = some id := by
  unfold State.auditLogTriggerFn State.sessionSubject
  rcases h.session with ⟨hs, ha⟩ | ⟨subject, id, hs, ha, hid⟩
  · rw [hs, ha]
    obtain ⟨id, hid⟩ := s.users.idOf_system
    exact ⟨id, hid, hid⟩
  · rw [hs, ha]
    exact ⟨id, rfl, hid⟩

theorem goTo_get (s : State) (r r' : Nat) (old new : Request) (hr : s.requests[r]? = some old) :
    (s.goTo r new).requests[r']? = if r = r' then some new else s.requests[r']? :=
  Arrivals.getElem?_set s.requests r r' old new hr

theorem callerOf_arrive (s : State) (request : Request) (r : Nat) (c : Caller) (h : s.callerOf r = some c) :
    State.callerOf { s with requests := s.requests ++ [request] } r = some c := by
  obtain ⟨req, hreq, rfl⟩ := Option.map_eq_some_iff.1 h
  exact congrArg (Option.map Request.caller) (Arrivals.getElem?_concat s.requests request r req hreq)

theorem callerOf_goTo (s : State) (r r' : Nat) (caller : Caller) (old new : Phase)
    (hr : s.requests[r]? = some ⟨caller, old⟩) : (s.goTo r ⟨caller, new⟩).callerOf r' = s.callerOf r' := by
  unfold State.callerOf
  rw [goTo_get s r r' _ _ hr]
  split
  · rename_i h
    rw [← h, hr]
    rfl
  · rfl

theorem Sound.arrive {s : State} (h : Sound s) (request : Request) (hph : ∀ id, request.phase ≠ .setting id) :
    Sound { s with requests := s.requests ++ [request] } where
  session := h.session
  setting := by
    intro r caller id hr
    rcases Arrivals.of_concat hr with hr | ⟨-, rfl⟩
    · exact h.setting r caller id hr
    · exact absurd rfl (hph id)

/-- A request that goes on within its own caller keeps the books, if its new phase holds the id it needs. -/
theorem Sound.goTo {s : State} (h : Sound s) (r : Nat) (caller : Caller) (old new : Phase)
    (hr : s.requests[r]? = some ⟨caller, old⟩)
    (hset : ∀ id, new = .setting id → s.users.idOf caller.subject = some id) : Sound (s.goTo r ⟨caller, new⟩) where
  session := h.session
  setting := by
    intro r' caller' id hr'
    rw [goTo_get s r r' _ _ hr] at hr'
    split at hr'
    · obtain ⟨rfl, hn⟩ := Request.mk.inj (Option.some.inj hr')
      exact hset id hn
    · exact h.setting r' caller' id hr'

theorem rightUsers_goTo (s : State) (r : Nat) (caller : Caller) (old new : Phase)
    (hr : s.requests[r]? = some ⟨caller, old⟩) : RightUsers (s.goTo r ⟨caller, new⟩) ↔ RightUsers s := by
  unfold RightUsers State.names
  simp only [callerOf_goTo s r _ caller old new hr]
  rfl

theorem Sound.upsertUser {s : State} (h : Sound s) (subject name : String) :
    Sound { s with users := s.users.upsertUser subject name } where
  session := by
    rcases h.session with hn | ⟨subject', id, hs, ha, hid⟩
    · exact .inl hn
    · exact .inr ⟨subject', id, hs, ha, s.users.idOf_kept subject name subject' id hid⟩
  setting := fun r caller id hr => s.users.idOf_kept subject name _ id (h.setting r caller id hr)

theorem rightUsers_upsertUser (s : State) (subject name : String) (h : RightUsers s) :
    RightUsers { s with users := s.users.upsertUser subject name } := by
  intro e he
  obtain ⟨c, hc, hid⟩ := h e he
  exact ⟨c, hc, s.users.idOf_kept subject name _ _ hid⟩

/-- What the triggers of a statement leave alone. -/
theorem fire_frame (tracked : List String) (s s' : State) (r : Nat) (changes : List Change)
    (h : s.fire tracked r changes = some s') :
    s'.users = s.users ∧ s'.auditUser = s.auditUser ∧ s'.setBy = s.setBy ∧ s'.requests = s.requests := by
  unfold State.fire at h
  split at h
  · split at h
    · cases h
    · obtain ⟨id, -, rfl⟩ := Option.map_eq_some_iff.1 h
      exact ⟨rfl, rfl, rfl, rfl⟩
  · obtain rfl := Option.some.inj h
    exact ⟨rfl, rfl, rfl, rfl⟩

theorem Sound.fire {s s' : State} (hs : Sound s) (tracked : List String) (r : Nat) (changes : List Change)
    (h : s.fire tracked r changes = some s') : Sound s' := by
  obtain ⟨hu, ha, hb, hr⟩ := fire_frame tracked s s' r changes h
  refine ⟨?_, ?_⟩
  · rw [hu, ha, hb]; exact hs.session
  · rw [hu, hr]; exact hs.setting

/-- **The entries of a statement name the right user, exactly if its request's subject is the session's.** -/
theorem rightUsers_fire (tracked : List String) (s s' : State) (r : Nat) (changes : List Change) (caller : Caller)
    (hs : Sound s) (hright : RightUsers s) (hc : s.callerOf r = some caller)
    (h : s.fire tracked r changes = some s') :
    RightUsers s' ↔ (changes.any (fun c => tracked.contains c.table) = true → caller.subject = s.sessionSubject) := by
  unfold State.fire at h
  split at h
  · rename_i hany
    split at h
    · cases h
    · obtain ⟨id, htr, hses⟩ := hs.trigger
      rw [htr, Option.map_some, Option.some.injEq] at h
      subst h
      simp only [hany, forall_const]
      constructor
      · intro hr'
        obtain ⟨c, hcm, hct⟩ := List.any_eq_true.1 hany
        obtain ⟨caller', hc', hid'⟩ := hr' ⟨c, id, r⟩
          (List.mem_append_right _ (List.mem_map.2 ⟨c, List.mem_filter.2 ⟨hcm, hct⟩, rfl⟩))
        obtain rfl := Option.some.inj (hc.symm.trans hc')
        exact s.users.idOf_inj _ _ id hid' hses
      · intro hsub e he
        rcases List.mem_append.1 he with he | he
        · exact hright e he
        · obtain ⟨c, -, rfl⟩ := List.mem_map.1 he
          exact ⟨caller, hc, by rw [hsub]; exact hses⟩
  · rename_i hany
    obtain rfl := Option.some.inj h
    exact iff_of_true hright (fun h => absurd h hany)

theorem own_of_fire_none (tracked : List String) (s : State) (r : Nat) (changes : List Change) (hs : Sound s)
    (h : s.fire tracked r changes = none) : s.own tracked r (changes.map Change.table) = true := by
  unfold State.fire at h
  split at h
  · split at h
    · rename_i haudit
      rw [State.own, haudit, Bool.or_true, Bool.true_or]
    · obtain ⟨id, htr, -⟩ := hs.trigger
      rw [htr] at h
      cases h
  · cases h

theorem own_of_fire_some (tracked : List String) (s s' : State) (r : Nat) (changes : List Change) (caller : Caller)
    (hc : s.callerOf r = some caller) (h : s.fire tracked r changes = some s') :
    (changes.any (fun c => tracked.contains c.table) = true → caller.subject = s.sessionSubject) ↔
      s.own tracked r (changes.map Change.table) = true := by
  have hany : (changes.map Change.table).any tracked.contains = changes.any (fun c => tracked.contains c.table) :=
    List.any_map ..
  unfold State.fire at h
  unfold State.own
  rw [hany, hc]
  cases hc : changes.any (fun c => tracked.contains c.table) with
  | false => simp
  | true =>
    rw [hc, if_pos rfl] at h
    split at h
    · cases h
    · rename_i haudit
      rw [Bool.not_eq_true] at haudit
      rw [haudit]
      simp

/-- The books and the names where a user is upserted and the triggers fire. -/
theorem upserted_spec (tracked : List String) {s s₁ : State} (hs : Sound s) {r : Nat} {claims : UserToken.Claims}
    (hr : s.requests[r]? = some ⟨.user claims, .upserting⟩) {changes : List Change}
    (hfire : State.fire tracked { s with users := s.users.upsertUser claims.subject claims.name } r changes = some s₁) :
    Sound (s₁.goTo r ⟨.user claims, .setting (s.users.upsertedId claims.subject)⟩) ∧
      (RightUsers s → (RightUsers (s₁.goTo r ⟨.user claims, .setting (s.users.upsertedId claims.subject)⟩) ↔
        s.own tracked r (changes.map Change.table) = true)) := by
  have hs₁ := hs.upsertUser claims.subject claims.name
  have hc₁ : State.callerOf { s with users := s.users.upsertUser claims.subject claims.name } r =
      some (.user claims) := congrArg (Option.map Request.caller) hr
  obtain ⟨hu, -, -, hreq⟩ := fire_frame tracked _ s₁ r _ hfire
  have hr₁ : s₁.requests[r]? = some ⟨.user claims, .upserting⟩ := by rw [hreq]; exact hr
  refine ⟨(hs₁.fire tracked r _ hfire).goTo r _ _ _ hr₁ ?_, fun hright => ?_⟩
  · rintro id hid
    obtain rfl := Phase.setting.inj hid
    rw [hu]
    exact s.users.idOf_upserted claims.subject claims.name
  · rw [rightUsers_goTo s₁ r _ _ _ hr₁]
    exact (rightUsers_fire tracked _ s₁ r _ _ hs₁ (rightUsers_upsertUser s _ _ hright) hc₁ hfire).trans
      (own_of_fire_some tracked _ s₁ r _ _ hc₁ hfire)

/-- **What one statement does to the books and to the names.** -/
theorem step_spec (tracked : List String) (s s' : State) (a : Action) (hs : Sound s)
    (h : s.step tracked a = some s') :
    Sound s' ∧ (RightUsers s → (RightUsers s' ↔ s.ownSession tracked a = true)) := by
  cases a with
  | arrive caller =>
    obtain rfl := Option.some.inj h
    refine ⟨hs.arrive _ (by cases caller <;> simp), fun hright => iff_of_true (fun e he => ?_) rfl⟩
    obtain ⟨c, hc, hid⟩ := hright e he
    exact ⟨c, callerOf_arrive s _ e.request c hc, hid⟩
  | upsertUser r failure =>
    simp only [State.step] at h
    split at h
    · rename_i claims e hr
      obtain rfl := Option.some.inj h
      refine ⟨hs.goTo r _ _ _ hr (by simp), fun hright => ?_⟩
      rw [rightUsers_goTo s r _ _ _ hr]
      exact iff_of_true hright rfl
    · rename_i claims hr
      split at h
      · rename_i hfire
        obtain rfl := Option.some.inj h
        refine ⟨hs.goTo r _ _ _ hr (by simp), fun hright => ?_⟩
        rw [rightUsers_goTo s r _ _ _ hr]
        exact iff_of_true hright (own_of_fire_none tracked _ r _ (hs.upsertUser claims.subject claims.name) hfire)
      · rename_i s₁ hfire
        obtain rfl := Option.some.inj h
        exact upserted_spec tracked hs hr hfire
    · cases h
  | setPgSessionUser r failure =>
    simp only [State.step] at h
    split at h
    · rename_i caller id e hr
      obtain rfl := Option.some.inj h
      refine ⟨hs.goTo r _ _ _ hr (by simp), fun hright => ?_⟩
      rw [rightUsers_goTo s r _ _ _ hr]
      exact iff_of_true hright rfl
    · rename_i caller id hr
      obtain rfl := Option.some.inj h
      refine ⟨⟨.inr ⟨_, _, rfl, rfl, hs.setting r caller id hr⟩,
        (hs.goTo r caller _ .handling hr (by simp)).setting⟩, fun hright => ?_⟩
      exact iff_of_true ((rightUsers_goTo s r caller _ .handling hr).2 hright) rfl
    · cases h
  | execute r changes failure =>
    simp only [State.step] at h
    split at h
    · obtain rfl := Option.some.inj h
      exact ⟨hs, fun hright => iff_of_true hright rfl⟩
    · rename_i caller hr
      obtain rfl := Option.some.inj h
      have hc : s.callerOf r = some caller := congrArg (Option.map Request.caller) hr
      cases hfire : s.fire tracked r changes with
      | none => exact ⟨hs, fun hright => iff_of_true hright (own_of_fire_none tracked s r changes hs hfire)⟩
      | some s₁ =>
        exact ⟨hs.fire tracked r changes hfire, fun hright =>
          (rightUsers_fire tracked s s₁ r changes caller hs hright hc hfire).trans
            (own_of_fire_some tracked s s₁ r changes caller hc hfire)⟩
    · cases h

/-- **Every entry of the audit log names the right user in every state a run reaches, exactly if each audited statement
of the run is executed in a session of its own.** -/
theorem audit_iff (trackedTables : Option (List String)) (users : Users) (as : List Action) (s' : State)
    (hr : Runs.run (State.step (reconcileAuditTriggers trackedTables)) (.start users) as = some s') :
    (∀ pre post s, as = pre ++ post →
        Runs.run (State.step (reconcileAuditTriggers trackedTables)) (.start users) pre = some s → RightUsers s) ↔
      Runs.Along (State.step (reconcileAuditTriggers trackedTables))
        (fun s a => s.ownSession (reconcileAuditTriggers trackedTables) a = true) (.start users) as :=
  Runs.reached_iff (fun s a s₁ hs h => (step_spec _ s s₁ a hs h).1)
    (fun s a s₁ hs hright h => (step_spec _ s s₁ a hs h).2 hright) (sound_start users) (rightUsers_start users) hr

def systemOnly : Users := ⟨[⟨1, "system", "System"⟩], 2, by decide, by decide, by decide, by decide⟩

def ada : Caller := .user ⟨"ada", "Ada", 1300⟩

def bob : Caller := .user ⟨"bob", "Bob", 1300⟩

def addsTenant (id : Int) : List Change := [⟨"tenants", id, .insert⟩]

/-- A device is heard before any user is, then two users, one after the other. -/
def oneAfterTheOther : List Action :=
  [.arrive (.device ⟨7, none⟩), .execute 0 [⟨"pings", 7, .insert⟩] none,
    .arrive ada, .upsertUser 1 none, .setPgSessionUser 1 none, .execute 1 (addsTenant 1) none,
    .arrive bob, .upsertUser 2 none, .setPgSessionUser 2 none, .execute 2 (addsTenant 2) none]

theorem audit_served : ∃ s, Runs.run (State.step (reconcileAuditTriggers none)) (.start systemOnly) oneAfterTheOther =
    some s ∧ s.auditLog.map AuditLog.changedBy = [1, 2, 3] ∧ RightUsers s :=
  ⟨_, rfl, rfl, (audit_iff none systemOnly oneAfterTheOther _ rfl).2 (by decide) oneAfterTheOther [] _ rfl rfl⟩

/-- The second user's `SET` comes before the first user's statement; a device is heard after both. -/
def oneAmongTheOther : List Action :=
  [.arrive ada, .arrive bob, .upsertUser 0 none, .setPgSessionUser 0 none, .upsertUser 1 none,
    .setPgSessionUser 1 none, .execute 0 (addsTenant 1) none,
    .arrive (.device ⟨7, none⟩), .execute 2 [⟨"pings", 7, .insert⟩] none]

theorem audit_leaks : ∃ s, Runs.run (State.step (reconcileAuditTriggers none)) (.start systemOnly) oneAmongTheOther =
    some s ∧ s.users.idOf "ada" = some 2 ∧ s.users.idOf "system" = some 1 ∧
    s.auditLog.map (fun e => (e.request, e.changedBy)) = [(0, 3), (2, 3)] ∧ ¬ RightUsers s := by
  refine ⟨_, rfl, rfl, rfl, rfl, fun h => ?_⟩
  obtain ⟨c, hc, hid⟩ := h ⟨⟨"tenants", 1, .insert⟩, 3, 0⟩ (by decide)
  obtain rfl := Option.some.inj hc
  exact absurd hid (by decide)

end Audit
end Api
end ZeroDowntime
