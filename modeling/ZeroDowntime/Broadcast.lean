import Mathlib.Data.List.Basic
/-!
# Broadcast — a bounded channel that hands every value to every receiver

What is sent while there is a receiver is kept until `capacity` newer values have been sent.  A receiver begins with the
next value to be sent.  One that is further behind than what is kept learns how many values it has missed, and goes on with
the oldest one (`receive`).  `Channel` is such a channel as its users know it, and `ring` is one.  `Read` is what a receiver
has read: it has missed nothing but values that were overwritten (`Read.receive`).
-/
namespace Broadcast

variable {α : Type}

inductive Received (α : Type)
  | value (a : α)
  | lagged (missed : Nat)
  | empty
  deriving DecidableEq, Repr

/-- What a receiver that has come to `next` gets, and where it is then. -/
def receive (capacity : Nat) (sent : List α) (next : Nat) : Received α × Nat :=
  match sent[next]? with
  | none => (.empty, next)
  | some a =>
    if next + capacity < sent.length then (.lagged (sent.length - capacity - next), sent.length - capacity)
    else (.value a, next + 1)

/-- `Holds s sent rs`: in the state `s` the values `sent` have been sent to receivers, and `rs` are the live ones. -/
structure Channel (α : Type) (capacity : Nat) where
  Shared : Type
  Receiver : Type
  new : Shared
  send : Shared → α → Shared
  subscribe : Shared → Receiver × Shared
  tryRecv : Shared → Receiver → Received α × Receiver × Shared
  drop : Shared → Receiver → Shared
  next : Receiver → Nat
  Holds : Shared → List α → List Receiver → Prop
  next_le : ∀ {s sent rs}, Holds s sent rs → ∀ r ∈ rs, next r ≤ sent.length
  holds_new : Holds new [] []
  holds_send : ∀ {s sent rs} (a : α), Holds s sent rs →
    Holds (send s a) (if rs.isEmpty then sent else sent ++ [a]) rs
  next_subscribe : ∀ {s sent rs}, Holds s sent rs → next (subscribe s).1 = sent.length
  holds_subscribe : ∀ {s sent rs}, Holds s sent rs → Holds (subscribe s).2 sent (rs ++ [(subscribe s).1])
  tryRecv_eq : ∀ {s sent rs} {k : Nat} {r : Receiver}, Holds s sent rs → rs[k]? = some r →
    ((tryRecv s r).1, next (tryRecv s r).2.1) = receive capacity sent (next r)
  holds_tryRecv : ∀ {s sent rs} {k : Nat} {r : Receiver}, Holds s sent rs → rs[k]? = some r →
    Holds (tryRecv s r).2.2 sent (rs.set k (tryRecv s r).2.1)
  holds_drop : ∀ {s sent rs} {k : Nat} {r : Receiver}, Holds s sent rs → rs[k]? = some r →
    Holds (drop s r) sent (rs.eraseIdx k)

/-! ## What a receiver reads -/

/-- A receiver that began at `since` and has come to `next` has read the values at `reads`, in order; whatever else was
sent in between has been overwritten. -/
structure Read (capacity : Nat) (sent : List α) (since next : Nat) (reads : List Nat) : Prop where
  since_le : since ≤ next
  next_le : next ≤ sent.length
  sorted : reads.Pairwise (· < ·)
  within : ∀ p ∈ reads, since ≤ p ∧ p < next
  missed : ∀ p, since ≤ p → p < next → p ∉ reads → p + capacity < sent.length

/-- The positions a receiver adds to what it has read. -/
def Received.position? (next : Nat) : Received α → Option Nat
  | .value _ => some next
  | _ => none

def Received.value? : Received α → Option α
  | .value a => some a
  | _ => none

variable {capacity : Nat} {sent : List α} {since next : Nat} {reads : List Nat}

theorem Read.start (capacity : Nat) (sent : List α) : Read capacity sent sent.length sent.length [] where
  since_le := Nat.le_refl _
  next_le := Nat.le_refl _
  sorted := List.Pairwise.nil
  within := fun _ hp => absurd hp List.not_mem_nil
  missed := fun _ h h' _ => absurd h' (Nat.not_lt.2 h)

theorem Read.send (h : Read capacity sent since next reads) (more : List α) :
    Read capacity (sent ++ more) since next reads where
  since_le := h.since_le
  next_le := by
    rw [List.length_append]
    exact Nat.le_trans h.next_le (Nat.le_add_right _ _)
  sorted := h.sorted
  within := h.within
  missed := fun p h₁ h₂ h₃ => by
    have hlt := h.missed p h₁ h₂ h₃
    rw [List.length_append]
    omega

theorem receive_cases (capacity : Nat) (sent : List α) (next : Nat) :
    (sent.length ≤ next ∧ receive capacity sent next = (.empty, next)) ∨
    (∃ a, sent[next]? = some a ∧ next + capacity < sent.length ∧
      receive capacity sent next = (.lagged (sent.length - capacity - next), sent.length - capacity)) ∨
    (∃ a, sent[next]? = some a ∧ sent.length ≤ next + capacity ∧ receive capacity sent next = (.value a, next + 1)) := by
  unfold receive
  cases ha : sent[next]? with
  | none => exact .inl ⟨List.getElem?_eq_none_iff.1 ha, rfl⟩
  | some a =>
    by_cases hlag : next + capacity < sent.length
    · exact .inr (.inl ⟨a, rfl, hlag, if_pos hlag⟩)
    · exact .inr (.inr ⟨a, rfl, Nat.le_of_not_lt hlag, if_neg hlag⟩)

/-- **A receiver misses nothing but what has been overwritten**, and reads in order. -/
theorem Read.receive (h : Read capacity sent since next reads) :
    Read capacity sent since (receive capacity sent next).2
      (reads ++ ((receive capacity sent next).1.position? next).toList) := by
  rcases receive_cases capacity sent next with ⟨-, heq⟩ | ⟨a, -, hlag, heq⟩ | ⟨a, ha, -, heq⟩
  · rw [heq]
    exact (List.append_nil reads).symm ▸ h
  · rw [heq]
    refine ⟨Nat.le_trans h.since_le (by omega), Nat.sub_le _ _, ?_, ?_, ?_⟩
    · exact (List.append_nil reads).symm ▸ h.sorted
    · intro p hp
      obtain ⟨h₁, h₂⟩ := h.within p ((List.append_nil reads) ▸ hp)
      exact ⟨h₁, by omega⟩
    · intro p h₁ h₂ _
      omega
  · rw [heq]
    obtain ⟨hlt, -⟩ := List.getElem?_eq_some_iff.1 ha
    refine ⟨Nat.le_succ_of_le h.since_le, hlt, ?_, ?_, ?_⟩
    · refine List.pairwise_append.2 ⟨h.sorted, List.pairwise_singleton _ _, fun p hp q hq => ?_⟩
      obtain rfl := List.mem_singleton.1 hq
      exact (h.within p hp).2
    · intro p hp
      rcases List.mem_append.1 hp with hp | hp
      · exact ⟨(h.within p hp).1, Nat.lt_succ_of_lt (h.within p hp).2⟩
      · obtain rfl := List.mem_singleton.1 hp
        exact ⟨h.since_le, Nat.lt_succ_self _⟩
    · intro p h₁ h₂ hnot
      obtain ⟨hreads, hne⟩ := not_or.1 (fun hor => hnot (List.mem_append.2 hor))
      exact h.missed p h₁ (Nat.lt_of_le_of_ne (Nat.le_of_lt_succ h₂) (fun he => hne (List.mem_singleton.2 he))) hreads

theorem next_le_receive (capacity : Nat) {next : Nat} (h : next ≤ sent.length) :
    next ≤ (receive capacity sent next).2 ∧ (receive capacity sent next).2 ≤ sent.length := by
  rcases receive_cases capacity sent next with ⟨-, heq⟩ | ⟨a, -, hlag, heq⟩ | ⟨a, ha, -, heq⟩
  · rw [heq]
    exact ⟨Nat.le_refl _, h⟩
  · rw [heq]
    exact ⟨by omega, Nat.sub_le _ _⟩
  · rw [heq]
    exact ⟨Nat.le_succ _, (List.getElem?_eq_some_iff.1 ha).1⟩

/-- The value a receiver gets is the one at the position it reads. -/
theorem value?_receive (capacity : Nat) (sent : List α) (next : Nat) : (receive capacity sent next).1.value?.toList =
    ((receive capacity sent next).1.position? next).toList.filterMap (fun p => sent[p]?) := by
  rcases receive_cases capacity sent next with ⟨-, heq⟩ | ⟨a, -, -, heq⟩ | ⟨a, ha, -, heq⟩
  · rw [heq]; rfl
  · rw [heq]; rfl
  · rw [heq, Received.value?, Received.position?, Option.toList_some, Option.toList_some,
      List.filterMap_cons_some (show sent[next]? = some a from ha), List.filterMap_nil]

/-! ## A channel on a ring of slots -/

/-- A slot keeps the position of its value.  The value at `p` goes to the slot `p % capacity`. -/
structure Ring (α : Type) where
  slots : Nat → Option (Nat × α)
  tail : Nat
  receivers : Nat

namespace Ring

def init : Ring α := ⟨fun _ => none, 0, 0⟩

def send (capacity : Nat) (s : Ring α) (a : α) : Ring α :=
  if s.receivers = 0 then s
  else
    { s with
      slots := fun i => if i = s.tail % capacity then some (s.tail, a) else s.slots i
      tail := s.tail + 1 }

/-- The slot has the position the receiver expects, an older one (or none yet), or a newer one. -/
def tryRecv (capacity : Nat) (s : Ring α) (next : Nat) : Received α × Nat :=
  match s.slots (next % capacity) with
  | none => (.empty, next)
  | some (pos, a) =>
    if pos = next then (.value a, next + 1)
    else if pos < next then (.empty, next)
    else (.lagged (s.tail - capacity - next), s.tail - capacity)

/-- The last `capacity` values are in their slots, and a slot whose turn has not come is empty. -/
structure Holds (capacity : Nat) (s : Ring α) (sent : List α) (rs : List Nat) : Prop where
  tail : s.tail = sent.length
  receivers : s.receivers = rs.length
  next_le : ∀ r ∈ rs, r ≤ sent.length
  kept : ∀ p a, sent[p]? = some a → sent.length ≤ p + capacity → s.slots (p % capacity) = some (p, a)
  unused : ∀ i, sent.length ≤ i → i < capacity → s.slots i = none

theorem Holds.send {s : Ring α} {rs : List Nat} (a : α) (h : Holds capacity s sent rs) :
    Holds capacity (s.send capacity a) (if rs.isEmpty then sent else sent ++ [a]) rs := by
  unfold Ring.send
  by_cases hr : rs.isEmpty = true
  · rw [if_pos hr, if_pos (h.receivers.trans (List.length_eq_zero_iff.2 (List.isEmpty_iff.1 hr)))]
    exact h
  · rw [if_neg hr, if_neg (fun h0 => hr (List.isEmpty_iff.2 (List.length_eq_zero_iff.1 (h.receivers.symm.trans h0))))]
    refine ⟨?_, h.receivers, fun r hr => ?_, fun p b hp hle => ?_, fun i hle hlt => ?_⟩
    · rw [List.length_append, h.tail]
      rfl
    · rw [List.length_append]
      exact Nat.le_trans (h.next_le r hr) (Nat.le_add_right _ _)
    · rw [List.length_append, List.length_singleton] at hle
      rcases Nat.lt_trichotomy p sent.length with hlt | rfl | hlt
      · -- an older value that is kept is less than `capacity` behind, so its slot is another one
        rw [List.getElem?_append_left hlt] at hp
        have hne : p % capacity ≠ s.tail % capacity := by
          rw [h.tail]
          intro heq
          have hdvd := Nat.dvd_of_mod_eq_zero (Nat.sub_mod_eq_zero_of_mod_eq heq.symm)
          exact absurd (Nat.le_of_dvd (by omega) hdvd) (by omega)
        dsimp only
        rw [if_neg hne]
        exact h.kept p b hp (by omega)
      · rw [List.getElem?_append_right (Nat.le_refl _), Nat.sub_self] at hp
        obtain rfl := Option.some.inj hp
        dsimp only
        rw [h.tail, if_pos rfl]
      · rw [List.getElem?_eq_none_iff.2 (by rw [List.length_append]; exact hlt)] at hp
        cases hp
    · rw [List.length_append, List.length_singleton] at hle
      have hne : i ≠ s.tail % capacity := by
        rw [h.tail, Nat.mod_eq_of_lt (by omega)]
        omega
      dsimp only
      rw [if_neg hne]
      exact h.unused i (by omega) hlt

/-- **The slots tell a receiver where it stands.** -/
theorem Holds.tryRecv_eq (hc : 0 < capacity) {s : Ring α} {rs : List Nat} {r : Nat} (h : Holds capacity s sent rs)
    (hr : r ≤ sent.length) : s.tryRecv capacity r = Broadcast.receive capacity sent r := by
  unfold Ring.tryRecv
  rcases receive_cases capacity sent r with ⟨hle, heq⟩ | ⟨a, -, hlag, heq⟩ | ⟨a, ha, hle, heq⟩
  · rw [heq]
    obtain rfl := Nat.le_antisymm hr hle
    by_cases hfull : sent.length < capacity
    · rw [Nat.mod_eq_of_lt hfull, h.unused _ (Nat.le_refl _) hfull]
    · -- the slot holds the value that is just about to be overwritten
      have hlt : sent.length - capacity < sent.length := by omega
      have hslot := h.kept (sent.length - capacity) _ (List.getElem?_eq_getElem hlt) (by omega)
      rw [← Nat.add_mod_right, Nat.sub_add_cancel (by omega)] at hslot
      rw [hslot]
      dsimp only
      rw [if_neg (Nat.ne_of_lt hlt), if_pos hlt]
  · rw [heq]
    -- the youngest position that shares the slot
    have hmod : sent.length - 1 - (sent.length - 1 - r) % capacity < sent.length := by omega
    have hlt : (sent.length - 1 - r) % capacity < capacity := Nat.mod_lt _ hc
    have hsame : (sent.length - 1 - (sent.length - 1 - r) % capacity) % capacity = r % capacity := by
      have hdiv := Nat.div_add_mod (sent.length - 1 - r) capacity
      have hpos : sent.length - 1 - (sent.length - 1 - r) % capacity
          = r + capacity * ((sent.length - 1 - r) / capacity) := by omega
      rw [hpos, Nat.add_mul_mod_self_left]
    have hslot := h.kept _ _ (List.getElem?_eq_getElem hmod) (by omega)
    rw [hsame] at hslot
    rw [hslot]
    dsimp only
    rw [if_neg (by omega), if_neg (by omega), h.tail]
  · rw [heq, h.kept r a ha hle]
    dsimp only
    rw [if_pos rfl]

end Ring

/-- A ring with a slot for each value that is kept. -/
def ring (capacity : Nat) (hc : 0 < capacity) : Channel α capacity where
  Shared := Ring α
  Receiver := Nat
  new := Ring.init
  send := Ring.send capacity
  subscribe := fun s => (s.tail, { s with receivers := s.receivers + 1 })
  tryRecv := fun s r => ((s.tryRecv capacity r).1, (s.tryRecv capacity r).2, s)
  drop := fun s _ => { s with receivers := s.receivers - 1 }
  next := id
  Holds := Ring.Holds capacity
  next_le := Ring.Holds.next_le
  holds_new :=
    { tail := rfl
      receivers := rfl
      next_le := fun _ h => absurd h List.not_mem_nil
      kept := fun _ _ h => absurd h.symm (Option.some_ne_none _)
      unused := fun _ _ _ => rfl }
  holds_send := fun a h => h.send a
  next_subscribe := fun h => h.tail
  holds_subscribe := fun {s sent rs} h =>
    { h with
      receivers := by rw [List.length_append, h.receivers]; rfl
      next_le := fun r hr => by
        rcases List.mem_append.1 hr with hr | hr
        · exact h.next_le r hr
        · exact Nat.le_of_eq ((List.mem_singleton.1 hr).trans h.tail) }
  tryRecv_eq := fun h hr => h.tryRecv_eq hc (h.next_le _ (List.mem_of_getElem? hr))
  holds_tryRecv := fun {s sent rs k r} h hr =>
    { h with
      receivers := by rw [List.length_set]; exact h.receivers
      next_le := fun r' hr' => by
        rcases List.mem_or_eq_of_mem_set hr' with hr' | rfl
        · exact h.next_le r' hr'
        · rw [h.tryRecv_eq hc (h.next_le r (List.mem_of_getElem? hr))]
          exact (Broadcast.next_le_receive capacity (h.next_le r (List.mem_of_getElem? hr))).2 }
  holds_drop := fun {s sent rs k r} h hr =>
    { h with
      receivers := by
        rw [List.length_eraseIdx_of_lt (List.getElem?_eq_some_iff.1 hr).1, ← h.receivers]
      next_le := fun r' hr' => h.next_le r' (List.mem_of_mem_eraseIdx hr') }

end Broadcast
