/-!
# Shipping — a buffer that is pushed as a whole

Entries are received into a buffer.  A flush pushes all of it; a push that fails keeps it, and cuts it down to a cap from
the front.  What was received is accounted for by the events: each entry was delivered, was dropped, or is still buffered,
in order (`Accounted.flush`).  A flush settles whatever is buffered, and what is settled stays so (`settled_flush`).
-/
namespace Shipping

variable {α : Type}

inductive Event (α : Type)
  | received (entry : α)
  | pushed (entries : List α) (ok : Bool)
  | dropped (entries : List α)
  deriving DecidableEq, Repr

/-- A push that succeeds empties the buffer; where it fails, what exceeds the cap is dropped, the oldest entries first. -/
def flush (maxBuffer : Nat) (ok : Bool) (buffer : List α) : List (Event α) × List α :=
  match buffer with
  | [] => ([], [])
  | e :: rest =>
    if ok then ([.pushed (e :: rest) true], [])
    else if maxBuffer < (e :: rest).length then
      let dropCount := (e :: rest).length - maxBuffer
      ([.pushed (e :: rest) false, .dropped ((e :: rest).take dropCount)], (e :: rest).drop dropCount)
    else ([.pushed (e :: rest) false], e :: rest)

def Event.map {β : Type} (f : α → β) : Event α → Event β
  | .received e => .received (f e)
  | .pushed entries ok => .pushed (entries.map f) ok
  | .dropped entries => .dropped (entries.map f)

/-- A flush does not look at the entries. -/
theorem flush_map {β : Type} (f : α → β) (maxBuffer : Nat) (ok : Bool) (buffer : List α) :
    flush maxBuffer ok (buffer.map f) =
      ((flush maxBuffer ok buffer).1.map (Event.map f), (flush maxBuffer ok buffer).2.map f) := by
  cases buffer with
  | nil => rfl
  | cons e rest =>
    simp only [flush, List.map_cons, List.length_cons, List.length_map]
    split
    · rfl
    · split
      · simp [Event.map, List.map_take, List.map_drop]
      · rfl

/-! ## The account -/

def Event.received? : Event α → Option α
  | .received e => some e
  | _ => none

/-- A segment of what was received: delivered by one push, or dropped after one. -/
inductive Segment (α : Type)
  | delivered (entries : List α)
  | evicted (entries : List α)
  deriving DecidableEq, Repr

def Segment.entries : Segment α → List α
  | .delivered entries => entries
  | .evicted entries => entries

def Event.segment? : Event α → Option (Segment α)
  | .pushed entries true => some (.delivered entries)
  | .dropped entries => some (.evicted entries)
  | _ => none

def received (events : List (Event α)) : List α := events.filterMap Event.received?

def segments (events : List (Event α)) : List (Segment α) := events.filterMap Event.segment?

/-- **What was received is the segments, one after the other, and then the buffer.** -/
def Accounted (events : List (Event α)) (buffer : List α) : Prop :=
  received events = (segments events).flatMap Segment.entries ++ buffer

instance [DecidableEq α] (events : List (Event α)) (buffer : List α) : Decidable (Accounted events buffer) := by
  unfold Accounted; infer_instance

/-- **Whatever is dropped stood at the front of a buffer whose push had just failed**, and the cap is left of it. -/
def Justified (maxBuffer : Nat) (events : List (Event α)) : Prop :=
  ∀ pre entries post, events = pre ++ .dropped entries :: post →
    ∃ pre' rest, pre = pre' ++ [.pushed (entries ++ rest) false] ∧ entries ≠ [] ∧ rest.length = maxBuffer

theorem accounted_nil : Accounted ([] : List (Event α)) [] := rfl

theorem received_append (es fs : List (Event α)) : received (es ++ fs) = received es ++ received fs :=
  List.filterMap_append

theorem segments_append (es fs : List (Event α)) : segments (es ++ fs) = segments es ++ segments fs :=
  List.filterMap_append

theorem Accounted.receive {es : List (Event α)} {buffer : List α} (h : Accounted es buffer) (e : α) :
    Accounted (es ++ [.received e]) (buffer ++ [e]) := by
  unfold Accounted at *
  rw [received_append, segments_append, h]
  simp [received, segments, Event.received?, Event.segment?]

variable (maxBuffer : Nat) (ok : Bool) (buffer : List α)

theorem received_flush : received (flush maxBuffer ok buffer).1 = [] := by
  unfold flush
  split
  · rfl
  · split
    · rfl
    · split <;> rfl

/-- A flush parts the buffer into what it has settled and what is left. -/
theorem segments_flush : (segments (flush maxBuffer ok buffer).1).flatMap Segment.entries ++ (flush maxBuffer ok buffer).2
    = buffer := by
  unfold flush
  split
  · rfl
  · split
    · simp [segments, Event.segment?, Segment.entries]
    · split
      · simp only [segments, Event.segment?, Segment.entries, List.filterMap_cons, List.filterMap_nil,
          List.flatMap_cons, List.flatMap_nil, List.append_nil]
        exact List.take_append_drop _ _
      · rfl

/-- **A flush loses nothing.** -/
theorem Accounted.flush {es : List (Event α)} {buffer : List α} (h : Accounted es buffer) :
    Accounted (es ++ (flush maxBuffer ok buffer).1) (flush maxBuffer ok buffer).2 := by
  unfold Accounted at *
  rw [received_append, segments_append, received_flush, List.append_nil, List.flatMap_append, List.append_assoc,
    segments_flush]
  exact h

theorem flush_length_le : (flush maxBuffer ok buffer).2.length ≤ maxBuffer := by
  unfold flush
  split
  · exact Nat.zero_le _
  · split
    · exact Nat.zero_le _
    · split
      · rw [List.length_drop]
        omega
      · exact Nat.le_of_not_lt ‹_›

/-- A flush leaves nothing exactly if nothing was buffered, the push succeeded, or nothing may be kept. -/
theorem flush_eq_nil : (flush maxBuffer ok buffer).2 = [] ↔ buffer = [] ∨ ok = true ∨ maxBuffer = 0 := by
  unfold flush
  split
  · simp
  · split
    · simp_all
    · split
      · rw [List.drop_eq_nil_iff]
        simp_all
        omega
      · simp_all
        omega

/-! ## Every drop is justified -/

theorem justified_nil : Justified maxBuffer ([] : List (Event α)) := fun pre _ _ h => by
  cases pre <;> cases h

theorem Justified.append {es fs : List (Event α)} (h : Justified maxBuffer es) (h' : Justified maxBuffer fs) :
    Justified maxBuffer (es ++ fs) := by
  intro pre entries post heq
  rcases List.append_eq_append_iff.1 heq with ⟨mid, rfl, hfs⟩ | ⟨mid, hes, hpost⟩
  · obtain ⟨pre', rest, rfl, hrest⟩ := h' mid entries post hfs
    exact ⟨es ++ pre', rest, (List.append_assoc ..).symm, hrest⟩
  · cases mid with
    | nil =>
      obtain ⟨pre', rest, hpre, hrest⟩ := h' [] entries post (by simpa using hpost.symm)
      cases pre' <;> cases hpre
    | cons e mid =>
      obtain ⟨rfl, rfl⟩ := List.cons.inj hpost
      exact h pre entries mid hes

theorem justified_of_not_mem {es : List (Event α)} (h : ∀ entries, .dropped entries ∉ es) : Justified maxBuffer es :=
  fun pre entries post heq => absurd (by rw [heq]; exact List.mem_append_right _ (List.mem_cons_self ..)) (h entries)

theorem justified_received (e : α) : Justified maxBuffer [.received e] :=
  justified_of_not_mem maxBuffer (by simp)

theorem justified_flush : Justified maxBuffer (flush maxBuffer ok buffer).1 := by
  unfold flush
  split
  · exact justified_nil maxBuffer
  · rename_i e rest
    split
    · exact justified_of_not_mem maxBuffer (by simp)
    · split
      · rename_i hcap
        intro pre entries post h
        rcases pre with _ | ⟨f, _ | ⟨g, pre⟩⟩
        · cases (List.cons.inj h).1
        · obtain ⟨rfl, htail⟩ := List.cons.inj h
          obtain rfl := Event.dropped.inj (List.cons.inj htail).1
          refine ⟨[], (e :: rest).drop ((e :: rest).length - maxBuffer), ?_, ?_, ?_⟩
          · rw [List.take_append_drop]
            rfl
          · rw [Ne, List.take_eq_nil_iff]
            simp only [reduceCtorEq, or_false]
            omega
          · rw [List.length_drop]
            omega
        · have hnil := (List.cons.inj (List.cons.inj h).2).2
          cases pre <;> cases hnil
      · exact justified_of_not_mem maxBuffer (by simp)

/-! ## How much one push carries -/

/-- No push carries more than `n` entries. -/
def Fits (n : Nat) (events : List (Event α)) : Prop :=
  ∀ entries ok, .pushed entries ok ∈ events → entries.length ≤ n

theorem fits_append (n : Nat) (es fs : List (Event α)) : Fits n (es ++ fs) ↔ Fits n es ∧ Fits n fs := by
  unfold Fits
  simp only [List.mem_append]
  exact ⟨fun h => ⟨fun entries ok he => h entries ok (.inl he), fun entries ok hf => h entries ok (.inr hf)⟩,
    fun h entries ok he => he.elim (h.1 entries ok) (h.2 entries ok)⟩

theorem fits_received (n : Nat) (e : α) : Fits n [.received e] := by
  simp [Fits]

/-- **A flush pushes the buffer as a whole.** -/
theorem fits_flush (n : Nat) : Fits n (flush maxBuffer ok buffer).1 ↔ buffer.length ≤ n := by
  unfold flush
  split
  · simp [Fits]
  · split
    · simp [Fits]
    · split <;> simp [Fits]

theorem flush_length_le_self : (flush maxBuffer ok buffer).2.length ≤ buffer.length := by
  have h := congrArg List.length (segments_flush maxBuffer ok buffer)
  rw [List.length_append] at h
  omega

/-- A push that a flush makes and that succeeds carries the whole buffer. -/
theorem pushed_of_mem_flush {maxBuffer : Nat} {ok : Bool} {buffer entries : List α}
    (h : .pushed entries true ∈ (flush maxBuffer ok buffer).1) : ok = true ∧ entries = buffer := by
  unfold flush at h
  split at h
  · cases h
  · split at h
    · rename_i hok
      exact ⟨hok, (Event.pushed.inj (List.mem_singleton.1 h)).1⟩
    · split at h
      · rcases List.mem_cons.1 h with h | h
        · cases h
        · cases List.mem_singleton.1 h
      · cases List.mem_singleton.1 h

/-! ## What has become of an entry -/

def Delivered (events : List (Event α)) (e : α) : Prop := ∃ entries, .pushed entries true ∈ events ∧ e ∈ entries

def Failed (events : List (Event α)) (e : α) : Prop := ∃ entries, .pushed entries false ∈ events ∧ e ∈ entries

/-- `e` was dropped right after a push that failed, for the buffer exceeded the cap. -/
def Evicted (maxBuffer : Nat) (events : List (Event α)) (e : α) : Prop :=
  ∃ pre entries rest post, events = pre ++ .pushed (entries ++ rest) false :: .dropped entries :: post ∧
    rest.length = maxBuffer ∧ e ∈ entries

/-- `e` has been pushed, and is delivered, evicted, or still buffered. -/
def Settled (maxBuffer : Nat) (events : List (Event α)) (buffer : List α) (e : α) : Prop :=
  Delivered events e ∨ Evicted maxBuffer events e ∨ (e ∈ buffer ∧ Failed events e)

variable {maxBuffer} {es fs : List (Event α)} {buffer} {e : α}

theorem Settled.attempted (h : Settled maxBuffer es buffer e) : ∃ entries ok, .pushed entries ok ∈ es ∧ e ∈ entries := by
  rcases h with ⟨entries, hp, he⟩ | ⟨pre, entries, rest, post, rfl, -, he⟩ | ⟨-, entries, hp, he⟩
  · exact ⟨entries, true, hp, he⟩
  · exact ⟨entries ++ rest, false, by simp, List.mem_append_left _ he⟩
  · exact ⟨entries, false, hp, he⟩

theorem Delivered.append (h : Delivered es e) : Delivered (es ++ fs) e := by
  obtain ⟨entries, hp, he⟩ := h
  exact ⟨entries, List.mem_append_left _ hp, he⟩

theorem Failed.append (h : Failed es e) : Failed (es ++ fs) e := by
  obtain ⟨entries, hp, he⟩ := h
  exact ⟨entries, List.mem_append_left _ hp, he⟩

theorem Evicted.append (h : Evicted maxBuffer es e) : Evicted maxBuffer (es ++ fs) e := by
  obtain ⟨pre, entries, rest, post, rfl, hrest, he⟩ := h
  exact ⟨pre, entries, rest, post ++ fs, by simp, hrest, he⟩

theorem Settled.receive (h : Settled maxBuffer es buffer e) (x : α) :
    Settled maxBuffer (es ++ [.received x]) (buffer ++ [x]) e := by
  rcases h with h | h | ⟨hb, h⟩
  · exact .inl h.append
  · exact .inr (.inl h.append)
  · exact .inr (.inr ⟨List.mem_append_left _ hb, h.append⟩)

/-- **A flush settles whatever is buffered.** -/
theorem settled_flush (ok : Bool) (es : List (Event α)) (h : e ∈ buffer) :
    Settled maxBuffer (es ++ (flush maxBuffer ok buffer).1) (flush maxBuffer ok buffer).2 e := by
  unfold flush
  split
  · cases h
  · rename_i x rest
    split
    · exact .inl ⟨x :: rest, by simp, h⟩
    · split
      · rename_i hcap
        rw [← List.take_append_drop ((x :: rest).length - maxBuffer) (x :: rest)] at h
        rcases List.mem_append.1 h with h | h
        · refine .inr (.inl ⟨es, _, (x :: rest).drop ((x :: rest).length - maxBuffer), [], ?_, ?_, h⟩)
          · rw [List.take_append_drop]
          · rw [List.length_drop]
            omega
        · exact .inr (.inr ⟨h, x :: rest, by simp, List.mem_of_mem_drop h⟩)
      · exact .inr (.inr ⟨h, x :: rest, by simp, h⟩)

/-- **What is settled stays so.** -/
theorem Settled.flush (h : Settled maxBuffer es buffer e) (ok : Bool) :
    Settled maxBuffer (es ++ (flush maxBuffer ok buffer).1) (flush maxBuffer ok buffer).2 e := by
  rcases h with h | h | ⟨hb, -⟩
  · exact .inl h.append
  · exact .inr (.inl h.append)
  · exact settled_flush ok es hb

end Shipping
