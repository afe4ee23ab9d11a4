import Mathlib.Data.List.Basic
/-!
# Pipes — what a writer leaves for a reader

A pipe holds what is written and not yet read; a writer waits while it is full, a reader while it is empty and not
closed.  What is still to be read (`toCome`) is kept by every write and by the close; a read takes its head, and finds the
end only if nothing is left.
-/
namespace Pipes

variable {α : Type}

/-- When a pipe takes no more.  An empty one takes something. -/
structure Capacity (α : Type) where
  full : List α → Bool
  full_nil : full [] = false

/-- A pipe with what its writer still has to write before it closes. -/
structure Pipe (α : Type) where
  unwritten : List α
  held : List α
  closed : Bool
  all_written : closed = true → unwritten = []

namespace Pipe

/-- Nothing is written yet. -/
def fresh (content : List α) : Pipe α := ⟨content, [], false, fun h => absurd h Bool.false_ne_true⟩

def write (c : Capacity α) (p : Pipe α) : Option (Pipe α) :=
  match p.unwritten with
  | [] => none
  | a :: rest =>
    if p.closed || c.full p.held then none
    else some ⟨rest, p.held ++ [a], false, fun h => absurd h Bool.false_ne_true⟩

def close (p : Pipe α) : Option (Pipe α) :=
  match p.unwritten with
  | [] => if p.closed then none else some ⟨[], p.held, true, fun _ => rfl⟩
  | _ :: _ => none

/-- `none` inside is the end. -/
def read (p : Pipe α) : Option (Option α × Pipe α) :=
  match p.held with
  | a :: held => some (some a, { p with held := held })
  | [] => if p.closed then some (none, p) else none

def toCome (p : Pipe α) : List α := p.held ++ p.unwritten

/-- How often something can still happen to a pipe. -/
def work (p : Pipe α) : Nat := 2 * p.unwritten.length + p.held.length + (!p.closed).toNat

variable {c : Capacity α} {p p' : Pipe α} {a : α}

theorem toCome_write (h : p.write c = some p') : p'.toCome = p.toCome := by
  unfold write at h
  split at h
  · cases h
  · rename_i a rest heq
    split at h
    · cases h
    · obtain rfl := Option.some.inj h
      rw [toCome, toCome, heq]
      simp

theorem toCome_close (h : p.close = some p') : p'.toCome = p.toCome := by
  unfold close at h
  split at h
  · rename_i heq
    split at h
    · cases h
    · obtain rfl := Option.some.inj h
      rw [toCome, toCome, heq]
  · cases h

/-- **A read takes what comes next.** -/
theorem toCome_read (h : p.read = some (some a, p')) : p.toCome = a :: p'.toCome := by
  unfold read at h
  split at h
  · rename_i b held heq
    obtain ⟨hb, rfl⟩ := Prod.mk.inj (Option.some.inj h)
    obtain rfl := Option.some.inj hb
    rw [toCome, toCome, heq]
    rfl
  · split at h
    · cases h
    · cases h

/-- **The end is read only when nothing is left.** -/
theorem toCome_read_end (h : p.read = some (none, p')) : p.toCome = [] ∧ p' = p := by
  unfold read at h
  split at h
  · cases h
  · rename_i heq
    split at h
    · rename_i hclosed
      have hsame := (Prod.mk.inj (Option.some.inj h)).2
      exact ⟨by rw [toCome, heq, p.all_written hclosed]; rfl, hsame.symm⟩
    · cases h

theorem work_write (h : p.write c = some p') : p'.work < p.work := by
  unfold write at h
  split at h
  · cases h
  · rename_i a rest heq
    split at h
    · cases h
    · rename_i hopen
      rw [Bool.or_eq_true, not_or] at hopen
      obtain rfl := Option.some.inj h
      simp only [work, heq, Bool.eq_false_iff.2 hopen.1, List.length_append, List.length_cons, List.length_nil]
      omega

theorem work_close (h : p.close = some p') : p'.work < p.work := by
  unfold close at h
  split at h
  · rename_i heq
    split at h
    · cases h
    · rename_i hopen
      obtain rfl := Option.some.inj h
      rw [work, work, heq, Bool.eq_false_iff.2 hopen]
      exact Nat.lt_succ_self _
  · cases h

theorem work_read (h : p.read = some (some a, p')) : p'.work < p.work := by
  unfold read at h
  split at h
  · rename_i b held heq
    obtain ⟨-, rfl⟩ := Prod.mk.inj (Option.some.inj h)
    simp only [work, heq, List.length_cons]
    omega
  · split at h
    · cases h
    · cases h

/-- **A pipe never blocks both ends.** -/
theorem exists_move (c : Capacity α) (p : Pipe α) : (p.write c).isSome ∨ p.close.isSome ∨ p.read.isSome := by
  cases hheld : p.held with
  | cons a held => exact .inr (.inr (by simp [read, hheld]))
  | nil =>
    cases hclosed : p.closed with
    | true => exact .inr (.inr (by simp [read, hheld, hclosed]))
    | false =>
      cases hunwritten : p.unwritten with
      | nil => exact .inr (.inl (by simp [close, hunwritten, hclosed]))
      | cons a rest => exact .inl (by simp [write, hunwritten, hclosed, hheld, c.full_nil])

end Pipe
end Pipes
