import Mathlib.Data.List.Lex
import Mathlib.Data.String.Basic
import ZeroDowntime.MergeJoin
/-!
# Reconcile — the actions that bring the running applications to the target ones

`ReconcileIterator` walks the current applications and the targets from the end, both keyed by their image reference
without its tag, and yields what has to be created, updated or removed.  Its actions are those of a merge of the two
lists (`actions_new`).
-/
namespace ZeroDowntime
namespace Apps

open MergeJoin (Step join lefts rights)

abbrev Reference := List Char

/-- The text before the first `:`. -/
def stripTag (r : Reference) : Reference := r.takeWhile (fun c => decide (c ≠ ':'))

class PodmanImageInfo (α : Type) where
  reference : α → Reference
  digest : α → String
  applicationConfigId : α → Option Int

open PodmanImageInfo (reference digest applicationConfigId)

def repository {α : Type} [PodmanImageInfo α] (x : α) : Reference := stripTag (reference x)

structure CurrentAppEntry where
  reference : Reference
  digest : String
  applicationConfigId : Option Int
  applicationIndex : Nat
  deriving DecidableEq, Repr

inductive ReconcileAction (P : Type)
  | create (image : P)
  | update (applicationIndex : Nat) (targetImage : P)
  | remove (applicationIndex : Nat)
  deriving DecidableEq, Repr

structure ReconcileIterator (P : Type) where
  current : List CurrentAppEntry
  target : List (Reference × P)

variable {A P : Type} [PodmanImageInfo A] [PodmanImageInfo P]

def CurrentAppEntry.of (p : A × Nat) : CurrentAppEntry :=
  ⟨repository p.1, PodmanImageInfo.digest p.1, PodmanImageInfo.applicationConfigId p.1, p.2⟩

def ReconcileIterator.new (apps : List A) (targetImgs : List P) : ReconcileIterator P where
  current := apps.zipIdx.reverse.map CurrentAppEntry.of
  target := targetImgs.reverse.map (fun img => (stripTag (reference img), img))

/-- What `new` asserts in a debug build. -/
def ReconcileIterator.Asserted (it : ReconcileIterator P) : Prop :=
  it.current.Pairwise (fun a b => b.reference < a.reference) ∧ it.target.Pairwise (fun a b => b.1 < a.1)

def changed (curr : CurrentAppEntry) (target : P) : Bool :=
  decide (curr.digest ≠ digest target) || decide (curr.applicationConfigId ≠ applicationConfigId target)

def nextFrom : List CurrentAppEntry → List (Reference × P) → Option (ReconcileAction P × ReconcileIterator P)
  | [], [] => none
  | [], t :: target => some (.create t.2, ⟨[], target⟩)
  | c :: current, [] => some (.remove c.applicationIndex, ⟨current, []⟩)
  | c :: current, t :: target =>
    if c.reference < t.1 then some (.create t.2, ⟨c :: current, target⟩)
    else if t.1 < c.reference then some (.remove c.applicationIndex, ⟨current, t :: target⟩)
    else if changed c t.2 then some (.update c.applicationIndex t.2, ⟨current, target⟩)
    else nextFrom current target

def ReconcileIterator.next (it : ReconcileIterator P) : Option (ReconcileAction P × ReconcileIterator P) :=
  nextFrom it.current it.target

def ReconcileIterator.collect : Nat → ReconcileIterator P → List (ReconcileAction P)
  | 0, _ => []
  | n + 1, it =>
    match it.next with
    | none => []
    | some (a, it') => a :: it'.collect n

/-- All actions of the iterator: each consumes an entry, so there are no more of them than entries. -/
def ReconcileIterator.actions (it : ReconcileIterator P) : List (ReconcileAction P) :=
  it.collect (it.current.length + it.target.length)

/-! ## The actions are those of a merge -/

/-- The action a step of the merge stands for; a pair that did not change is skipped. -/
def toAction : Step CurrentAppEntry (Reference × P) → Option (ReconcileAction P)
  | .left c => some (.remove c.applicationIndex)
  | .right t => some (.create t.2)
  | .both c t => if changed c t.2 then some (.update c.applicationIndex t.2) else none

def ReconcileIterator.remaining (it : ReconcileIterator P) : List (ReconcileAction P) :=
  (join CurrentAppEntry.reference Prod.fst it.current it.target).filterMap toAction

/-- **`next` returns the next action of the merge, and what is left to merge.** -/
theorem nextFrom_spec : ∀ (current : List CurrentAppEntry) (target : List (Reference × P)),
    (nextFrom current target = none → (ReconcileIterator.mk current target).remaining = []) ∧
    ∀ a it, nextFrom current target = some (a, it) →
      (ReconcileIterator.mk current target).remaining = a :: it.remaining ∧
        it.current.length + it.target.length < current.length + target.length
  | [], [] => ⟨fun _ => rfl, fun _ _ h => by cases h⟩
  | [], t :: target => ⟨fun h => by (cases h), fun _ _ h => by cases h; exact ⟨rfl, by simp⟩⟩
  | c :: current, [] => ⟨fun h => by (cases h), fun _ _ h => by cases h; exact ⟨rfl, by simp⟩⟩
  | c :: current, t :: target => by
    unfold nextFrom ReconcileIterator.remaining
    simp only [MergeJoin.join_cons_cons]
    by_cases hlt : c.reference < t.1
    · simp only [if_pos hlt]
      exact ⟨fun h => by (cases h), fun _ _ h => by cases h; exact ⟨rfl, by simp⟩⟩
    by_cases hgt : t.1 < c.reference
    · simp only [if_neg hlt, if_pos hgt]
      exact ⟨fun h => by (cases h), fun _ _ h => by cases h; exact ⟨rfl, by simp⟩⟩
    simp only [if_neg hlt, if_neg hgt]
    cases hch : changed c t.2 with
    | true =>
      rw [List.filterMap_cons_some (b := .update c.applicationIndex t.2) (by simp [toAction, hch])]
      exact ⟨fun h => by (cases h), fun _ _ h => by cases h; exact ⟨rfl, by simp; omega⟩⟩
    | false =>
      rw [List.filterMap_cons_none (by simp [toAction, hch])]
      obtain ⟨hnone, hsome⟩ := nextFrom_spec current target
      refine ⟨hnone, fun a it h => ?_⟩
      obtain ⟨heq, hlen⟩ := hsome a it h
      exact ⟨heq, by simp only [List.length_cons]; omega⟩

theorem collect_eq : ∀ (n : Nat) (it : ReconcileIterator P), it.current.length + it.target.length ≤ n →
    it.collect n = it.remaining
  | 0, ⟨current, target⟩, h => by
    obtain rfl : current = [] := List.length_eq_zero_iff.1 (by simp only at h; omega)
    obtain rfl : target = [] := List.length_eq_zero_iff.1 (by simp only at h; omega)
    rfl
  | n + 1, ⟨current, target⟩, h => by
    obtain ⟨hnone, hsome⟩ := nextFrom_spec current target
    rw [ReconcileIterator.collect, ReconcileIterator.next]
    cases hn : nextFrom current target with
    | none => exact (hnone hn).symm
    | some r =>
      obtain ⟨heq, hlen⟩ := hsome r.1 r.2 hn
      simp only at h
      simp only [heq, collect_eq n r.2 (by omega)]

/-- The steps of the merge of the applications, each with its index, and the targets. -/
def steps (apps : List A) (targets : List P) : List (Step (A × Nat) P) :=
  join (fun p => repository p.1) repository apps.zipIdx.reverse targets.reverse

def differs (a : A) (t : P) : Bool :=
  decide (digest a ≠ digest t) || decide (applicationConfigId a ≠ applicationConfigId t)

def actionOf : Step (A × Nat) P → Option (ReconcileAction P)
  | .left p => some (.remove p.2)
  | .right t => some (.create t)
  | .both p t => if differs p.1 t then some (.update p.2 t) else none

def actionsOf (ss : List (Step (A × Nat) P)) : List (ReconcileAction P) := ss.filterMap actionOf

@[simp] theorem actionsOf_left (p : A × Nat) (ss : List (Step (A × Nat) P)) :
    actionsOf (.left p :: ss) = .remove p.2 :: actionsOf ss := rfl

@[simp] theorem actionsOf_right (t : P) (ss : List (Step (A × Nat) P)) :
    actionsOf (.right t :: ss) = .create t :: actionsOf ss := rfl

theorem actionsOf_update (p : A × Nat) (t : P) (ss : List (Step (A × Nat) P)) (h : differs p.1 t = true) :
    actionsOf (.both p t :: ss) = .update p.2 t :: actionsOf ss :=
  List.filterMap_cons_some (by simp [actionOf, h])

theorem actionsOf_keep (p : A × Nat) (t : P) (ss : List (Step (A × Nat) P)) (h : differs p.1 t = false) :
    actionsOf (.both p t :: ss) = actionsOf ss :=
  List.filterMap_cons_none (by simp [actionOf, h])

/-- **The iterator's actions are those of the merge of the applications and the targets.** -/
theorem actions_new (apps : List A) (targets : List P) :
    (ReconcileIterator.new apps targets).actions = actionsOf (steps apps targets) := by
  unfold ReconcileIterator.actions
  rw [collect_eq _ _ (Nat.le_refl _)]
  unfold ReconcileIterator.new ReconcileIterator.remaining steps actionsOf
  simp only
  rw [MergeJoin.join_map, List.filterMap_map]
  refine List.filterMap_congr (fun s _ => ?_)
  cases s <;> rfl

theorem lefts_steps (apps : List A) (targets : List P) : lefts (steps apps targets) = apps.zipIdx.reverse :=
  MergeJoin.lefts_join _ _ _ _

theorem rights_steps (apps : List A) (targets : List P) : rights (steps apps targets) = targets.reverse :=
  MergeJoin.rights_join _ _ _ _

/-! ## What the steps consume -/

theorem exists_left (apps : List A) (targets : List P) (p : A × Nat) :
    (∃ s ∈ steps apps targets, s.left? = some p) ↔ apps[p.2]? = some p.1 := by
  rw [← List.mem_filterMap, show (steps apps targets).filterMap Step.left? = _ from lefts_steps apps targets,
    List.mem_reverse, List.mem_zipIdx_iff_getElem?]

theorem exists_right (apps : List A) (targets : List P) (t : P) :
    (∃ s ∈ steps apps targets, s.right? = some t) ↔ t ∈ targets := by
  rw [← List.mem_filterMap, show (steps apps targets).filterMap Step.right? = _ from rights_steps apps targets,
    List.mem_reverse]

variable {apps : List A} {targets : List P} {s : Step (A × Nat) P}

theorem getElem?_of_left (hs : s ∈ steps apps targets) {p : A × Nat} (hp : s.left? = some p) : apps[p.2]? = some p.1 :=
  (exists_left apps targets p).1 ⟨s, hs, hp⟩

theorem mem_of_left (hs : s ∈ steps apps targets) {p : A × Nat} (hp : s.left? = some p) : p.1 ∈ apps :=
  List.mem_of_getElem? (getElem?_of_left hs hp)

theorem mem_of_right (hs : s ∈ steps apps targets) {t : P} (ht : s.right? = some t) : t ∈ targets :=
  (exists_right apps targets t).1 ⟨s, hs, ht⟩

end Apps
end ZeroDowntime
