import ZeroDowntime.Upserts
/-!
# Journal — a table, and the changes its row triggers see

`AFTER INSERT OR UPDATE OR DELETE … FOR EACH ROW`: a change carries the row as it was and as it is (OLD and NEW).  Changes
that fit the table one after the other (`Fits`) make, for every key, a chain from the row there was to the row there is
(`linked`), so that what was written down of a record gives its state back.
-/
namespace Journal

inductive RowChange (α : Type)
  | insert (new : α)
  | update (old new : α)
  | delete (old : α)
  deriving DecidableEq, Repr

variable {α β κ : Type} [DecidableEq κ] {key : α → κ}

namespace RowChange

def old : RowChange α → Option α
  | .insert _ => none
  | .update old _ => some old
  | .delete old => some old

def new : RowChange α → Option α
  | .insert new => some new
  | .update _ new => some new
  | .delete _ => none

/-- `TG_OP` -/
def operation : RowChange α → String
  | .insert _ => "INSERT"
  | .update _ _ => "UPDATE"
  | .delete _ => "DELETE"

/-- NEW where there is one, else OLD. -/
def row : RowChange α → α
  | .insert new => new
  | .update _ new => new
  | .delete old => old

def apply (key : α → κ) (rows : List α) : RowChange α → List α
  | .insert new => rows ++ [new]
  | .update old new => rows.map (fun r => if key r = key old then new else r)
  | .delete old => rows.filter (fun r => decide (key r ≠ key old))

/-- A change of the table as it is: a key that is new, or a row that is there. -/
def Fits (key : α → κ) (rows : List α) : RowChange α → Prop
  | .insert new => key new ∉ rows.map key
  | .update old new => old ∈ rows ∧ key new = key old
  | .delete old => old ∈ rows

end RowChange

def applyAll (key : α → κ) (rows : List α) (cs : List (RowChange α)) : List α := cs.foldl (RowChange.apply key) rows

def Fits (key : α → κ) : List α → List (RowChange α) → Prop
  | _, [] => True
  | rows, c :: cs => c.Fits key rows ∧ Fits key (c.apply key rows) cs

/-- Each change starts from what the one before has left. -/
def Linked : Option β → List (Option β × Option β) → Option β → Prop
  | a, [], b => a = b
  | a, c :: cs, b => c.1 = a ∧ Linked c.2 cs b

/-- OLD and NEW of a record's changes, in their order. -/
def of (key : α → κ) (k : κ) (cs : List (RowChange α)) : List (Option α × Option α) :=
  (cs.filter (fun c => decide (key c.row = k))).map (fun c => (c.old, c.new))

/-! ## One change -/

theorem nodup_apply {rows : List α} {c : RowChange α} (hnd : (rows.map key).Nodup) (hf : c.Fits key rows) :
    ((c.apply key rows).map key).Nodup := by
  cases c with
  | insert new =>
    rw [RowChange.apply, List.map_append, List.nodup_append]
    refine ⟨hnd, List.nodup_singleton _, ?_⟩
    rintro a ha b hb rfl
    exact hf (List.mem_singleton.1 hb ▸ ha)
  | update old new =>
    have hkeys : (rows.map (fun r => if key r = key old then new else r)).map key = rows.map key := by
      rw [List.map_map]
      refine List.map_congr_left (fun r _ => ?_)
      simp only [Function.comp_apply]
      split
      · rw [hf.2, ‹key r = key old›]
      · rfl
    rw [RowChange.apply, hkeys]
    exact hnd
  | delete old => exact (List.filter_sublist.map key).nodup hnd

/-- **What a change does to a key**: nothing to another record's, and to its own it leads from OLD to NEW. -/
theorem lookup_apply {rows : List α} {c : RowChange α} (hnd : (rows.map key).Nodup) (hf : c.Fits key rows) (k : κ) :
    if key c.row = k then Upserts.lookup key k rows = c.old ∧ Upserts.lookup key k (c.apply key rows) = c.new
    else Upserts.lookup key k (c.apply key rows) = Upserts.lookup key k rows := by
  have hnd' := nodup_apply hnd hf
  split
  · rename_i hk
    subst hk
    cases c with
    | insert new =>
      refine ⟨(Upserts.lookup_eq_none _ _).2 hf, (Upserts.lookup_eq_some _ hnd' _ _).2 ⟨?_, rfl⟩⟩
      exact List.mem_append_right _ (List.mem_singleton_self new)
    | update old new =>
      refine ⟨(Upserts.lookup_eq_some _ hnd _ _).2 ⟨hf.1, hf.2.symm⟩, (Upserts.lookup_eq_some _ hnd' _ _).2 ⟨?_, rfl⟩⟩
      exact List.mem_map.2 ⟨old, hf.1, if_pos rfl⟩
    | delete old =>
      refine ⟨(Upserts.lookup_eq_some _ hnd _ _).2 ⟨hf, rfl⟩, (Upserts.lookup_eq_none _ _).2 (fun hin => ?_)⟩
      obtain ⟨r, hr, hk⟩ := List.mem_map.1 hin
      exact of_decide_eq_true (p := key r ≠ key old) (List.mem_filter.1 hr).2 hk
  · rename_i hk
    cases hl : Upserts.lookup key k rows with
    | none =>
      refine (Upserts.lookup_eq_none _ _).2 (fun hin => ?_)
      have hn := (Upserts.lookup_eq_none _ _).1 hl
      obtain ⟨r, hr, rfl⟩ := List.mem_map.1 hin
      cases c with
      | insert new =>
        rcases List.mem_append.1 hr with hr | hr
        · exact hn (List.mem_map_of_mem hr)
        · exact hk (List.mem_singleton.1 hr ▸ rfl)
      | update old new =>
        obtain ⟨r₀, h₀, rfl⟩ := List.mem_map.1 hr
        by_cases he : key r₀ = key old
        · rw [if_pos he] at hk
          exact hk rfl
        · rw [if_neg he] at hn
          exact hn (List.mem_map_of_mem h₀)
      | delete old => exact hn (List.mem_map_of_mem (List.mem_filter.1 hr).1)
    | some r =>
      obtain ⟨hr, rfl⟩ := (Upserts.lookup_eq_some _ hnd _ _).1 hl
      refine (Upserts.lookup_eq_some _ hnd' _ _).2 ⟨?_, rfl⟩
      cases c with
      | insert new => exact List.mem_append_left _ hr
      | update old new => exact List.mem_map.2 ⟨r, hr, if_neg (fun he => hk (hf.2.trans he.symm))⟩
      | delete old => exact List.mem_filter.2 ⟨hr, decide_eq_true (fun he => hk he.symm)⟩

/-! ## Changes one after the other -/

theorem fits_append {key : α → κ} : ∀ (cs ds : List (RowChange α)) (rows : List α), Fits key rows cs →
    Fits key (applyAll key rows cs) ds → Fits key rows (cs ++ ds)
  | [], _, _, _, hd => hd
  | c :: cs, ds, rows, hc, hd => ⟨hc.1, fits_append cs ds (c.apply key rows) hc.2 hd⟩

/-- **The changes of a record are a chain from the row there was to the row there is.** -/
theorem linked {key : α → κ} (k : κ) : ∀ (cs : List (RowChange α)) (rows : List α), (rows.map key).Nodup → Fits key rows cs →
    Linked (Upserts.lookup key k rows) (of key k cs) (Upserts.lookup key k (applyAll key rows cs))
  | [], _, _, _ => rfl
  | c :: cs, rows, hnd, hf => by
    have hone := lookup_apply hnd hf.1 k
    have ih := linked k cs (c.apply key rows) (nodup_apply hnd hf.1) hf.2
    unfold of at ih ⊢
    show Linked _ _ (Upserts.lookup key k (applyAll key (c.apply key rows) cs))
    by_cases hk : key c.row = k
    · rw [if_pos hk] at hone
      simp only [List.filter_cons, hk, decide_true, if_true, List.map_cons]
      exact ⟨hone.1.symm, hone.2 ▸ ih⟩
    · rw [if_neg hk] at hone
      simp only [List.filter_cons, hk, decide_false, Bool.false_eq_true, if_false]
      exact hone ▸ ih

/-- **An UPDATE of several rows**, each with its own change. -/
theorem fits_updates {key : α → κ} {f : α → α} (hk : ∀ r, key (f r) = key r) : ∀ (olds rows : List α),
    (rows.map key).Nodup → (∀ o ∈ olds, o ∈ rows) → (olds.map key).Nodup →
    Fits key rows (olds.map (fun o => .update o (f o))) ∧
      applyAll key rows (olds.map (fun o => .update o (f o))) =
        rows.map (fun r => if key r ∈ olds.map key then f r else r)
  | [], rows, _, _, _ => by
    refine ⟨trivial, ?_⟩
    simp [applyAll]
  | o :: olds, rows, hnd, hin, hno => by
    obtain ⟨hne, hno⟩ := List.nodup_cons.1 hno
    have ho : o ∈ rows := hin o List.mem_cons_self
    have hfit : (RowChange.update o (f o)).Fits key rows := ⟨ho, hk o⟩
    have hin' : ∀ o' ∈ olds, o' ∈ (RowChange.update o (f o)).apply key rows := fun o' ho' => by
      refine List.mem_map.2 ⟨o', hin o' (List.mem_cons_of_mem _ ho'), if_neg (fun he => hne ?_)⟩
      exact he ▸ List.mem_map_of_mem ho'
    obtain ⟨hfits, happly⟩ := fits_updates hk olds _ (nodup_apply hnd hfit) hin' hno
    refine ⟨⟨hfit, hfits⟩, ?_⟩
    rw [List.map_cons]
    refine happly.trans ?_
    rw [RowChange.apply, List.map_map]
    refine List.map_congr_left (fun r hr => ?_)
    simp only [Function.comp_apply, List.map_cons, List.mem_cons]
    by_cases he : key r = key o
    · obtain rfl : r = o := List.inj_on_of_nodup_map hnd hr ho he
      have hne' : key (f r) ∉ olds.map key := by rwa [hk]
      simp only [if_true, true_or, hne', if_false]
    · rw [if_neg he]
      simp only [he, false_or]

theorem Linked.map {γ : Type} (f : β → γ) : ∀ {a b : Option β} {cs : List (Option β × Option β)}, Linked a cs b →
    Linked (a.map f) (cs.map (fun c => (c.1.map f, c.2.map f))) (b.map f)
  | _, _, [], h => congrArg (Option.map f) h
  | _, _, _ :: _, h => ⟨congrArg (Option.map f) h.1, Linked.map f h.2⟩

theorem Linked.trans : ∀ {a b c : Option β} {cs ds : List (Option β × Option β)}, Linked a cs b → Linked b ds c →
    Linked a (cs ++ ds) c
  | _, _, _, [], _, h, h' => by
    obtain rfl : _ = _ := h
    exact h'
  | _, _, _, _ :: _, _, h, h' => ⟨h.1, Linked.trans h.2 h'⟩

/-- **The last entry of a chain says what is there now.** -/
theorem Linked.getLast : ∀ {a b : Option β} {cs : List (Option β × Option β)}, Linked a cs b →
    b = (cs.getLast?.map Prod.snd).getD a
  | _, _, [], h => h.symm
  | a, b, [c], h => h.2.symm
  | a, b, _ :: c :: cs, h => by
    rw [List.getLast?_cons_cons]
    have ih := Linked.getLast h.2
    rw [List.getLast?_cons] at ih ⊢
    exact ih

end Journal
