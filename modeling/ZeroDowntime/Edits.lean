import ZeroDowntime.Statements
/-!
# Edits — two requests on one row, statement by statement

`replace` and `delete` first select the row and then write, as statements of their own.  Two such requests on one row are
interleaved; what they leave is that of one after the other exactly if they are not both under way at some point, or one
is refused as it would have been alone (`linearizable_iff`).
-/
namespace Versioned

inductive Edit (A α : Type)
  | update (m : Row α → A)
  | delete (now : Int)

inductive Answer (ε α : Type)
  | updated (res : Except ε (Row α))
  | deleted (res : Except ε Nat)
  deriving DecidableEq

/-- The statement a request has come to: its SELECT, the INSERT or the UPDATE after it, the UPDATE after an INSERT. -/
inductive Stage (ε α : Type)
  | start
  | found (current : Row α)
  | inserted (current new : Row α)
  | done (answer : Answer ε α)
  deriving DecidableEq

/-- The row a request under way has found. -/
def Stage.current? {ε α : Type} : Stage ε α → Option (Row α)
  | .found current => some current
  | .inserted current _ => some current
  | _ => none

/-- An INSERT was accepted, or the request is done. -/
def Stage.past {ε α : Type} : Stage ε α → Bool
  | .inserted _ _ | .done _ => true
  | _ => false

/-- Two requests and their table. -/
structure Pair (ε α : Type) where
  stages : Bool → Stage ε α
  table : Table α

def Pair.start {ε α : Type} (t : Table α) : Pair ε α := ⟨fun _ => .start, t⟩

def Pair.set {ε α : Type} (p : Pair ε α) (s : Bool) (stage : Stage ε α) (t : Table α) : Pair ε α :=
  ⟨fun s' => if s' = s then stage else p.stages s', t⟩

@[simp] theorem Pair.set_table {ε α : Type} (p : Pair ε α) (s : Bool) (stage : Stage ε α) (t : Table α) :
    (p.set s stage t).table = t := rfl

@[simp] theorem Pair.set_same {ε α : Type} (p : Pair ε α) (s : Bool) (stage : Stage ε α) (t : Table α) :
    (p.set s stage t).stages s = stage := if_pos rfl

@[simp] theorem Pair.set_other {ε α : Type} (p : Pair ε α) (s : Bool) (stage : Stage ε α) (t : Table α) :
    (p.set s stage t).stages (!s) = p.stages (!s) := if_neg (by simp)

@[simp] theorem Pair.set_not {ε α : Type} (p : Pair ε α) (s : Bool) (stage : Stage ε α) (t : Table α) :
    (p.set (!s) stage t).stages s = p.stages s := if_neg (by simp)

def Pair.Finished {ε α : Type} (p : Pair ε α) : Prop := ∀ s, ∃ answer, p.stages s = .done answer

/-- An INSERT is not refused with an error that neither its checks nor its table have. -/
theorem Entity.accept_ne_error {ε A α : Type} (E : Entity ε A α) (enforced : Bool) (fk : α → Except ε Unit)
    (t : Table α) (m : A) (e : ε) (hbefore : E.beforeInsert m ≠ .error e) (hcomplete : E.complete m ≠ .error e)
    (hduplicate : ∀ name, E.duplicate name ≠ e) (hfk : ∀ a, fk a ≠ .error e) (hexhausted : E.exhausted ≠ e) :
    E.accept enforced fk t m ≠ .error e := by
  unfold Entity.accept
  cases hb : E.beforeInsert m with
  | error e' => exact fun h => hbefore (hb.trans (Except.error.inj h ▸ rfl))
  | ok _ =>
    cases hc : E.complete m with
    | error e' => exact fun h => hcomplete (hc.trans (Except.error.inj h ▸ rfl))
    | ok a =>
      by_cases hn : t.next < idLimit
      · simp only [hn, if_true]
        cases E.indexes.find? (fun ix => enforced && ix.taken t a) with
        | some ix => exact fun h => hduplicate _ (Except.error.inj h)
        | none =>
          cases hf : fk a with
          | error e' => exact fun h => hfk a (hf.trans (Except.error.inj h ▸ rfl))
          | ok _ => exact fun h => nomatch h
      · simp only [hn, if_false]
        exact fun h => hexhausted (Except.error.inj h)

/-- What the requests on one row have in common. -/
structure Site (ε A α : Type) where
  entity : Entity ε A α
  enforced : Bool
  fk : α → Except ε Unit
  notFound : ε
  id : Int

namespace Site

variable {ε A α : Type} (S : Site ε A α)

/-- One statement of a request. -/
def step (edit : Edit A α) (stage : Stage ε α) (t : Table α) : Stage ε α × Table α :=
  match stage with
  | .start =>
    match t.findActive S.id, edit with
    | some current, _ => (.found current, t)
    | none, .update _ => (.done (.updated (.error S.notFound)), t)
    | none, .delete _ => (.done (.deleted (.ok 0)), t)
  | .found current =>
    match edit with
    | .update m =>
      match S.entity.insert S.enforced S.fk t (m current) with
      | (.error e, t') => (.done (.updated (.error e)), t')
      | (.ok new, t') => (.inserted current new, t')
    | .delete now =>
      match S.entity.beforeUpdate current.data with
      | .error e => (.done (.deleted (.error e)), t)
      | .ok _ => (.done (.deleted (.ok 1)), t.softDelete current.id now)
  | .inserted current new =>
    match S.entity.setSuperseded current new.id t with
    | (.error e, t') => (.done (.updated (.error e)), t')
    | (.ok _, t') => (.done (.updated (.ok new)), t')
  | .done answer => (.done answer, t)

/-- The request as a whole. -/
def alone (edit : Edit A α) (t : Table α) : Answer ε α × Table α :=
  match edit with
  | .update m =>
    (.updated (S.entity.replace S.enforced S.fk S.notFound S.id m t).1,
      (S.entity.replace S.enforced S.fk S.notFound S.id m t).2)
  | .delete now => (.deleted (S.entity.delete now S.id t).1, (S.entity.delete now S.id t).2)

def pairStep (edits : Bool → Edit A α) (p : Pair ε α) (s : Bool) : Pair ε α :=
  p.set s (S.step (edits s) (p.stages s) p.table).1 (S.step (edits s) (p.stages s) p.table).2

/-- The requests take their statements in the order of the schedule; one that is done has none left. -/
def interleave (edits : Bool → Edit A α) (p : Pair ε α) (schedule : List Bool) : Pair ε α :=
  schedule.foldl (S.pairStep edits) p

/-- The outcome is that of the request `s`, and then of the other. -/
structure Sequential (edits : Bool → Edit A α) (t : Table α) (s : Bool) (p : Pair ε α) : Prop where
  first : p.stages s = .done (S.alone (edits s) t).1
  second : p.stages (!s) = .done (S.alone (edits (!s)) (S.alone (edits s) t).2).1
  table : p.table = (S.alone (edits (!s)) (S.alone (edits s) t).2).2

def Linearizable (edits : Bool → Edit A α) (t : Table α) (p : Pair ε α) : Prop := ∃ s, S.Sequential edits t s p

/-- At some point both requests have found the row and neither is done. -/
def Overlap (edits : Bool → Edit A α) (t : Table α) (schedule : List Bool) : Prop :=
  ∃ pre post, schedule = pre ++ post ∧
    ∀ s, ∃ current, ((S.interleave edits (.start t) pre).stages s).current? = some current

/-- The request is an update, and its INSERT is refused, when it comes, as it is refused in the table before both. -/
def RefusedAlike (edits : Bool → Edit A α) (t : Table α) (schedule : List Bool) (s : Bool) : Prop :=
  ∃ pre post current m e, schedule = pre ++ s :: post ∧
    (S.interleave edits (.start t) pre).stages s = .found current ∧ edits s = .update m ∧
    S.entity.accept S.enforced S.fk (S.interleave edits (.start t) pre).table (m current) = .error e ∧
    S.entity.accept S.enforced S.fk t (m current) = .error e

/-! ## One statement -/

/-- The answer to a request that finds no active row. -/
def late : Edit A α → Answer ε α
  | .update _ => .updated (.error S.notFound)
  | .delete _ => .deleted (.ok 0)

/-- Everything a statement can do. -/
inductive Moves (S : Site ε A α) (edit : Edit A α) (tb : Table α) : Stage ε α → Stage ε α → Table α → Prop
  | found (c : Row α) (h : tb.findActive S.id = some c) : Moves S edit tb .start (.found c) tb
  | late (h : tb.findActive S.id = none) : Moves S edit tb .start (.done (S.late edit)) tb
  | refused (c : Row α) (m : Row α → A) (e : ε) (hm : edit = .update m)
      (ha : S.entity.accept S.enforced S.fk tb (m c) = .error e) :
      Moves S edit tb (.found c) (.done (.updated (.error e))) tb
  | inserted (c : Row α) (m : Row α → A) (a : α) (hm : edit = .update m)
      (ha : S.entity.accept S.enforced S.fk tb (m c) = .ok a) :
      Moves S edit tb (.found c) (.inserted c (tb.newRow a)) (tb.push a)
  | deleted (c : Row α) (now : Int) (hm : edit = .delete now) :
      Moves S edit tb (.found c) (.done (.deleted (.ok 1))) (tb.softDelete c.id now)
  | superseded (c n : Row α) : Moves S edit tb (.inserted c n) (.done (.updated (.ok n))) (tb.supersede c.id n.id)
  | rest (answer : Answer ε α) : Moves S edit tb (.done answer) (.done answer) tb

variable {S} {edit : Edit A α} {edits : Bool → Edit A α} {t tb tb' : Table α} {stage stage' : Stage ε α}

theorem moves_step (hsound : ∀ c, stage.current? = some c → S.entity.beforeUpdate c.data = .ok ()) :
    Moves S edit tb stage (S.step edit stage tb).1 (S.step edit stage tb).2 := by
  cases stage with
  | start =>
    cases hf : tb.findActive S.id with
    | none =>
      have hlate : S.step edit .start tb = (.done (S.late edit), tb) := by cases edit <;> simp only [step, hf, late]
      rw [hlate]
      exact .late hf
    | some c => simpa only [step, hf] using Moves.found c hf
  | found c =>
    cases edit with
    | update m =>
      cases ha : S.entity.accept S.enforced S.fk tb (m c) with
      | error e => simpa only [step, Entity.insert, ha] using Moves.refused c m e rfl ha
      | ok a => simpa only [step, Entity.insert, ha] using Moves.inserted c m a rfl ha
    | delete now => simpa only [step, hsound c rfl] using Moves.deleted c now rfl
  | inserted c n => simpa only [step, Entity.setSuperseded, hsound c rfl] using Moves.superseded c n
  | done answer => exact .rest answer

/-! ## The request as a whole -/

theorem alone_late (edit : Edit A α) (h : t.findActive S.id = none) : S.alone edit t = (S.late edit, t) := by
  cases edit with
  | update m => simp [alone, late, Entity.replace, h]
  | delete now => simp [alone, late, Entity.delete, h]

theorem alone_refused {c : Row α} {m : Row α → A} {e : ε} (h : t.findActive S.id = some c)
    (ha : S.entity.accept S.enforced S.fk t (m c) = .error e) : S.alone (.update m) t = (.updated (.error e), t) := by
  simp [alone, Entity.replace, Entity.insert, h, ha]

theorem alone_updated {c : Row α} {m : Row α → A} {a : α} (hc : S.entity.beforeUpdate c.data = .ok ())
    (h : t.findActive S.id = some c) (ha : S.entity.accept S.enforced S.fk t (m c) = .ok a) :
    S.alone (.update m) t = (.updated (.ok (t.newRow a)), (t.push a).supersede c.id t.next) := by
  simp only [alone, Entity.replace, Entity.insert, Entity.setSuperseded, h, ha, hc]
  rfl

theorem alone_deleted {c : Row α} {now : Int} (hc : S.entity.beforeUpdate c.data = .ok ())
    (h : t.findActive S.id = some c) : S.alone (.delete now) t = (.deleted (.ok 1), t.softDelete c.id now) := by
  simp only [alone, Entity.delete, h, hc]

/-- Where a request that runs alone has come to. -/
inductive Solo (S : Site ε A α) (edit : Edit A α) (t : Table α) : Stage ε α → Table α → Prop
  | start : Solo S edit t .start t
  | found (c : Row α) (h : t.findActive S.id = some c) : Solo S edit t (.found c) t
  | inserted (c : Row α) (m : Row α → A) (a : α) (h : t.findActive S.id = some c) (hm : edit = .update m)
      (ha : S.entity.accept S.enforced S.fk t (m c) = .ok a) : Solo S edit t (.inserted c (t.newRow a)) (t.push a)
  | done (answer : Answer ε α) (tb : Table α) (h : S.alone edit t = (answer, tb)) : Solo S edit t (.done answer) tb

/-- **The statements of a request, one after the other, are the request.** -/
theorem Solo.moves (hs : ∀ c, stage.current? = some c → S.entity.beforeUpdate c.data = .ok ())
    (h : Solo S edit t stage tb) (hm : Moves S edit tb stage stage' tb') :
    Solo S edit t stage' tb' := by
  cases h with
  | start =>
    cases hm with
    | found c h => exact .found c h
    | late h => exact .done _ _ (alone_late edit h)
  | found c h =>
    cases hm with
    | refused _ m e hm ha => exact .done _ _ (hm ▸ alone_refused h ha)
    | inserted _ m a hm ha => exact .inserted c m a h hm ha
    | deleted _ now hm => exact .done _ _ (hm ▸ alone_deleted (hs c rfl) h)
  | inserted c m a h hm ha =>
    cases hm with
    | superseded => exact .done _ _ (by subst hm; exact alone_updated (hs c rfl) h ha)
  | done answer tb h =>
    cases hm with
    | rest => exact .done _ _ h

/-! ## The row -/

theorem findActive_push (t : Table α) (a : α) {id : Int} (h : id < t.next) : (t.push a).findActive id = t.findActive id := by
  unfold Table.push
  split
  · have hne : ¬ t.next = id := by omega
    simp [Table.findActive, Table.newRow, hne, List.find?_append]
  · rfl

theorem next_le_push (t : Table α) (a : α) : t.next ≤ (t.push a).next := by
  unfold Table.push
  split
  · exact Int.le_add_one (Int.le_refl _)
  · exact Int.le_refl _

theorem findActive_retired (t : Table α) (id : Int) (f : Row α → Row α) (hf : ∀ r, (f r).active = false)
    (hid : ∀ r : Row α, (if r.id = id then f r else r).id = r.id) :
    (t.mapRows (fun r => if r.id = id then f r else r) hid).findActive id = none := by
  refine (Table.findActive_eq_none _ id).2 fun r hr hrid => ?_
  obtain ⟨r₀, -, rfl⟩ := List.mem_map.1 hr
  rw [hid] at hrid
  rw [if_pos hrid]
  exact hf r₀

theorem findActive_supersede (t : Table α) (id n : Int) : (t.supersede id n).findActive id = none :=
  findActive_retired t id _ (Row.supersede_active n) _

theorem findActive_softDelete (t : Table α) (id now : Int) : (t.softDelete id now).findActive id = none :=
  findActive_retired t id _ (Row.softDelete_active now) _

/-- The row a request has found, and the one it can find, is the one that was active before both. -/
structure Traced (S : Site ε A α) (t : Table α) (stage : Stage ε α) (tb : Table α) : Prop where
  found : ∀ c, stage.current? = some c → t.findActive S.id = some c
  active : ∀ c, tb.findActive S.id = some c → t.findActive S.id = some c
  next : t.next ≤ tb.next

theorem Traced.id_eq (h : Traced S t stage tb) {c : Row α} (hc : stage.current? = some c) : c.id = S.id :=
  ((t.findActive_eq_some S.id c).1 (h.found c hc)).2.1

theorem Traced.id_lt (h : Traced S t stage tb) {c : Row α} (hc : stage.current? = some c) : S.id < tb.next := by
  have hmem := ((t.findActive_eq_some S.id c).1 (h.found c hc)).1
  exact Int.lt_of_lt_of_le (h.id_eq hc ▸ t.id_lt_next c hmem) h.next

theorem Traced.sound (h : Traced S t stage tb) (hs : S.entity.Sound t) :
    ∀ c, stage.current? = some c → S.entity.beforeUpdate c.data = .ok () :=
  fun c hc => hs c ((t.findActive_eq_some S.id c).1 (h.found c hc)).1

theorem Traced.retired (h : Traced S t stage tb) (answer : Answer ε α) (hnone : tb'.findActive S.id = none)
    (hnext : tb'.next = tb.next) : Traced S t (.done answer) tb' where
  found := fun _ hc => nomatch hc
  active := fun c hc => by rw [hnone] at hc; cases hc
  next := hnext ▸ h.next

theorem Traced.moves (h : Traced S t stage tb) (hm : Moves S edit tb stage stage' tb') : Traced S t stage' tb' := by
  cases hm with
  | found c hc => exact ⟨fun c' hc' => h.active c' (hc.trans hc'), h.active, h.next⟩
  | late => exact ⟨(fun _ hc => nomatch hc), h.active, h.next⟩
  | refused => exact ⟨(fun _ hc => nomatch hc), h.active, h.next⟩
  | inserted c m a =>
    refine ⟨h.found, ?_, Int.le_trans h.next (next_le_push _ a)⟩
    rw [findActive_push _ a (h.id_lt rfl)]
    exact h.active
  | deleted c now => exact h.retired _ (h.id_eq rfl ▸ findActive_softDelete _ _ now) rfl
  | superseded c n => exact h.retired _ (h.id_eq rfl ▸ findActive_supersede _ _ n.id) rfl
  | rest => exact h

/-! ## Two requests -/

theorem eq_or_eq_not : ∀ b s : Bool, b = s ∨ b = !s := by decide

variable {p : Pair ε α} {s : Bool} {answer : Answer ε α}

theorem stages_pairStep (edits : Bool → Edit A α) (p : Pair ε α) (s : Bool) :
    (S.pairStep edits p s).stages (!s) = p.stages (!s) := Pair.set_other _ _ _ _

theorem moves_pairStep (edits : Bool → Edit A α) (hs : S.entity.Sound t) (h : Traced S t (p.stages s) p.table) :
    Moves S (edits s) p.table (p.stages s) ((S.pairStep edits p s).stages s) (S.pairStep edits p s).table := by
  rw [pairStep, Pair.set_same]
  exact moves_step (h.sound hs)

theorem traced_pairStep (edits : Bool → Edit A α) (hs : S.entity.Sound t)
    (h : ∀ s, Traced S t (p.stages s) p.table) (s : Bool) :
    ∀ s', Traced S t ((S.pairStep edits p s).stages s') (S.pairStep edits p s).table := by
  have hmoved := (h s).moves (moves_pairStep edits hs (h s))
  intro s'
  rcases eq_or_eq_not s' s with rfl | rfl
  · exact hmoved
  · exact ⟨(stages_pairStep edits p s).symm ▸ (h (!s)).found, hmoved.active, hmoved.next⟩

theorem traced_interleave (edits : Bool → Edit A α) (hs : S.entity.Sound t) : ∀ (schedule : List Bool) (p : Pair ε α),
    (∀ s, Traced S t (p.stages s) p.table) →
      ∀ s, Traced S t ((S.interleave edits p schedule).stages s) (S.interleave edits p schedule).table
  | [], _, h => h
  | b :: schedule, _, h => traced_interleave edits hs schedule _ (traced_pairStep edits hs h b)

theorem traced_start (S : Site ε A α) (t : Table α) (s : Bool) : Traced S t ((Pair.start t : Pair ε α).stages s) t :=
  ⟨(fun _ hc => nomatch hc), fun _ hc => hc, Int.le_refl _⟩

theorem done_interleave : ∀ (schedule : List Bool) (p : Pair ε α), p.stages s = .done answer →
    (S.interleave edits p schedule).stages s = .done answer
  | [], _, h => h
  | b :: schedule, p, h => by
    refine done_interleave schedule _ ?_
    rcases eq_or_eq_not b s with rfl | rfl
    · rw [pairStep, Pair.set_same, h]
      rfl
    · rw [pairStep, Pair.set_not]
      exact h

/-- **When one request is done and the other goes on alone, it is one after the other.** -/
theorem sequential_of_done (hs : S.entity.Sound t) {t₁ : Table α} (ha : S.alone (edits s) t = (answer, t₁)) :
    ∀ (schedule : List Bool) (p : Pair ε α), (∀ s, Traced S t (p.stages s) p.table) → p.stages s = .done answer →
      Solo S (edits !s) t₁ (p.stages !s) p.table → (S.interleave edits p schedule).Finished →
      S.Sequential edits t s (S.interleave edits p schedule)
  | [], p, _, hdone, hsolo, hfin => by
    obtain ⟨answer', ha'⟩ := hfin (!s)
    rw [show (S.interleave edits p []).stages (!s) = p.stages (!s) from rfl] at ha'
    rw [ha'] at hsolo
    cases hsolo with
    | done _ _ halone =>
      refine ⟨by rw [ha]; exact hdone, ?_, ?_⟩
      · rw [ha, halone]
        exact ha'
      · rw [ha, halone]
        rfl
  | b :: schedule, p, htraced, hdone, hsolo, hfin => by
    refine sequential_of_done hs ha schedule _ (traced_pairStep edits hs htraced b) ?_ ?_ hfin
    · exact done_interleave [b] p hdone
    · rcases eq_or_eq_not b s with rfl | rfl
      · rw [stages_pairStep]
        rw [pairStep, hdone]
        exact hsolo
      · exact hsolo.moves ((htraced _).sound hs) (moves_pairStep edits hs (htraced _))

theorem Solo.findActive (h : Solo S edit t stage tb) {c : Row α} (hc : stage.current? = some c) :
    tb.findActive S.id = some c := by
  cases h with
  | start => cases hc
  | found c' h => exact h.trans hc
  | inserted c' m a h =>
    obtain ⟨hmem, hid, -⟩ := (t.findActive_eq_some S.id c').1 h
    rw [findActive_push t a (hid ▸ t.id_lt_next c' hmem), h]
    exact hc
  | done => cases hc

theorem Solo.table_of_start (h : Solo S edit t .start tb) : tb = t := by
  cases h
  rfl

theorem Solo.alone_of_done (h : Solo S edit t (.done answer) tb) : S.alone edit t = (answer, tb) := by
  cases h
  assumption

/-- Both requests have found the row and neither is done. -/
def UnderWay (p : Pair ε α) : Prop := ∀ s, ∃ c, (p.stages s).current? = some c

/-- A request that selects while the other is under way finds the row. -/
theorem underWay_of_moves {p' : Pair ε α} {c : Row α} (hsolo : Solo S (edits s) t (p.stages s) p.table)
    (hc : (p.stages s).current? = some c) (hother : p'.stages s = p.stages s)
    (hmoves : Moves S (edits !s) p.table .start (p'.stages !s) p'.table) : UnderWay p' := by
  have hfound := hsolo.findActive hc
  have hnot : ∃ c, (p'.stages !s).current? = some c := by
    generalize p'.stages (!s) = stage' at hmoves
    generalize p'.table = tb' at hmoves
    cases hmoves with
    | found c' h => exact ⟨c', rfl⟩
    | late h => exact absurd (h.symm.trans hfound) (by simp)
  intro s'
  rcases eq_or_eq_not s' s with rfl | rfl
  · exact ⟨c, hother ▸ hc⟩
  · exact hnot

/-- **Requests that are never under way together run one after the other**; `s` is the one that has begun, if one has. -/
theorem linearizable_of_apart (hs : S.entity.Sound t) : ∀ (schedule : List Bool) (p : Pair ε α) (s : Bool),
    (∀ s, Traced S t (p.stages s) p.table) → p.stages (!s) = .start → Solo S (edits s) t (p.stages s) p.table →
      (∀ pre post, schedule = pre ++ post → ¬ UnderWay (S.interleave edits p pre)) →
      (S.interleave edits p schedule).Finished → S.Linearizable edits t (S.interleave edits p schedule)
  | [], p, s, _, hstart, _, _, hfin => by
    obtain ⟨answer, ha⟩ := hfin (!s)
    exact nomatch hstart.symm.trans ha
  | b :: schedule, p, s, htraced, hstart, hsolo, hapart, hfin => by
    have htraced' := traced_pairStep edits hs htraced b
    have hmoves := moves_pairStep edits hs (htraced b)
    have hapart' : ∀ pre post, schedule = pre ++ post → ¬ UnderWay (S.interleave edits (S.pairStep edits p b) pre) :=
      fun pre post h => hapart (b :: pre) post (congrArg (b :: ·) h)
    rcases eq_or_eq_not b s with rfl | rfl
    · exact linearizable_of_apart hs schedule _ b htraced' ((stages_pairStep edits p b).trans hstart)
        (hsolo.moves ((htraced b).sound hs) hmoves) hapart' hfin
    · have hother : (S.pairStep edits p (!s)).stages s = p.stages s := Pair.set_not _ _ _ _
      rw [hstart] at hmoves
      cases hst : p.stages s with
      | start =>
        -- the request `!s` is the one that begins
        rw [hst] at hsolo
        rw [hsolo.table_of_start] at hmoves
        refine linearizable_of_apart hs schedule _ (!s) htraced' ?_ (Solo.start.moves (fun _ hc => by cases hc) hmoves)
          hapart' hfin
        rw [Bool.not_not, hother]
        exact hst
      | done answer =>
        rw [hst] at hsolo
        exact ⟨s, sequential_of_done hs hsolo.alone_of_done schedule _ htraced' (hother.trans hst)
          (Solo.start.moves (fun _ hc => by cases hc) hmoves) hfin⟩
      | found c =>
        have hc : (p.stages s).current? = some c := by rw [hst]; rfl
        exact absurd (underWay_of_moves hsolo hc hother hmoves) (hapart [!s] schedule rfl)
      | inserted c n =>
        have hc : (p.stages s).current? = some c := by rw [hst]; rfl
        exact absurd (underWay_of_moves hsolo hc hother hmoves) (hapart [!s] schedule rfl)

/-! ## Requests under way together -/

/-- A request that has found the row will not be answered as one that has not. -/
structure OnTime (S : Site ε A α) (edit : Edit A α) (stage : Stage ε α) : Prop where
  selected : stage ≠ .start
  answer : ∀ answer, stage = .done answer → answer ≠ S.late edit

theorem OnTime.of_found {c : Row α} (hc : stage.current? = some c) : OnTime S edit stage := by
  cases stage with
  | start => cases hc
  | found c' => exact ⟨(fun h => nomatch h), fun _ h => nomatch h⟩
  | inserted c' n => exact ⟨(fun h => nomatch h), fun _ h => nomatch h⟩
  | done answer => cases hc

/-- The table refuses no INSERT with the error for a row that is not there. -/
def NeverNotFound (S : Site ε A α) : Prop :=
  ∀ tb m, S.entity.accept S.enforced S.fk tb m ≠ .error S.notFound

theorem OnTime.moves (hnf : S.NeverNotFound) (h : OnTime S edit stage) (hm : Moves S edit tb stage stage' tb') :
    OnTime S edit stage' := by
  cases hm with
  | found => exact absurd rfl h.selected
  | late => exact absurd rfl h.selected
  | refused c m e hm ha =>
    refine ⟨(fun h => nomatch h), fun answer h hlate => hnf tb (m c) ?_⟩
    obtain rfl := Stage.done.inj h
    rw [hm] at hlate
    rw [ha, Except.error.inj (Answer.updated.inj hlate)]
  | inserted c m a => exact .of_found (c := c) rfl
  | deleted c now hm =>
    refine ⟨(fun h => nomatch h), fun answer h hlate => ?_⟩
    obtain rfl := Stage.done.inj h
    rw [hm] at hlate
    exact absurd (Except.ok.inj (Answer.deleted.inj hlate)) (by decide)
  | superseded c n =>
    refine ⟨(fun h => nomatch h), fun answer h hlate => ?_⟩
    obtain rfl := Stage.done.inj h
    cases edit with
    | update m => exact nomatch Answer.updated.inj hlate
    | delete now => exact nomatch hlate
  | rest => exact h

theorem onTime_interleave (hs : S.entity.Sound t) (hnf : S.NeverNotFound) : ∀ (schedule : List Bool) (p : Pair ε α),
    (∀ s, Traced S t (p.stages s) p.table) → OnTime S (edits s) (p.stages s) →
      OnTime S (edits s) ((S.interleave edits p schedule).stages s)
  | [], _, _, h => h
  | b :: schedule, p, htraced, h => by
    refine onTime_interleave hs hnf schedule _ (traced_pairStep edits hs htraced b) ?_
    rcases eq_or_eq_not b s with rfl | rfl
    · exact h.moves hnf (moves_pairStep edits hs (htraced b))
    · rw [pairStep, Pair.set_not]
      exact h

/-- **A request under way that is answered with an error has been refused its INSERT.** -/
theorem refused_of_answer (hs : S.entity.Sound t) {e : ε} : ∀ (schedule : List Bool) (p : Pair ε α) (c : Row α),
    (∀ s, Traced S t (p.stages s) p.table) → (p.stages s).current? = some c →
      (S.interleave edits p schedule).stages s = .done (.updated (.error e)) →
      ∃ pre post c m, schedule = pre ++ s :: post ∧ (S.interleave edits p pre).stages s = .found c ∧
        edits s = .update m ∧ S.entity.accept S.enforced S.fk (S.interleave edits p pre).table (m c) = .error e
  | [], p, c, _, hc, he => by
    rw [show (S.interleave edits p []).stages s = p.stages s from rfl] at he
    rw [he] at hc
    cases hc
  | b :: schedule, p, c, htraced, hc, he => by
    have htraced' := traced_pairStep edits hs htraced b
    have hrec : ∀ c, ((S.pairStep edits p b).stages s).current? = some c → ∃ pre post c m, b :: schedule = pre ++ s :: post ∧
        (S.interleave edits p pre).stages s = .found c ∧ edits s = .update m ∧
        S.entity.accept S.enforced S.fk (S.interleave edits p pre).table (m c) = .error e := fun c hc => by
      obtain ⟨pre, post, c', m, rfl, hrest⟩ := refused_of_answer hs schedule _ c htraced' hc he
      exact ⟨b :: pre, post, c', m, rfl, hrest⟩
    rcases eq_or_eq_not b s with rfl | rfl
    · have hmoves := moves_pairStep edits hs (htraced b)
      have hfinal : ∀ answer, (S.pairStep edits p b).stages b = .done answer → answer = .updated (.error e) :=
        fun answer h => (Stage.done.inj ((done_interleave schedule _ h).symm.trans he))
      generalize hst : p.stages b = stage at hmoves hc
      generalize (S.pairStep edits p b).stages b = stage' at hmoves hfinal hrec
      generalize (S.pairStep edits p b).table = tb' at hmoves
      cases hmoves with
      | found => cases hc
      | late => cases hc
      | refused c' m e' hm ha =>
        obtain rfl : e' = e := Except.error.inj (Answer.updated.inj (hfinal _ rfl))
        exact ⟨[], schedule, c', m, rfl, hst, hm, ha⟩
      | inserted c' m a => exact hrec c' rfl
      | deleted => exact nomatch hfinal _ rfl
      | superseded => exact nomatch Answer.updated.inj (hfinal _ rfl)
      | rest => cases hc
    · exact hrec c (by rw [pairStep, Pair.set_not]; exact hc)

/-- The first of two requests is refused and changes nothing, or leaves no active row. -/
theorem alone_cases (hs : S.entity.Sound t) {c : Row α} (h : t.findActive S.id = some c) (edit : Edit A α) :
    (∃ m e, edit = .update m ∧ S.entity.accept S.enforced S.fk t (m c) = .error e ∧
      S.alone edit t = (.updated (.error e), t)) ∨ (S.alone edit t).2.findActive S.id = none := by
  obtain ⟨hmem, hid, -⟩ := (t.findActive_eq_some S.id c).1 h
  cases edit with
  | update m =>
    cases ha : S.entity.accept S.enforced S.fk t (m c) with
    | error e => exact .inl ⟨m, e, rfl, ha, alone_refused h ha⟩
    | ok a =>
      rw [alone_updated (hs c hmem) h ha, hid]
      exact .inr (findActive_supersede _ _ _)
  | delete now =>
    rw [alone_deleted (hs c hmem) h, hid]
    exact .inr (findActive_softDelete _ _ _)

theorem Moves.past (hm : Moves S edit tb stage stage' tb') (h : stage.past = true) : stage'.past = true := by
  cases hm with
  | superseded | rest => rfl
  | found | late | refused | inserted | deleted => cases h

theorem past_interleave (hs : S.entity.Sound t) : ∀ (schedule : List Bool) (p : Pair ε α),
    (∀ s, Traced S t (p.stages s) p.table) → (p.stages s).past = true →
      ((S.interleave edits p schedule).stages s).past = true
  | [], _, _, h => h
  | b :: schedule, p, htraced, h => by
    refine past_interleave hs schedule _ (traced_pairStep edits hs htraced b) ?_
    rcases eq_or_eq_not b s with rfl | rfl
    · exact (moves_pairStep edits hs (htraced b)).past h
    · rw [pairStep, Pair.set_not]
      exact h

/-- Until the request `s` has come to its INSERT, the other one has the table to itself. -/
theorem solo_of_found (edits : Bool → Edit A α) (hs : S.entity.Sound t) {c : Row α} :
    ∀ (schedule : List Bool) (p : Pair ε α),
    (∀ s, Traced S t (p.stages s) p.table) → Solo S (edits !s) t (p.stages !s) p.table →
      (S.interleave edits p schedule).stages s = .found c →
      Solo S (edits !s) t ((S.interleave edits p schedule).stages !s) (S.interleave edits p schedule).table
  | [], _, _, h, _ => h
  | b :: schedule, p, htraced, h, hc => by
    refine solo_of_found edits hs schedule _ (traced_pairStep edits hs htraced b) ?_ hc
    have hmoves := moves_pairStep edits hs (htraced b)
    rcases eq_or_eq_not b s with rfl | rfl
    · rw [stages_pairStep]
      have hpast : ((S.pairStep edits p b).stages b).past = true → False := fun hp => by
        have hfinal : ((S.interleave edits (S.pairStep edits p b) schedule).stages b).past = true :=
          past_interleave hs schedule _ (traced_pairStep edits hs htraced b) hp
        rw [show (S.interleave edits (S.pairStep edits p b) schedule).stages b = .found c from hc] at hfinal
        cases hfinal
      generalize p.stages b = stage at hmoves
      generalize (S.pairStep edits p b).stages b = stage' at hmoves hpast
      generalize (S.pairStep edits p b).table = tb' at hmoves
      cases hmoves with
      | found | late | refused | rest => exact h
      | inserted | deleted | superseded => exact absurd rfl hpast
    · exact h.moves ((htraced _).sound hs) hmoves

/-- **Two requests on one row, statement by statement, end as one after the other exactly if they are never under way
together, or one of them is an update whose INSERT is refused as it is in the table before both.** -/
theorem linearizable_iff (hs : S.entity.Sound t) (hnf : S.NeverNotFound) (schedule : List Bool)
    (hfin : (S.interleave edits (.start t) schedule).Finished) :
    S.Linearizable edits t (S.interleave edits (.start t) schedule) ↔
      ¬ S.Overlap edits t schedule ∨ ∃ s, S.RefusedAlike edits t schedule s := by
  have htraced := traced_start S t
  constructor
  · rintro ⟨s, hseq⟩
    refine or_iff_not_imp_left.2 fun hover => ?_
    obtain ⟨pre, post, rfl, hway⟩ := Classical.not_not.1 hover
    have hpost : S.interleave edits (.start t) (pre ++ post) = S.interleave edits (S.interleave edits (.start t) pre) post :=
      List.foldl_append
    rw [hpost] at hseq hfin
    have htraced' := traced_interleave edits hs pre _ htraced
    obtain ⟨c, hc⟩ := hway s
    obtain ⟨c', hc'⟩ := hway (!s)
    have hrow := (htraced' s).found c hc
    rcases alone_cases hs hrow (edits s) with ⟨m, e, hm, ha, halone⟩ | hnone
    · have hfirst := hseq.first
      rw [halone] at hfirst
      obtain ⟨pre', post', c₁, m₁, rfl, hfound, hm₁, ha₁⟩ := refused_of_answer hs post _ c htraced' hc hfirst
      have hpre' : S.interleave edits (.start t) (pre ++ pre')
          = S.interleave edits (S.interleave edits (.start t) pre) pre' := List.foldl_append
      refine ⟨s, pre ++ pre', post', c₁, m₁, e, (List.append_assoc ..).symm, ?_, hm₁, ?_, ?_⟩
      · rw [hpre']
        exact hfound
      · rw [hpre']
        exact ha₁
      · have hrow₁ := (traced_interleave edits hs pre' _ htraced' s).found c₁ (by rw [hfound]; rfl)
        obtain rfl := Option.some.inj (hrow.symm.trans hrow₁)
        obtain rfl := Edit.update.inj (hm.symm.trans hm₁)
        exact ha
    · have hlate := (onTime_interleave hs hnf post _ htraced' (.of_found hc')).answer _ hseq.second
      rw [alone_late _ hnone] at hlate
      exact absurd rfl hlate
  · rintro (hapart | ⟨s, pre, post, c, m, e, rfl, hfound, hm, ha, ha₀⟩)
    · refine linearizable_of_apart hs schedule (.start t) true htraced rfl .start (fun pre post h hway => hapart ?_) hfin
      exact ⟨pre, post, h, hway⟩
    · have htraced' := traced_interleave edits hs pre _ htraced
      have hrow := (htraced' s).found c (by rw [hfound]; rfl)
      have hsolo := solo_of_found edits hs pre _ htraced .start hfound
      have hpost : S.interleave edits (.start t) (pre ++ s :: post)
          = S.interleave edits (S.pairStep edits (S.interleave edits (.start t) pre) s) post := List.foldl_append
      rw [hpost] at hfin ⊢
      have hstep : S.step (edits s) ((S.interleave edits (.start t) pre).stages s) (S.interleave edits (.start t) pre).table
          = (.done (.updated (.error e)), (S.interleave edits (.start t) pre).table) := by
        simp only [hfound, hm, step, Entity.insert, ha]
      refine ⟨s, sequential_of_done hs (hm ▸ alone_refused hrow ha₀) post _ (traced_pairStep edits hs htraced' s) ?_ ?_ hfin⟩
      · rw [pairStep, Pair.set_same, hstep]
      · rw [stages_pairStep, pairStep, hstep]
        exact hsolo

end Site

end Versioned
