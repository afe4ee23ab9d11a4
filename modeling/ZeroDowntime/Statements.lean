import ZeroDowntime.Versioned
/-!
# Statements — the four statements an append-only entity is written with

`insert` runs the entity's own check, then the INSERT with its NOT NULL, unique and foreign key checks.  `addReplacing`
inserts and supersedes, in one transaction, the active rows a query selected before the INSERT; `replace` inserts and
supersedes one row, outside any transaction; `delete` marks one row.  A statement that fails leaves the table as it was:
only the order of the keys is used, so the gaps a sequence leaves are not modelled.  A `replace` whose UPDATE fails has
inserted its row, though.
-/
namespace Versioned

/-- A partial unique index over the active rows: the columns compared, for the rows its WHERE clause admits. -/
structure PartialIndex (α : Type) where
  name : String
  key : α → Option (List Int)

def PartialIndex.taken {α : Type} (ix : PartialIndex α) (t : Table α) (a : α) : Bool :=
  match ix.key a with
  | none => false
  | some k => t.rows.any (fun r => r.active && decide (ix.key r.data = some k))

theorem PartialIndex.taken_eq_false {α : Type} (ix : PartialIndex α) (t : Table α) (a : α) :
    ix.taken t a = false ↔ ∀ k, ix.key a = some k → ∀ r ∈ t.rows, r.active = true → ix.key r.data ≠ some k := by
  unfold PartialIndex.taken
  cases hk : ix.key a with
  | none => simp
  | some k =>
    simp only [List.any_eq_false, Bool.and_eq_true, decide_eq_true_eq, not_and, Option.some.injEq]
    constructor
    · rintro h _ rfl r hr hact; exact h r hr hact
    · intro h r hr hact; exact h k rfl r hr hact

/-- What an entity adds to a table: its hooks, the columns it leaves unset, and its unique indexes.  `ε` is the error
type, `A` what an INSERT is given, `α` the stored payload. -/
structure Entity (ε A α : Type) where
  beforeInsert : A → Except ε Unit
  complete : A → Except ε α
  beforeUpdate : α → Except ε Unit
  indexes : List (PartialIndex α)
  duplicate : String → ε
  exhausted : ε

namespace Entity

variable {ε A α : Type}

/-- The payload an INSERT of `m` stores, or the first check that refuses it. -/
def accept (E : Entity ε A α) (enforced : Bool) (fk : α → Except ε Unit) (t : Table α) (m : A) : Except ε α :=
  match E.beforeInsert m with
  | .error e => .error e
  | .ok _ =>
    match E.complete m with
    | .error e => .error e
    | .ok a =>
      if t.next < idLimit then
        match E.indexes.find? (fun ix => enforced && ix.taken t a) with
        | some ix => .error (E.duplicate ix.name)
        | none =>
          match fk a with
          | .error e => .error e
          | .ok _ => .ok a
      else .error E.exhausted

def insert (E : Entity ε A α) (enforced : Bool) (fk : α → Except ε Unit) (t : Table α) (m : A) :
    Except ε (Row α) × Table α :=
  match E.accept enforced fk t m with
  | .error e => (.error e, t)
  | .ok a => (.ok (t.newRow a), t.push a)

/-- The hook, and then the UPDATE; `failure` is the error the database answers it with, if it does. -/
def setSuperseded (E : Entity ε A α) (old : Row α) (n : Int) (t : Table α) (failure : Option ε := none) :
    Except ε Unit × Table α :=
  match E.beforeUpdate old.data with
  | .error e => (.error e, t)
  | .ok _ =>
    match failure with
    | some e => (.error e, t)
    | none => (.ok (), t.supersede old.id n)

def supersedeAll (E : Entity ε A α) (n : Int) : List (Row α) → Table α → Except ε Unit × Table α
  | [], t => (.ok (), t)
  | old :: rest, t =>
    match E.setSuperseded old n t with
    | (.error e, t') => (.error e, t')
    | (.ok _, t') => supersedeAll E n rest t'

def addReplacing (E : Entity ε A α) (enforced : Bool) (fk : α → Except ε Unit) (old : α → Bool)
    (m : List (Row α) → A) (t : Table α) : Except ε (Row α) × Table α :=
  let existing := t.rows.filter (fun r => r.active && old r.data)
  match E.insert enforced fk t (m existing) with
  | (.error e, _) => (.error e, t) -- the transaction is dropped
  | (.ok new, t') =>
    match E.supersedeAll new.id existing t' with
    | (.error e, _) => (.error e, t)
    | (.ok _, t'') => (.ok new, t'')

def replace (E : Entity ε A α) (enforced : Bool) (fk : α → Except ε Unit) (notFound : ε) (id : Int)
    (m : Row α → A) (t : Table α) (failure : Option ε := none) : Except ε (Row α) × Table α :=
  match t.findActive id with
  | none => (.error notFound, t)
  | some current =>
    match E.insert enforced fk t (m current) with
    | (.error e, t') => (.error e, t')
    | (.ok new, t') =>
      match E.setSuperseded current new.id t' failure with
      | (.error e, t'') => (.error e, t'') -- the new row stays
      | (.ok _, t'') => (.ok new, t'')

def delete (E : Entity ε A α) (now id : Int) (t : Table α) : Except ε Nat × Table α :=
  match t.findActive id with
  | none => (.ok 0, t)
  | some current =>
    match E.beforeUpdate current.data with
    | .error e => (.error e, t)
    | .ok _ => (.ok 1, t.softDelete current.id now)

/-! ## When an INSERT is accepted -/

theorem accept_eq_ok (E : Entity ε A α) (enforced : Bool) (fk : α → Except ε Unit) (t : Table α) (m : A) (a : α) :
    E.accept enforced fk t m = .ok a ↔
      E.beforeInsert m = .ok () ∧ E.complete m = .ok a ∧ t.next < idLimit ∧
      (enforced = true → ∀ ix ∈ E.indexes, ix.taken t a = false) ∧ fk a = .ok () := by
  unfold accept
  cases hb : E.beforeInsert m with
  | error e => simp
  | ok u =>
    cases hc : E.complete m with
    | error e => simp
    | ok a' =>
      by_cases hn : t.next < idLimit
      · simp only [hn, if_true, true_and]
        cases hf : E.indexes.find? (fun ix => enforced && ix.taken t a') with
        | some ix =>
          have hix := List.find?_some hf
          simp only [Bool.and_eq_true] at hix
          simp only [reduceCtorEq, false_iff, Except.ok.injEq]
          rintro ⟨rfl, hun, -⟩
          rw [hun hix.1 ix (List.mem_of_find?_eq_some hf)] at hix
          cases hix.2
        | none =>
          have hun : enforced = true → ∀ ix ∈ E.indexes, ix.taken t a' = false := fun he ix hm => by
            have := List.find?_eq_none.1 hf ix hm
            rw [he] at this; simpa using this
          cases hk : fk a' with
          | error e =>
            simp only [reduceCtorEq, false_iff, Except.ok.injEq]
            rintro ⟨rfl, -, h⟩
            rw [hk] at h; cases h
          | ok u' =>
            simp only [Except.ok.injEq]
            constructor
            · rintro rfl; exact ⟨rfl, hun, hk⟩
            · rintro ⟨h, -, -⟩; exact h
      · simp [hn]

theorem accept_next (E : Entity ε A α) (enforced : Bool) (fk : α → Except ε Unit) (t : Table α) (m : A) (a : α)
    (h : E.accept enforced fk t m = .ok a) : t.next < idLimit :=
  ((E.accept_eq_ok enforced fk t m a).1 h).2.2.1

end Entity

/-! ## What a replacement leaves behind -/

def Table.supersedeWhere {α : Type} (t : Table α) (gone : Row α → Bool) (n : Int) : Table α :=
  t.mapRows (fun r => if gone r then r.supersede n else r) (fun r => by split <;> rfl)

def Table.replaceWhere {α : Type} (t : Table α) (gone : Row α → Bool) (a : α) : Table α :=
  (t.supersedeWhere gone t.next).push a

theorem Table.supersedeWhere_rows {α : Type} (t : Table α) (gone : Row α → Bool) (n : Int) :
    (t.supersedeWhere gone n).rows = t.rows.map (fun r => if gone r then r.supersede n else r) := rfl

theorem Table.replaceWhere_rows {α : Type} (t : Table α) (gone : Row α → Bool) (a : α) (h : t.next < idLimit) :
    (t.replaceWhere gone a).rows
      = t.rows.map (fun r => if gone r then r.supersede t.next else r) ++ [t.newRow a] := by
  unfold Table.replaceWhere
  rw [Table.push_rows (t.supersedeWhere gone t.next) a h, Table.supersedeWhere_rows]
  rfl

theorem Table.replaceWhere_next {α : Type} (t : Table α) (gone : Row α → Bool) (a : α) (h : t.next < idLimit) :
    (t.replaceWhere gone a).next = t.next + 1 := by
  unfold Table.replaceWhere
  rw [Table.push_next (t.supersedeWhere gone t.next) a h]
  rfl

theorem Table.mem_replaceWhere {α : Type} (t : Table α) (gone : Row α → Bool) (a : α) (h : t.next < idLimit) (r : Row α) :
    r ∈ (t.replaceWhere gone a).rows ↔
      (∃ r₀ ∈ t.rows, r = if gone r₀ then r₀.supersede t.next else r₀) ∨ r = t.newRow a := by
  rw [Table.replaceWhere_rows t gone a h, List.mem_append, List.mem_map, List.mem_singleton]
  constructor
  · rintro (⟨r₀, h₀, rfl⟩ | h)
    · exact Or.inl ⟨r₀, h₀, rfl⟩
    · exact Or.inr h
  · rintro (⟨r₀, h₀, rfl⟩ | h)
    · exact Or.inl ⟨r₀, h₀, rfl⟩
    · exact Or.inr h

theorem Table.supersede_eq_supersedeWhere {α : Type} (t : Table α) (id n : Int) :
    t.supersede id n = t.supersedeWhere (fun r => decide (r.id = id)) n :=
  Table.ext_rows _ _ (by rw [Table.supersede_rows, Table.supersedeWhere_rows]; simp only [decide_eq_true_eq]) rfl

theorem Table.supersedeWhere_supersedeWhere {α : Type} (t : Table α) (p q : Row α → Bool) (n : Int)
    (hq : ∀ r, q (r.supersede n) = q r) :
    (t.supersedeWhere p n).supersedeWhere q n = t.supersedeWhere (fun r => p r || q r) n := by
  refine Table.ext_rows _ _ ?_ rfl
  simp only [Table.supersedeWhere_rows, List.map_map]
  refine List.map_congr_left (fun r _ => ?_)
  simp only [Function.comp_apply]
  cases hp : p r
  · simp
  · simp only [if_true, hq, Bool.true_or]
    cases q r <;> rfl

theorem Table.push_supersedeWhere {α : Type} (t : Table α) (a : α) (gone : Row α → Bool) (n : Int)
    (h : t.next < idLimit) (hnew : gone (t.newRow a) = false) :
    (t.push a).supersedeWhere gone n = (t.supersedeWhere gone n).push a := by
  refine Table.ext_rows _ _ ?_ ?_
  · rw [Table.push_rows (t.supersedeWhere gone n) a h, Table.supersedeWhere_rows, Table.push_rows t a h, List.map_append,
      List.map_singleton, hnew]
    rfl
  · rw [Table.push_next (t.supersedeWhere gone n) a h]
    exact Table.push_next t a h

theorem Table.supersedeWhere_congr {α : Type} (t : Table α) (p q : Row α → Bool) (n : Int) (h : ∀ r ∈ t.rows, p r = q r) :
    t.supersedeWhere p n = t.supersedeWhere q n := by
  refine Table.ext_rows _ _ ?_ rfl
  simp only [Table.supersedeWhere_rows]
  exact List.map_congr_left (fun r hr => by rw [h r hr])

/-! ## One active row per key -/

/-- `new` is stored, and is the only active row whose payload has the key. -/
def Table.OnlyActive {α : Type} (key : α → Bool) (t : Table α) (new : Row α) : Prop :=
  new ∈ t.rows ∧ ∀ r ∈ t.rows, (r.active = true ∧ key r.data = true) ↔ r = new

/-- `new` took over its key: the rows that were active for it are superseded by `new`, every other row is as it was. -/
structure Table.Reassigned {α : Type} (key : α → Bool) (before after : Table α) (new : Row α) : Prop where
  only : after.OnlyActive key new
  superseded : ∀ r ∈ before.rows, r.active = true → key r.data = true → r.supersede new.id ∈ after.rows
  frame : ∀ r ∈ before.rows, ¬ (r.active = true ∧ key r.data = true) → r ∈ after.rows
  origin : ∀ r ∈ after.rows, r = new ∨ ∃ r₀ ∈ before.rows, r₀.id = r.id

/-- **After superseding what `gone` selects, the new row is alone on its key exactly when `gone` took every active row of
the key.** -/
theorem Table.onlyActive_replaceWhere {α : Type} (t : Table α) (key : α → Bool) (gone : Row α → Bool) (a : α)
    (h : t.next < idLimit) (hk : key a = true) :
    (t.replaceWhere gone a).OnlyActive key (t.newRow a) ↔
      ∀ r ∈ t.rows, r.active = true → key r.data = true → gone r = true := by
  constructor
  · rintro ⟨-, honly⟩ r hr hact hkey
    by_contra hg
    have hm : r ∈ (t.replaceWhere gone a).rows :=
      (t.mem_replaceWhere gone a h r).2 (Or.inl ⟨r, hr, by rw [if_neg hg]⟩)
    have heq := (honly r hm).1 ⟨hact, hkey⟩
    have := t.id_lt_next r hr
    rw [heq] at this
    exact Int.lt_irrefl _ this
  · intro hall
    refine ⟨(t.mem_replaceWhere gone a h _).2 (Or.inr rfl), fun r hr => ⟨?_, ?_⟩⟩
    · rintro ⟨hact, hkey⟩
      rcases (t.mem_replaceWhere gone a h r).1 hr with ⟨r₀, h₀, rfl⟩ | rfl
      · by_cases hg : gone r₀ = true
        · rw [if_pos hg, Row.supersede_active] at hact; cases hact
        · rw [if_neg hg] at hact hkey
          exact absurd (hall r₀ h₀ hact hkey) hg
      · rfl
    · rintro rfl
      exact ⟨rfl, hk⟩

theorem Table.reassigned_replaceWhere {α : Type} (t : Table α) (key : α → Bool) (a : α) (h : t.next < idLimit)
    (hk : key a = true) :
    Table.Reassigned key t (t.replaceWhere (fun r => r.active && key r.data) a) (t.newRow a) where
  only := (t.onlyActive_replaceWhere key _ a h hk).2 (fun r _ hact hkey => by rw [hact, hkey]; rfl)
  superseded := fun r hr hact hkey =>
    (t.mem_replaceWhere _ a h _).2 (Or.inl ⟨r, hr, by rw [hact, hkey]; rfl⟩)
  frame := fun r hr hno =>
    (t.mem_replaceWhere _ a h _).2 (Or.inl ⟨r, hr, by rw [if_neg (by rwa [Bool.and_eq_true])]⟩)
  origin := fun r hr => by
    rcases (t.mem_replaceWhere _ a h r).1 hr with ⟨r₀, h₀, rfl⟩ | rfl
    · exact Or.inr ⟨r₀, h₀, by split <;> rfl⟩
    · exact Or.inl rfl

namespace Entity

variable {ε A α : Type}

/-- Every stored payload passes the check an UPDATE of its row runs. -/
def Sound (E : Entity ε A α) (t : Table α) : Prop := ∀ r ∈ t.rows, E.beforeUpdate r.data = .ok ()

/-- An accepted payload passes the check a later UPDATE of its row runs. -/
def Coherent (E : Entity ε A α) : Prop :=
  ∀ m a, E.beforeInsert m = .ok () → E.complete m = .ok a → E.beforeUpdate a = .ok ()

theorem supersedeAll_ok (E : Entity ε A α) (n : Int) : ∀ (olds : List (Row α)) (t : Table α),
    (∀ r ∈ olds, E.beforeUpdate r.data = .ok ()) →
    E.supersedeAll n olds t = (.ok (), t.supersedeWhere (fun r => olds.any (fun o => decide (r.id = o.id))) n)
  | [], t, _ => by
    rw [supersedeAll]
    refine Prod.ext rfl (Table.ext_rows _ _ ?_ rfl)
    simp [Table.supersedeWhere_rows]
  | old :: rest, t, h => by
    rw [supersedeAll, setSuperseded, h old List.mem_cons_self]
    simp only
    rw [supersedeAll_ok E n rest _ (fun r hr => h r (List.mem_cons_of_mem _ hr)), t.supersede_eq_supersedeWhere,
      Table.supersedeWhere_supersedeWhere _ _ _ _ (fun r => rfl)]
    simp only [List.any_cons]

theorem supersedeAll_selected (E : Entity ε A α) (t : Table α) (sel : Row α → Bool) (a : α) (h : t.next < idLimit)
    (hs : E.Sound t) :
    E.supersedeAll t.next (t.rows.filter sel) (t.push a) = (.ok (), t.replaceWhere sel a) := by
  rw [supersedeAll_ok E _ _ _ (fun r hr => hs r (List.mem_filter.1 hr).1)]
  refine Prod.ext rfl ?_
  simp only
  rw [Table.push_supersedeWhere _ _ _ _ h]
  · unfold Table.replaceWhere
    congr 1
    refine Table.supersedeWhere_congr _ _ _ _ (fun r hr => ?_)
    rw [Bool.eq_iff_iff, List.any_eq_true]
    constructor
    · rintro ⟨o, ho, hid⟩
      obtain ⟨hm, hsel⟩ := List.mem_filter.1 ho
      rw [t.eq_of_id r o hr hm (of_decide_eq_true hid)]
      exact hsel
    · intro hsel
      exact ⟨r, List.mem_filter.2 ⟨hr, hsel⟩, by simp⟩
  · rw [List.any_eq_false]
    intro o ho
    have := t.id_lt_next o (List.mem_filter.1 ho).1
    have hne : (t.newRow a).id ≠ o.id := by show t.next ≠ o.id; omega
    simpa using hne

/-- **An insertion that supersedes is refused with nothing changed, or supersedes what it selected.** -/
theorem addReplacing_spec (E : Entity ε A α) (enforced : Bool) (fk : α → Except ε Unit) (old : α → Bool)
    (m : List (Row α) → A) (t : Table α) (hs : E.Sound t) :
    E.addReplacing enforced fk old m t =
      match E.accept enforced fk t (m (t.rows.filter (fun r => r.active && old r.data))) with
      | .error e => (.error e, t)
      | .ok a => (.ok (t.newRow a), t.replaceWhere (fun r => r.active && old r.data) a) := by
  unfold addReplacing insert
  simp only
  cases ha : E.accept enforced fk t (m (t.rows.filter (fun r => r.active && old r.data))) with
  | error e => rfl
  | ok a =>
    simp only
    rw [show (t.newRow a).id = t.next from rfl,
      supersedeAll_selected E t _ a (accept_next E enforced fk t _ a ha) hs]

theorem push_eq_replaceWhere (t : Table α) (a : α) : t.push a = t.replaceWhere (fun _ => false) a := by
  unfold Table.replaceWhere
  rw [show t.supersedeWhere (fun _ => false) t.next = t from Table.ext_rows _ _ (by
    rw [Table.supersedeWhere_rows]; simp) rfl]

/-- **A replacement of one row is refused with nothing changed, or adds its row and supersedes that one unless its UPDATE
fails.** -/
theorem replace_failing (E : Entity ε A α) (enforced : Bool) (fk : α → Except ε Unit) (notFound : ε) (id : Int)
    (m : Row α → A) (t : Table α) (failure : Option ε) (hs : E.Sound t) :
    E.replace enforced fk notFound id m t failure =
      match t.findActive id with
      | none => (.error notFound, t)
      | some current =>
        match E.accept enforced fk t (m current) with
        | .error e => (.error e, t)
        | .ok a => (failure.elim (.ok (t.newRow a)) .error,
            t.replaceWhere (fun r => failure.isNone && decide (r.id = id)) a) := by
  unfold replace insert
  cases hf : t.findActive id with
  | none => rfl
  | some current =>
    obtain ⟨hm, hid, -⟩ := (t.findActive_eq_some id current).1 hf
    simp only
    cases ha : E.accept enforced fk t (m current) with
    | error e => rfl
    | ok a =>
      have hn := accept_next E enforced fk t _ a ha
      cases failure with
      | some e =>
        simp only [setSuperseded, hs current hm]
        rw [push_eq_replaceWhere]
        rfl
      | none =>
        simp only [setSuperseded, hs current hm]
        refine Prod.ext rfl ?_
        rw [Table.supersede_eq_supersedeWhere, hid, Table.push_supersedeWhere _ _ _ _ hn]
        · rfl
        · have := t.id_lt_next current hm
          exact decide_eq_false (show t.next ≠ id by omega)

theorem replace_spec (E : Entity ε A α) (enforced : Bool) (fk : α → Except ε Unit) (notFound : ε) (id : Int)
    (m : Row α → A) (t : Table α) (hs : E.Sound t) :
    E.replace enforced fk notFound id m t =
      match t.findActive id with
      | none => (.error notFound, t)
      | some current =>
        match E.accept enforced fk t (m current) with
        | .error e => (.error e, t)
        | .ok a => (.ok (t.newRow a), t.replaceWhere (fun r => decide (r.id = id)) a) := by
  rw [E.replace_failing enforced fk notFound id m t none hs]
  simp only [Option.elim_none, Option.isNone_none, Bool.true_and]

theorem addReplacing_eq_ok (E : Entity ε A α) (enforced : Bool) (fk : α → Except ε Unit) (old : α → Bool)
    (m : List (Row α) → A) (t t' : Table α) (new : Row α) (hs : E.Sound t)
    (h : E.addReplacing enforced fk old m t = (.ok new, t')) :
    ∃ a, E.accept enforced fk t (m (t.rows.filter (fun r => r.active && old r.data))) = .ok a ∧ new = t.newRow a ∧
      t' = t.replaceWhere (fun r => r.active && old r.data) a := by
  rw [addReplacing_spec E enforced fk old m t hs] at h
  cases ha : E.accept enforced fk t (m (t.rows.filter (fun r => r.active && old r.data))) with
  | error e => rw [ha] at h; cases h
  | ok a =>
    rw [ha] at h
    simp only [Prod.mk.injEq, Except.ok.injEq] at h
    exact ⟨a, rfl, h.1.symm, h.2.symm⟩

/-- **A replacement that succeeds hides the row it was given.** -/
theorem replace_eq_ok (E : Entity ε A α) (enforced : Bool) (fk : α → Except ε Unit) (notFound : ε) (id : Int)
    (m : Row α → A) (t t' : Table α) (new : Row α) (hs : E.Sound t)
    (h : E.replace enforced fk notFound id m t = (.ok new, t')) : new.id = t.next ∧ t'.findActive id = none := by
  rw [E.replace_spec enforced fk notFound id m t hs] at h
  cases hf : t.findActive id with
  | none => rw [hf] at h; cases h
  | some current =>
    obtain ⟨hm, hid, -⟩ := (t.findActive_eq_some id current).1 hf
    rw [hf] at h
    simp only at h
    cases ha : E.accept enforced fk t (m current) with
    | error e => rw [ha] at h; cases h
    | ok a =>
      rw [ha] at h
      simp only [Prod.mk.injEq, Except.ok.injEq] at h
      obtain ⟨rfl, rfl⟩ := h
      have hn := E.accept_next enforced fk t _ a ha
      refine ⟨rfl, (Table.findActive_eq_none _ id).2 (fun r hr hrid => ?_)⟩
      rcases (t.mem_replaceWhere _ a hn r).1 hr with ⟨r₀, -, rfl⟩ | rfl
      · by_cases hid₀ : r₀.id = id
        · rw [if_pos (decide_eq_true hid₀)]; exact Row.supersede_active _ r₀
        · rw [if_neg (by simpa using hid₀)] at hrid; exact absurd hrid hid₀
      · have := t.id_lt_next current hm
        have hnew : t.next = id := hrid
        omega

/-- **An insertion that supersedes takes its key over exactly when its INSERT is accepted.** -/
theorem addReplacing_reassigns_iff (E : Entity ε A α) (enforced : Bool) (fk : α → Except ε Unit) (key : α → Bool)
    (m : List (Row α) → A) (t : Table α) (hs : E.Sound t) (hk : ∀ olds a, E.complete (m olds) = .ok a → key a = true) :
    (∃ new t', E.addReplacing enforced fk key m t = (.ok new, t') ∧ Table.Reassigned key t t' new) ↔
      ∃ a, E.accept enforced fk t (m (t.rows.filter (fun r => r.active && key r.data))) = .ok a := by
  rw [addReplacing_spec E enforced fk key m t hs]
  cases ha : E.accept enforced fk t (m (t.rows.filter (fun r => r.active && key r.data))) with
  | error e =>
    constructor
    · rintro ⟨new, t', h, -⟩; cases h
    · rintro ⟨a, h⟩; cases h
  | ok a =>
    refine ⟨fun _ => ⟨a, rfl⟩, fun _ => ⟨t.newRow a, _, rfl, ?_⟩⟩
    exact t.reassigned_replaceWhere key a (accept_next E enforced fk t _ a ha)
      (hk _ a ((E.accept_eq_ok enforced fk t _ a).1 ha).2.1)

/-- **A replacement of one row leaves its successor alone on the key exactly when its INSERT is accepted and no other
row is active for the key.** -/
theorem replace_onlyActive_iff (E : Entity ε A α) (enforced : Bool) (fk : α → Except ε Unit) (notFound : ε) (id : Int)
    (m : Row α → A) (t : Table α) (key : α → Bool) (current : Row α) (hs : E.Sound t)
    (hf : t.findActive id = some current) (hk : ∀ a, E.complete (m current) = .ok a → key a = true) :
    (∃ new t', E.replace enforced fk notFound id m t = (.ok new, t') ∧ current.supersede new.id ∈ t'.rows ∧
        t'.OnlyActive key new) ↔
      (∃ a, E.accept enforced fk t (m current) = .ok a) ∧
        ∀ r ∈ t.rows, r.active = true → key r.data = true → r.id = id := by
  obtain ⟨hm, hid, -⟩ := (t.findActive_eq_some id current).1 hf
  rw [replace_spec E enforced fk notFound id m t hs, hf]
  simp only
  cases ha : E.accept enforced fk t (m current) with
  | error e =>
    constructor
    · rintro ⟨new, t', h, -⟩; cases h
    · rintro ⟨⟨a, h⟩, -⟩; cases h
  | ok a =>
    have hn := accept_next E enforced fk t _ a ha
    have hka := hk a ((E.accept_eq_ok enforced fk t _ a).1 ha).2.1
    constructor
    · rintro ⟨new, t', h, -, honly⟩
      simp only [Prod.mk.injEq, Except.ok.injEq] at h
      obtain ⟨rfl, rfl⟩ := h
      refine ⟨⟨a, rfl⟩, fun r hr hact hkey => ?_⟩
      exact of_decide_eq_true ((t.onlyActive_replaceWhere key _ a hn hka).1 honly r hr hact hkey)
    · rintro ⟨-, hall⟩
      refine ⟨t.newRow a, _, rfl, ?_, (t.onlyActive_replaceWhere key _ a hn hka).2 (fun r hr hact hkey =>
        decide_eq_true (hall r hr hact hkey))⟩
      exact (t.mem_replaceWhere _ a hn _).2 (Or.inl ⟨current, hm, by rw [if_pos (decide_eq_true hid)]; rfl⟩)

/-! ## What one statement can do -/

/-- Everything a statement can do to its table: nothing, put an accepted row in the place of active ones, or delete an
active one. -/
inductive Change (E : Entity ε A α) (enforced : Bool) (fk : α → Except ε Unit) (t : Table α) : Table α → Prop
  | same : Change E enforced fk t t
  | replaced (m : A) (gone : Row α → Bool) (a : α) (accepted : E.accept enforced fk t m = .ok a)
      (live : ∀ r ∈ t.rows, gone r = true → r.active = true) : Change E enforced fk t (t.replaceWhere gone a)
  | deleted (r : Row α) (now : Int) (mem : r ∈ t.rows) (live : r.active = true) :
      Change E enforced fk t (t.softDelete r.id now)

theorem change_insert (E : Entity ε A α) (enforced : Bool) (fk : α → Except ε Unit) (t : Table α) (m : A) :
    Change E enforced fk t (E.insert enforced fk t m).2 := by
  unfold insert
  cases ha : E.accept enforced fk t m with
  | error e => exact .same
  | ok a =>
    simp only
    rw [push_eq_replaceWhere]
    exact .replaced m _ a ha (fun _ _ h => by cases h)

theorem change_addReplacing (E : Entity ε A α) (enforced : Bool) (fk : α → Except ε Unit) (old : α → Bool)
    (m : List (Row α) → A) (t : Table α) (hs : E.Sound t) :
    Change E enforced fk t (E.addReplacing enforced fk old m t).2 := by
  rw [addReplacing_spec E enforced fk old m t hs]
  split
  · exact .same
  · rename_i a ha
    exact .replaced _ _ a ha (fun r _ h => (Bool.and_eq_true _ _ ▸ h).1)

theorem change_replace (E : Entity ε A α) (enforced : Bool) (fk : α → Except ε Unit) (notFound : ε) (id : Int)
    (m : Row α → A) (t : Table α) (failure : Option ε) (hs : E.Sound t) :
    Change E enforced fk t (E.replace enforced fk notFound id m t failure).2 := by
  rw [replace_failing E enforced fk notFound id m t failure hs]
  split
  · exact .same
  rename_i current hf
  obtain ⟨hm, hid, hact⟩ := (t.findActive_eq_some id current).1 hf
  split
  · exact .same
  rename_i a ha
  refine .replaced _ _ a ha (fun r hr h => ?_)
  rw [t.eq_of_id r current hr hm (by rw [hid]; exact of_decide_eq_true ((Bool.and_eq_true _ _).mp h).2)]
  exact hact

theorem change_delete (E : Entity ε A α) (enforced : Bool) (fk : α → Except ε Unit) (now id : Int) (t : Table α) :
    Change E enforced fk t (E.delete now id t).2 := by
  unfold delete
  split
  · exact .same
  rename_i current hf
  obtain ⟨hm, -, hact⟩ := (t.findActive_eq_some id current).1 hf
  split
  · exact .same
  · exact .deleted current now hm hact

theorem change_next_le (E : Entity ε A α) (enforced : Bool) (fk : α → Except ε Unit) (t t' : Table α)
    (h : Change E enforced fk t t') : t.next ≤ t'.next := by
  cases h with
  | same => exact Int.le_refl _
  | replaced m gone a ha _ =>
    rw [Table.replaceWhere_next t gone a (accept_next E enforced fk t m a ha)]
    exact Int.le_add_one (Int.le_refl _)
  | deleted r now _ _ => exact Int.le_refl _

/-- What holds of the payloads stored and of every payload accepted holds of the payloads afterwards. -/
theorem change_forall (E : Entity ε A α) (enforced : Bool) (fk : α → Except ε Unit) (t t' : Table α) (P : α → Prop)
    (hP : ∀ m a, E.accept enforced fk t m = .ok a → P a) (ht : ∀ r ∈ t.rows, P r.data)
    (h : Change E enforced fk t t') : ∀ r ∈ t'.rows, P r.data := by
  intro r hr
  cases h with
  | same => exact ht r hr
  | replaced m gone a ha _ =>
    rcases (t.mem_replaceWhere gone a (accept_next E enforced fk t m a ha) r).1 hr with ⟨r₀, h₀, rfl⟩ | rfl
    · have := ht r₀ h₀
      split <;> exact this
    · exact hP m a ha
  | deleted s now _ _ =>
    rw [Table.softDelete_rows] at hr
    obtain ⟨r₀, h₀, rfl⟩ := List.mem_map.1 hr
    have := ht r₀ h₀
    split <;> exact this

theorem change_rows (E : Entity ε A α) (enforced : Bool) (fk : α → Except ε Unit) (t t' : Table α)
    (h : Change E enforced fk t t') : ∀ r ∈ t'.rows, (∃ r₀ ∈ t.rows, r₀.data = r.data) ∨ fk r.data = .ok () :=
  E.change_forall enforced fk t t' (fun a => (∃ r₀ ∈ t.rows, r₀.data = a) ∨ fk a = .ok ())
    (fun m a ha => .inr ((E.accept_eq_ok enforced fk t m a).1 ha).2.2.2.2) (fun r hr => .inl ⟨r, hr, rfl⟩) h

/-- **Every statement keeps the payloads sound.** -/
theorem sound_change (E : Entity ε A α) (hE : E.Coherent) (enforced : Bool) (fk : α → Except ε Unit) (t t' : Table α)
    (hs : E.Sound t) (h : Change E enforced fk t t') : E.Sound t' :=
  E.change_forall enforced fk t t' _ (fun m a ha => hE m a ((E.accept_eq_ok enforced fk t m a).1 ha).1
    ((E.accept_eq_ok enforced fk t m a).1 ha).2.1) hs h

end Entity

end Versioned
