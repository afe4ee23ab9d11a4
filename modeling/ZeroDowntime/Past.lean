import Mathlib.Data.List.Induction
import ZeroDowntime.Runs
/-!
# Past — what a state of a run owes to the run before it

`Once step s P as` says that `P` held at some moment of the run `as` from `s`, its end included; `Took step s P as` says
that the run took a step of `P`.  An invariant that speaks of such moments is kept step by step (`run_past`), and a moment
is related to now by what every step follows (`Once.carry`, `Took.carry`).
-/
namespace Runs

variable {σ α : Type} (step : σ → α → Option σ)

def Once (s : σ) (P : σ → Prop) (as : List α) : Prop :=
  ∃ pre post s₁, as = pre ++ post ∧ run step s pre = some s₁ ∧ P s₁

/-- `P` reads the action and the state before it. -/
def Took (s : σ) (P : σ → α → Prop) (as : List α) : Prop :=
  ∃ pre a post s₁, as = pre ++ a :: post ∧ run step s pre = some s₁ ∧ P s₁ a

variable {step} {s s' : σ} {P Q : σ → Prop} {as : List α}

theorem Once.now (hr : run step s as = some s') (hp : P s') : Once step s P as :=
  ⟨as, [], s', (List.append_nil as).symm, hr, hp⟩

theorem Once.later (h : Once step s P as) (bs : List α) : Once step s P (as ++ bs) := by
  obtain ⟨pre, post, s₁, rfl, hr, hp⟩ := h
  exact ⟨pre, post ++ bs, s₁, List.append_assoc pre post bs, hr, hp⟩

theorem Once.imp (h : Once step s P as) (hpq : ∀ s₁, P s₁ → Q s₁) : Once step s Q as := by
  obtain ⟨pre, post, s₁, has, hr, hp⟩ := h
  exact ⟨pre, post, s₁, has, hr, hpq s₁ hp⟩

theorem run_concat_eq_some (a : α) : run step s (as ++ [a]) = some s' ↔
    ∃ s₁, run step s as = some s₁ ∧ step s₁ a = some s' := by
  rw [run_append_eq_some]
  refine exists_congr (fun s₁ => and_congr_right (fun _ => ?_))
  rw [run_cons_eq_some]
  constructor
  · rintro ⟨s₂, hs, hr⟩
    exact Option.some.inj hr ▸ hs
  · exact fun hs => ⟨s', hs, rfl⟩

/-- **Induction on a run from its end**: the invariant reads the run so far. -/
theorem run_past {I : List α → σ → Prop} (hstart : I [] s) (hstep : ∀ as s₁ a s₂, run step s as = some s₁ → I as s₁ →
    step s₁ a = some s₂ → I (as ++ [a]) s₂) (hr : run step s as = some s') : I as s' := by
  induction as using List.reverseRecOn generalizing s' with
  | nil => exact Option.some.inj hr ▸ hstart
  | append_singleton as a ih =>
    obtain ⟨s₁, h₁, hs⟩ := (run_concat_eq_some a).1 hr
    exact hstep as s₁ a s' h₁ (ih h₁) hs

theorem Took.now {P : σ → α → Prop} {a : α} (hr : run step s as = some s') (hp : P s' a) : Took step s P (as ++ [a]) :=
  ⟨as, a, [], s', rfl, hr, hp⟩

theorem Took.later {P : σ → α → Prop} (h : Took step s P as) (bs : List α) : Took step s P (as ++ bs) := by
  obtain ⟨pre, a, post, s₁, rfl, hr, hp⟩ := h
  exact ⟨pre, a, post ++ bs, s₁, List.append_assoc pre (a :: post) bs, hr, hp⟩

theorem Took.imp {P Q : σ → α → Prop} (h : Took step s P as) (hpq : ∀ s₁ a, P s₁ a → Q s₁ a) : Took step s Q as := by
  obtain ⟨pre, a, post, s₁, has, hr, hp⟩ := h
  exact ⟨pre, a, post, s₁, has, hr, hpq s₁ a hp⟩

theorem Took.once {P : σ → α → Prop} (h : Took step s P as) : Once step s (fun s₁ => ∃ a, P s₁ a) as := by
  obtain ⟨pre, a, post, s₁, has, hr, hp⟩ := h
  exact ⟨pre, a :: post, s₁, has, hr, a, hp⟩

section Carry

variable {R : σ → σ → Prop} (hrefl : ∀ s, R s s) (htrans : ∀ s s₁ s₂, R s s₁ → R s₁ s₂ → R s s₂)
  (hstep : ∀ s a s', step s a = some s' → R s s')
include hrefl htrans hstep

/-- Every moment of a run is related to its end. -/
theorem related_end {pre post : List α} {s₁ : σ} (hr : run step s (pre ++ post) = some s')
    (hpre : run step s pre = some s₁) : R s₁ s' := by
  obtain ⟨s₂, h₂, hpost⟩ := (run_append_eq_some step s' post pre s).1 hr
  obtain rfl := Option.some.inj (hpre.symm.trans h₂)
  exact run_invariant (I := R s₁) (fun s a s' hi hs => htrans _ _ _ hi (hstep s a s' hs)) (hrefl s₁) hpost

/-- **What a preorder that every step follows carries from the moment to now** is known there. -/
theorem Once.carry (hr : run step s as = some s') (h : Once step s P as) (hq : ∀ s₁, P s₁ → R s₁ s' → Q s₁) :
    Once step s Q as := by
  obtain ⟨pre, post, s₁, rfl, hpre, hp⟩ := h
  exact ⟨pre, post, s₁, rfl, hpre, hq s₁ hp (related_end hrefl htrans hstep hr hpre)⟩

theorem Took.carry {P Q : σ → α → Prop} (hr : run step s as = some s') (h : Took step s P as)
    (hq : ∀ s₁ a, P s₁ a → R s₁ s' → Q s₁ a) : Took step s Q as := by
  obtain ⟨pre, a, post, s₁, rfl, hpre, hp⟩ := h
  exact ⟨pre, a, post, s₁, rfl, hpre, hq s₁ a hp (related_end hrefl htrans hstep hr hpre)⟩

end Carry

end Runs
