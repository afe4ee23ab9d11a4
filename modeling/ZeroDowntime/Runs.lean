/-!
# Runs — finite runs of a partial step function

`step s a` is the state the action `a` leads to, if `a` is possible in `s`.  `Along` is a condition on every step of a
run, read at the state before it; an invariant that such steps keep holds at the end (`Along.invariant`).
-/
namespace Runs

variable {σ α : Type} (step : σ → α → Option σ)

def run (s : σ) : List α → Option σ
  | [] => some s
  | a :: as =>
    match step s a with
    | none => none
    | some s' => run s' as

def Along (K : σ → α → Prop) (s : σ) : List α → Prop
  | [] => True
  | a :: as => K s a ∧ ∀ s', step s a = some s' → Along K s' as

theorem run_cons_eq_some (s s'' : σ) (a : α) (as : List α) :
    run step s (a :: as) = some s'' ↔ ∃ s', step s a = some s' ∧ run step s' as = some s'' := by
  simp only [run]
  cases step s a with
  | none => simp
  | some s' => simp

theorem run_append_eq_some (s'' : σ) (bs : List α) : ∀ (as : List α) (s : σ),
    run step s (as ++ bs) = some s'' ↔ ∃ s', run step s as = some s' ∧ run step s' bs = some s''
  | [], s => by simp [run]
  | a :: as, s => by
    rw [List.cons_append, run_cons_eq_some]
    constructor
    · rintro ⟨s₁, h₁, h⟩
      obtain ⟨s', h', h⟩ := (run_append_eq_some s'' bs as s₁).1 h
      exact ⟨s', (run_cons_eq_some step s s' a as).2 ⟨s₁, h₁, h'⟩, h⟩
    · rintro ⟨s', h', h⟩
      obtain ⟨s₁, h₁, h'⟩ := (run_cons_eq_some step s s' a as).1 h'
      exact ⟨s₁, h₁, (run_append_eq_some s'' bs as s₁).2 ⟨s', h', h⟩⟩

variable {step}

theorem along_append {K : σ → α → Prop} (bs : List α) : ∀ (as : List α) (s : σ),
    Along step K s (as ++ bs) ↔ Along step K s as ∧ ∀ s', run step s as = some s' → Along step K s' bs
  | [], s => by simp [Along, run]
  | a :: as, s => by
    simp only [List.cons_append, Along]
    constructor
    · rintro ⟨ha, h⟩
      refine ⟨⟨ha, fun s₁ h₁ => ((along_append bs as s₁).1 (h s₁ h₁)).1⟩, fun s' h' => ?_⟩
      obtain ⟨s₁, h₁, h'⟩ := (run_cons_eq_some step s s' a as).1 h'
      exact ((along_append bs as s₁).1 (h s₁ h₁)).2 s' h'
    · rintro ⟨⟨ha, h⟩, hb⟩
      refine ⟨ha, fun s₁ h₁ => (along_append bs as s₁).2 ⟨h s₁ h₁, fun s' h' => hb s' ?_⟩⟩
      exact (run_cons_eq_some step s s' a as).2 ⟨s₁, h₁, h'⟩

instance Along.decidable (K : σ → α → Prop) [∀ s a, Decidable (K s a)] : ∀ (s : σ) (as : List α),
    Decidable (Along step K s as)
  | _, [] => .isTrue trivial
  | s, a :: as =>
    match h : step s a with
    | none => decidable_of_iff (K s a) ⟨fun hk => ⟨hk, fun _ h' => nomatch h.symm.trans h'⟩, And.left⟩
    | some s' =>
      have := Along.decidable K s' as
      decidable_of_iff (K s a ∧ Along step K s' as)
        ⟨fun hk => ⟨hk.1, fun _ h' => Option.some.inj (h.symm.trans h') ▸ hk.2⟩, fun hk => ⟨hk.1, hk.2 s' h⟩⟩

theorem Along.and {K L : σ → α → Prop} : ∀ {as : List α} {s : σ}, Along step K s as → Along step L s as →
    Along step (fun s a => K s a ∧ L s a) s as
  | [], _, _, _ => trivial
  | _ :: _, _, hk, hl => ⟨⟨hk.1, hl.1⟩, fun s' hs => (hk.2 s' hs).and (hl.2 s' hs)⟩

/-- **What every step keeps, a run keeps.** -/
theorem run_invariant {I : σ → Prop} (hstep : ∀ s a s', I s → step s a = some s' → I s') : ∀ {as : List α} {s s' : σ},
    I s → run step s as = some s' → I s'
  | [], _, _, hi, hr => Option.some.inj hr ▸ hi
  | a :: as, s, s', hi, hr => by
    obtain ⟨s₁, h₁, hr⟩ := (run_cons_eq_some step s s' a as).1 hr
    exact run_invariant hstep (hstep s a s₁ hi h₁) hr

/-- **A run is no longer than what its steps use up.** -/
theorem run_length_le {work : σ → Nat} (hstep : ∀ s a s', step s a = some s' → work s' < work s) :
    ∀ {as : List α} {s s' : σ}, run step s as = some s' → as.length + work s' ≤ work s
  | [], _, _, hr => by
    obtain rfl := Option.some.inj hr
    exact Nat.le_of_eq (Nat.zero_add _)
  | a :: as, s, s', hr => by
    obtain ⟨s₁, h₁, hr⟩ := (run_cons_eq_some step s s' a as).1 hr
    have hlt := hstep s a s₁ h₁
    have ih := run_length_le hstep hr
    rw [List.length_cons]
    omega

/-- **What every step that meets the condition keeps, a run of such steps keeps.** -/
theorem Along.invariant {K : σ → α → Prop} {I : σ → Prop}
    (hstep : ∀ s a s', I s → K s a → step s a = some s' → I s') : ∀ {as : List α} {s s' : σ},
    Along step K s as → I s → run step s as = some s' → I s'
  | [], s, s', _, hi, hr => by
    obtain rfl := Option.some.inj hr
    exact hi
  | a :: as, s, s', hk, hi, hr => by
    obtain ⟨s₁, h₁, hr⟩ := (run_cons_eq_some step s s' a as).1 hr
    exact (hk.2 s₁ h₁).invariant hstep (hstep s a s₁ hi hk.1 h₁) hr

/-- A condition that a step of the run breaks is broken first at some action: before it every step meets it. -/
theorem along_or_break (K : σ → α → Prop) : ∀ (as : List α) (s : σ), Along step K s as ∨
    ∃ pre a post s', as = pre ++ a :: post ∧ Along step K s pre ∧ run step s pre = some s' ∧ ¬ K s' a
  | [], _ => .inl trivial
  | a :: as, s => by
    by_cases ha : K s a
    · cases hs : step s a with
      | none => exact .inl ⟨ha, fun s' h' => by rw [hs] at h'; cases h'⟩
      | some s₁ =>
        rcases along_or_break K as s₁ with h | ⟨pre, b, post, s', rfl, hk, hr, hb⟩
        · exact .inl ⟨ha, fun s' h' => by rw [hs] at h'; exact Option.some.inj h' ▸ h⟩
        · refine .inr ⟨a :: pre, b, post, s', rfl, ⟨ha, fun s₂ h₂ => ?_⟩, ?_, hb⟩
          · rw [hs] at h₂
            exact Option.some.inj h₂ ▸ hk
          · exact (run_cons_eq_some step s s' a pre).2 ⟨s₁, hs, hr⟩
    · exact .inr ⟨[], a, as, s, rfl, trivial, rfl, ha⟩

theorem Along.imp {K P : σ → α → Prop} {J : σ → Prop} (hstep : ∀ s a s', J s → K s a → step s a = some s' → J s')
    (hP : ∀ s a, J s → K s a → P s a) : ∀ {as : List α} {s : σ}, Along step K s as → J s → Along step P s as
  | [], _, _, _ => trivial
  | a :: _, s, hk, hj =>
    ⟨hP s a hj hk.1, fun s' hs => (hk.2 s' hs).imp hstep hP (hstep s a s' hj hk.1 hs)⟩

/-- Two conditions that agree wherever an invariant of all steps holds agree on runs. -/
theorem along_congr {K P : σ → α → Prop} {J : σ → Prop} (hstep : ∀ s a s', J s → step s a = some s' → J s')
    (h : ∀ s a s', J s → step s a = some s' → (P s a ↔ K s a)) : ∀ {as : List α} {s s' : σ}, J s →
    run step s as = some s' → (Along step P s as ↔ Along step K s as)
  | [], _, _, _, _ => .rfl
  | a :: as, s, s', hj, hr => by
    obtain ⟨s₁, hs, hr⟩ := (run_cons_eq_some step s s' a as).1 hr
    refine and_congr (h s a s₁ hj hs) (forall_congr' fun s₂ => forall_congr' fun hs₂ => ?_)
    obtain rfl := Option.some.inj (hs.symm.trans hs₂)
    exact along_congr hstep h (hstep s a s₁ hj hs) hr

/-- Two conditions that agree in every state that meets an invariant of all steps agree on lists of actions. -/
theorem along_iff_of_invariant {K P : σ → α → Prop} {J : σ → Prop} (hstep : ∀ s a s', J s → step s a = some s' → J s')
    (h : ∀ s a, J s → (P s a ↔ K s a)) : ∀ {as : List α} {s : σ}, J s → (Along step P s as ↔ Along step K s as)
  | [], _, _ => .rfl
  | a :: _, s, hj => and_congr (h s a hj) (forall_congr' fun s' => forall_congr' fun hs =>
      along_iff_of_invariant hstep h (hstep s a s' hj hs))

/-- **A condition that every step with a bad outlook breaks is exact**: if a run goes on from any of its points with steps
that meet `K`, then `P` holds all along, exactly if all steps of the run meet `K`. -/
theorem along_iff {K P : σ → α → Prop} {J : σ → Prop}
    (hstep : ∀ s a s', J s → K s a → step s a = some s' → J s') (hP : ∀ s a, J s → K s a → P s a)
    (hbreak : ∀ s a s', J s → ¬ K s a → step s a = some s' → ∃ cont, Along step K s' cont ∧ ¬ Along step P s' cont)
    {s s' : σ} {as : List α} (hj : J s) (hr : run step s as = some s') :
    (∀ pre post cont s₁, as = pre ++ post → run step s pre = some s₁ → Along step K s₁ cont →
      Along step P s (pre ++ cont)) ↔ Along step K s as := by
  constructor
  · intro h
    refine (along_or_break K as s).resolve_right ?_
    rintro ⟨pre, a, post, s₁, rfl, hk, hpre, hka⟩
    obtain ⟨s₁', hpre', hpost⟩ := (run_append_eq_some step s' _ pre s).1 hr
    obtain rfl := Option.some.inj (hpre.symm.trans hpre')
    obtain ⟨s₂, hs, -⟩ := (run_cons_eq_some step s₁ s' a post).1 hpost
    obtain ⟨cont, hcont, hbad⟩ := hbreak s₁ a s₂ (hk.invariant hstep hj hpre) hka hs
    have hpre₂ : run step s (pre ++ [a]) = some s₂ :=
      (run_append_eq_some step s₂ _ pre s).2 ⟨s₁, hpre, (run_cons_eq_some step s₁ s₂ a []).2 ⟨s₂, hs, rfl⟩⟩
    have hall := h (pre ++ [a]) post cont s₂ (by simp) hpre₂ hcont
    exact hbad (((along_append cont _ s).1 hall).2 s₂ hpre₂)
  · rintro hk pre post cont s₁ rfl hpre hcont
    refine Along.imp hstep hP ((along_append cont pre s).2 ⟨((along_append post pre s).1 hk).1, ?_⟩) hj
    intro s₂ hs₂
    obtain rfl := Option.some.inj (hpre.symm.trans hs₂)
    exact hcont

/-- **An invariant that the steps meeting `K` keep, and a breach that every other step commits**: `P` holds in every state
a run reaches, exactly if all steps of the run meet `K`. -/
theorem safe_iff {K : σ → α → Prop} {J P : σ → Prop} (hstep : ∀ s a s', J s → K s a → step s a = some s' → J s')
    (hP : ∀ s, J s → P s) (hbreak : ∀ s a s', J s → ¬ K s a → step s a = some s' → ¬ P s') {s s' : σ} {as : List α}
    (hj : J s) (hr : run step s as = some s') :
    (∀ pre post s₁, as = pre ++ post → run step s pre = some s₁ → P s₁) ↔ Along step K s as := by
  constructor
  · intro h
    refine (along_or_break K as s).resolve_right ?_
    rintro ⟨pre, a, post, s₁, rfl, hk, hpre, hka⟩
    obtain ⟨s₁', hpre', hpost⟩ := (run_append_eq_some step s' _ pre s).1 hr
    obtain rfl := Option.some.inj (hpre.symm.trans hpre')
    obtain ⟨s₂, hs, -⟩ := (run_cons_eq_some step s₁ s' a post).1 hpost
    have hpre₂ : run step s (pre ++ [a]) = some s₂ :=
      (run_append_eq_some step s₂ _ pre s).2 ⟨s₁, hpre, (run_cons_eq_some step s₁ s₂ a []).2 ⟨s₂, hs, rfl⟩⟩
    exact hbreak s₁ a s₂ (hk.invariant hstep hj hpre) hka hs (h (pre ++ [a]) post s₂ (by simp) hpre₂)
  · rintro hk pre post s₁ rfl hpre
    exact hP s₁ (((along_append post pre s).1 hk).1.invariant hstep hj hpre)

/-- **A condition that each step keeps `P` exactly if it meets it is exact for runs**: `P` holds in every state a run
reaches, exactly if all steps of the run meet `K`. -/
theorem reached_iff {K : σ → α → Prop} {I P : σ → Prop} (hkeep : ∀ s a s', I s → step s a = some s' → I s')
    (hexact : ∀ s a s', I s → P s → step s a = some s' → (P s' ↔ K s a)) {as : List α} {s s' : σ} (hi : I s) (hp : P s)
    (hr : run step s as = some s') :
    (∀ pre post s₁, as = pre ++ post → run step s pre = some s₁ → P s₁) ↔ Along step K s as :=
  safe_iff (J := fun s => I s ∧ P s)
    (fun s a s' hj hk hs => ⟨hkeep s a s' hj.1 hs, (hexact s a s' hj.1 hj.2 hs).2 hk⟩) (fun _ hj => hj.2)
    (fun s a s' hj hk hs hp' => hk ((hexact s a s' hj.1 hj.2 hs).1 hp')) ⟨hi, hp⟩ hr

end Runs
