import ZeroDowntime.AppOrder
/-!
# AppActions — the actions of the iterator, exactly

Where both lists are sorted by repository, as `ReconcileIterator::new` asks for, the iterator ends after one action for
every difference between them: an index alone on its repository is removed, a target alone is created, a pair that differs
is updated.
-/
namespace ZeroDowntime
namespace Apps

open MergeJoin (Step lefts)
open PodmanImageInfo (digest applicationConfigId)

variable {A P : Type} [PodmanImageInfo A] [PodmanImageInfo P]

/-- Iterating yields these actions, and then the end. -/
inductive ReconcileIterator.Drains : ReconcileIterator P → List (ReconcileAction P) → Prop
  | ended {it : ReconcileIterator P} (h : it.next = none) : Drains it []
  | yielded {it it' : ReconcileIterator P} {a : ReconcileAction P} {as : List (ReconcileAction P)}
      (h : it.next = some (a, it')) (rest : Drains it' as) : Drains it (a :: as)

theorem drains_remaining : ∀ (n : Nat) (it : ReconcileIterator P), it.current.length + it.target.length ≤ n →
    it.Drains it.remaining := by
  intro n
  induction n with
  | zero =>
    rintro ⟨current, target⟩ h
    obtain rfl : current = [] := List.length_eq_zero_iff.1 (by simp only at h; omega)
    obtain rfl : target = [] := List.length_eq_zero_iff.1 (by simp only at h; omega)
    exact .ended rfl
  | succ n ih =>
    rintro ⟨current, target⟩ h
    obtain ⟨hnone, hsome⟩ := nextFrom_spec current target
    cases hn : nextFrom current target with
    | none =>
      rw [hnone hn]
      exact .ended hn
    | some r =>
      obtain ⟨heq, hlen⟩ := hsome r.1 r.2 hn
      simp only at h
      rw [heq]
      exact .yielded hn (ih r.2 (by omega))

/-- **The iterator comes to its end, and has then yielded its actions.** -/
theorem drains_actions (it : ReconcileIterator P) : it.Drains it.actions := by
  rw [ReconcileIterator.actions, collect_eq _ it (Nat.le_refl _)]
  exact drains_remaining _ it (Nat.le_refl _)

/-- The index of a current application that the action takes out of the vector. -/
def ReconcileAction.index? : ReconcileAction P → Option Nat
  | .create _ => none
  | .update applicationIndex _ => some applicationIndex
  | .remove applicationIndex => some applicationIndex

section Sorted

variable {apps : List A} {targets : List P}

/-- The steps consume the applications from the last one to the first. -/
theorem steps_indices (apps : List A) (targets : List P) : (steps apps targets).Pairwise
    (fun s s' => ∀ p, s.left? = some p → ∀ p', s'.left? = some p' → p'.2 < p.2) := by
  refine List.pairwise_filterMap.1 ?_
  show (lefts (steps apps targets)).Pairwise (fun p p' => p'.2 < p.2)
  rw [lefts_steps, List.pairwise_reverse, ← List.pairwise_map, List.zipIdx_map_snd]
  exact List.pairwise_lt_range'

theorem left?_of_index? {s : Step (A × Nat) P} {a : ReconcileAction P} {i : Nat} (hs : actionOf s = some a)
    (hi : a.index? = some i) : ∃ p, s.left? = some p ∧ p.2 = i := by
  cases s with
  | left p =>
    obtain rfl := Option.some.inj hs
    exact ⟨p, rfl, Option.some.inj hi⟩
  | right t =>
    obtain rfl := Option.some.inj hs
    cases hi
  | both p t =>
    obtain ⟨-, hs⟩ := Option.ite_none_right_eq_some.1 hs
    obtain rfl := Option.some.inj hs
    exact ⟨p, rfl, Option.some.inj hi⟩

/-- **The indices decrease**, so that what is removed never moves what is still to come. -/
theorem indices_decrease (apps : List A) (targets : List P) :
    ((actionsOf (steps apps targets)).filterMap ReconcileAction.index?).Pairwise (fun i j => j < i) := by
  unfold actionsOf
  rw [List.pairwise_filterMap, List.pairwise_filterMap]
  refine (steps_indices apps targets).imp ?_
  intro s s' hlt a ha b hb i hi j hj
  obtain ⟨p, hp, rfl⟩ := left?_of_index? ha hi
  obtain ⟨p', hp', rfl⟩ := left?_of_index? hb hj
  exact hlt p hp p' hp'

variable (hs : (ReconcileIterator.new apps targets).Asserted)

include hs

/-- No action is yielded twice: an index is consumed once, and targets of two steps have two repositories. -/
theorem actions_nodup : (actionsOf (steps apps targets)).Nodup := by
  have hdesc := MergeJoin.join_descends _ _ _ _ (steps_descend hs).1 (steps_descend hs).2
  unfold actionsOf List.Nodup
  rw [List.pairwise_filterMap]
  refine ((steps_indices apps targets).and hdesc).imp ?_
  rintro s s' ⟨hidx, hkey⟩ a ha b hb rfl
  cases hi : a.index? with
  | some i =>
    obtain ⟨p, hp, rfl⟩ := left?_of_index? ha hi
    obtain ⟨p', hp', heq⟩ := left?_of_index? hb hi
    exact absurd (hidx p hp p' hp') (by omega)
  | none =>
    have hright : ∀ s : Step (A × Nat) P, actionOf s = some a → ∃ t, s = .right t ∧ a = .create t := by
      intro s hs'
      cases s with
      | left p =>
        obtain rfl := Option.some.inj hs'
        cases hi
      | right t => exact ⟨t, rfl, (Option.some.inj hs').symm⟩
      | both p t =>
        obtain ⟨-, hs'⟩ := Option.ite_none_right_eq_some.1 hs'
        obtain rfl := Option.some.inj hs'
        cases hi
    obtain ⟨t, rfl, rfl⟩ := hright s ha
    obtain ⟨t', rfl, heq⟩ := hright s' hb
    obtain rfl := ReconcileAction.create.inj heq
    exact lt_irrefl _ hkey

theorem remove_mem_iff (i : Nat) : .remove i ∈ actionsOf (steps apps targets) ↔
    ∃ x, apps[i]? = some x ∧ ∀ t ∈ targets, repository x ≠ repository t := by
  have hd := steps_descend hs
  unfold actionsOf
  rw [List.mem_filterMap]
  constructor
  · rintro ⟨s, hmem, hact⟩
    cases s with
    | left p =>
      obtain rfl := ReconcileAction.remove.inj (Option.some.inj hact)
      refine ⟨p.1, getElem?_of_left hmem rfl, fun t ht => ?_⟩
      exact ((MergeJoin.left_mem_join _ _ _ _ hd.1 hd.2 p).1 hmem).2 t (List.mem_reverse.2 ht)
    | right t => cases hact
    | both p t => cases (Option.ite_none_right_eq_some.1 hact).2
  · rintro ⟨x, hx, hno⟩
    refine ⟨.left (x, i), (MergeJoin.left_mem_join _ _ _ _ hd.1 hd.2 (x, i)).2 ⟨?_, fun t ht => ?_⟩, rfl⟩
    · exact List.mem_reverse.2 (List.mem_zipIdx_iff_getElem?.2 hx)
    · exact hno t (List.mem_reverse.1 ht)

theorem create_mem_iff (t : P) : .create t ∈ actionsOf (steps apps targets) ↔
    t ∈ targets ∧ ∀ x ∈ apps, repository x ≠ repository t := by
  have hd := steps_descend hs
  unfold actionsOf
  rw [List.mem_filterMap]
  constructor
  · rintro ⟨s, hmem, hact⟩
    cases s with
    | left p => cases hact
    | right t' =>
      obtain rfl := ReconcileAction.create.inj (Option.some.inj hact)
      refine ⟨mem_of_right hmem rfl, fun x hx => ?_⟩
      obtain ⟨i, hi⟩ := List.getElem?_of_mem hx
      exact ((MergeJoin.right_mem_join _ _ _ _ hd.1 hd.2 t').1 hmem).2 (x, i)
        (List.mem_reverse.2 (List.mem_zipIdx_iff_getElem?.2 hi))
    | both p t' => cases (Option.ite_none_right_eq_some.1 hact).2
  · rintro ⟨ht, hno⟩
    refine ⟨.right t, (MergeJoin.right_mem_join _ _ _ _ hd.1 hd.2 t).2 ⟨List.mem_reverse.2 ht, fun p hp => ?_⟩, rfl⟩
    exact hno p.1 (List.mem_of_getElem? (List.mem_zipIdx_iff_getElem?.1 (List.mem_reverse.1 hp)))

theorem update_mem_iff (i : Nat) (t : P) : .update i t ∈ actionsOf (steps apps targets) ↔
    ∃ x, apps[i]? = some x ∧ t ∈ targets ∧ repository x = repository t ∧
      (digest x ≠ digest t ∨ applicationConfigId x ≠ applicationConfigId t) := by
  have hdiff : ∀ x : A, differs x t = true ↔
      (digest x ≠ digest t ∨ applicationConfigId x ≠ applicationConfigId t) := fun x => by
    simp only [differs, Bool.or_eq_true, decide_eq_true_eq]
  unfold actionsOf
  rw [List.mem_filterMap]
  constructor
  · rintro ⟨s, hmem, hact⟩
    cases s with
    | left p => cases hact
    | right t' => cases hact
    | both p t' =>
      obtain ⟨hd, hact⟩ := Option.ite_none_right_eq_some.1 hact
      obtain ⟨rfl, rfl⟩ := ReconcileAction.update.inj (Option.some.inj hact)
      obtain ⟨hx, ht, hrepo⟩ := (both_mem_steps hs p.1 p.2 t').1 hmem
      exact ⟨p.1, hx, ht, hrepo, (hdiff p.1).1 hd⟩
  · rintro ⟨x, hx, ht, hrepo, hd⟩
    exact ⟨.both (x, i) t, (both_mem_steps hs x i t).2 ⟨hx, ht, hrepo⟩,
      Option.ite_none_right_eq_some.2 ⟨(hdiff x).2 hd, rfl⟩⟩

end Sorted

/-- **On lists sorted by repository the iterator ends, having yielded once: a removal of each index whose repository no
target has, a create of each target whose repository no application has, an update of each pair of one repository with
another digest or config id, and nothing else; the indices decrease.** -/
theorem reconcile_exact (apps : List A) (targets : List P)
    (happs : apps.Pairwise (fun x y => repository x < repository y))
    (htargets : targets.Pairwise (fun x y => repository x < repository y)) :
    ∃ as, (ReconcileIterator.new apps targets).Drains as ∧
      (∀ i, .remove i ∈ as ↔ ∃ x, apps[i]? = some x ∧ ∀ t ∈ targets, repository x ≠ repository t) ∧
      (∀ t, .create t ∈ as ↔ t ∈ targets ∧ ∀ x ∈ apps, repository x ≠ repository t) ∧
      (∀ i t, .update i t ∈ as ↔ ∃ x, apps[i]? = some x ∧ t ∈ targets ∧ repository x = repository t ∧
        (digest x ≠ digest t ∨ applicationConfigId x ≠ applicationConfigId t)) ∧
      as.Nodup ∧ (as.filterMap ReconcileAction.index?).Pairwise (fun i j => j < i) := by
  have hs := (asserted_new_iff apps targets).2 ⟨happs, htargets⟩
  refine ⟨actionsOf (steps apps targets), ?_, remove_mem_iff hs, create_mem_iff hs, update_mem_iff hs,
    actions_nodup hs, indices_decrease apps targets⟩
  rw [← actions_new]
  exact drains_actions _

def alpine1 : Application := .wrap (containerOf 0 "docker.io/alpine:1.0" 1)

def postgres : Application := .wrap (containerOf 1 "docker.io/postgres:15" 1)

def alpine2 : TargetApp := ⟨⟨"docker.io/alpine:2.0".toList, "alpine_2"⟩, "alpine".toList, none, 1, 2⟩

def mongodb : TargetApp := ⟨⟨"docker.io/mongodb:5.0".toList, "mongodb"⟩, "mongodb".toList, none, 2, 3⟩

theorem reconcile_exact_postgres : ∃ as, (ReconcileIterator.new [alpine1, postgres] [alpine2, mongodb]).Drains as ∧
    .remove 1 ∈ as ∧ .create mongodb ∈ as ∧ .update 0 alpine2 ∈ as := by
  obtain ⟨as, hdrains, hremove, hcreate, hupdate, -, -⟩ :=
    reconcile_exact [alpine1, postgres] [alpine2, mongodb] (by decide) (by decide)
  refine ⟨as, hdrains, (hremove 1).2 ⟨postgres, rfl, by decide⟩, (hcreate mongodb).2 ⟨by decide, by decide⟩, ?_⟩
  exact (hupdate 0 alpine2).2 ⟨alpine1, rfl, by decide, by decide, .inl (by decide)⟩

example : (ReconcileIterator.new [alpine1, postgres] [alpine2, mongodb]).actions
    = [.remove 1, .create mongodb, .update 0 alpine2] := by decide

end Apps
end ZeroDowntime
