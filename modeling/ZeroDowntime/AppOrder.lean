import Mathlib.Data.List.TakeWhile
import ZeroDowntime.AppConverge
/-!
# AppOrder — when the order of the references is the order of the repositories

The lists are sorted by the full reference and merged by the reference up to its first `:`.  The two orders part where a
tagged reference meets a longer repository that goes on with a character before `:` (`lt_iff_clash`).  Without such a
pair an unchanged application is left alone (`unchanged_untouched_iff`).
-/
namespace ZeroDowntime
namespace Apps

open Lifecycle (Error)
open MergeJoin (Step lefts rights Descends)

/-! ## Two references -/

/-- `r` has a tag, and the repository of `s` continues that of `r` with a character before `:`. -/
def Clash (r s : Reference) : Prop := ':' ∈ r ∧ ∃ c rest, stripTag s = stripTag r ++ c :: rest ∧ c < ':'

theorem append_lt_append_iff : ∀ (a b t u : List Char), ':' ∉ b → (t = [] ∨ ∃ t', t = ':' :: t') → a < b →
    (b ++ u < a ++ t ↔ t ≠ [] ∧ ∃ c rest, b = a ++ c :: rest ∧ c < ':')
  | [], [], _, _, _, _, h => absurd h (List.not_lt_nil _)
  | x :: a, [], _, _, _, _, h => absurd h (List.not_lt_nil _)
  | [], c :: b, t, u, hb, ht, _ => by
    have hc : c ≠ ':' := fun he => hb (he ▸ List.mem_cons_self)
    rcases ht with rfl | ⟨t', rfl⟩
    · simp
    · rw [List.nil_append, List.cons_append, List.cons_lt_cons_iff]
      constructor
      · rintro (hlt | ⟨he, -⟩)
        · exact ⟨by simp, c, b, rfl, hlt⟩
        · exact absurd he hc
      · rintro ⟨-, c', rest, heq, hlt⟩
        rw [List.nil_append, List.cons.injEq] at heq
        exact Or.inl (heq.1 ▸ hlt)
  | x :: a, y :: b, t, u, hb, ht, hab => by
    rw [List.cons_append, List.cons_append, List.cons_lt_cons_iff]
    rcases List.cons_lt_cons_iff.1 hab with hxy | ⟨rfl, hab'⟩
    · constructor
      · rintro (hlt | ⟨he, -⟩)
        · exact absurd (lt_trans hxy hlt) (lt_irrefl _)
        · exact absurd (he ▸ hxy) (lt_irrefl _)
      · rintro ⟨-, c, rest, heq, -⟩
        rw [List.cons_append, List.cons.injEq] at heq
        exact absurd (heq.1 ▸ hxy) (lt_irrefl _)
    · have ih := append_lt_append_iff a b t u (fun hm => hb (List.mem_cons_of_mem _ hm)) ht hab'
      simp only [lt_irrefl, false_or, true_and, ih, List.cons_append, List.cons.injEq]

theorem stripTag_append (r : Reference) :
    ∃ t, r = stripTag r ++ t ∧ (t = [] ∨ ∃ t', t = ':' :: t') ∧ (t ≠ [] ↔ ':' ∈ r) := by
  refine ⟨r.dropWhile (fun c => decide (c ≠ ':')), (List.takeWhile_append_dropWhile ..).symm, ?_, ?_⟩
  · cases hd : r.dropWhile (fun c => decide (c ≠ ':')) with
    | nil => exact Or.inl rfl
    | cons c t' =>
      have := List.head?_dropWhile_not (fun c => decide (c ≠ ':')) r
      rw [hd] at this
      exact Or.inr ⟨t', by simpa using this⟩
  · rw [ne_eq, List.dropWhile_eq_nil_iff]
    simp

theorem colon_not_mem_stripTag (r : Reference) : ':' ∉ stripTag r := fun h => by
  have := List.mem_takeWhile_imp h
  simp at this

/-- **Where the repositories are in order, the references are not exactly if they clash.** -/
theorem lt_iff_clash (r s : Reference) (h : stripTag r < stripTag s) : s < r ↔ Clash r s := by
  obtain ⟨t, hr, ht, htag⟩ := stripTag_append r
  obtain ⟨u, hs, -, -⟩ := stripTag_append s
  have hmain := append_lt_append_iff (stripTag r) (stripTag s) t u (colon_not_mem_stripTag s) ht h
  rw [← hr, ← hs, htag] at hmain
  exact hmain

theorem Clash.stripTag_lt {r s : Reference} (h : Clash r s) : stripTag r < stripTag s := by
  obtain ⟨-, c, rest, heq, -⟩ := h
  rw [heq]
  induction stripTag r with
  | nil => exact List.nil_lt_cons c rest
  | cons x l ih => exact List.cons_lt_cons_iff.2 (Or.inr ⟨rfl, ih⟩)

theorem Clash.of_stripTag {r s s' : Reference} (h : Clash r s) (hs : stripTag s = stripTag s') : Clash r s' := by
  obtain ⟨htag, c, rest, heq, hlt⟩ := h
  exact ⟨htag, c, rest, hs ▸ heq, hlt⟩

/-! ## A list sorted by its references -/

section Sorted

variable {α : Type} [PodmanImageInfo α]

/-- No reference of `l` clashes with one of `l'`. -/
def NoClash {β : Type} [PodmanImageInfo β] (l : List α) (l' : List β) : Prop :=
  ∀ x ∈ l, ∀ y ∈ l', ¬ Clash (PodmanImageInfo.reference x) (PodmanImageInfo.reference y)

theorem sortByReference_pairwise (l : List α) : (sortByReference l).Pairwise referenceLe :=
  have : Std.Total (referenceLe (α := α)) := ⟨fun _ _ => le_total _ _⟩
  have : IsTrans α referenceLe := ⟨fun _ _ _ h h' => le_trans h h'⟩
  List.pairwise_insertionSort referenceLe l

theorem mem_sortByReference (l : List α) (x : α) : x ∈ sortByReference l ↔ x ∈ l := List.mem_insertionSort referenceLe

/-- **A list sorted by its references is sorted by its repositories exactly if no two of its references clash.** -/
theorem sorted_ascends_iff (l : List α) (hd : (l.map repository).Nodup) :
    (sortByReference l).Pairwise (fun x y => repository x < repository y) ↔ NoClash l l := by
  have hsorted := sortByReference_pairwise l
  have hdist : (sortByReference l).Pairwise (fun x y => repository x ≠ repository y) := by
    have := ((List.perm_insertionSort referenceLe l).map repository).nodup_iff.2 hd
    exact List.pairwise_map.1 this
  constructor
  · intro h x hx y hy hc
    have hrepo : repository x < repository y := hc.stripTag_lt
    have href : PodmanImageInfo.reference y < PodmanImageInfo.reference x := (lt_iff_clash _ _ hrepo).2 hc
    have hne : x ≠ y := fun he => lt_irrefl _ (he ▸ hrepo)
    rcases MergeJoin.rel_or_rel_of_ne (hsorted.and h) ((mem_sortByReference l x).2 hx) ((mem_sortByReference l y).2 hy)
      hne with ⟨hle, -⟩ | ⟨-, hlt⟩
    · exact absurd href (not_lt.2 hle)
    · exact absurd (lt_trans hrepo hlt) (lt_irrefl _)
  · intro h
    refine (List.Pairwise.and_mem.1 (hsorted.and hdist)).imp ?_
    rintro x y ⟨hx, hy, hle, hne⟩
    by_contra hnot
    have hrepo : repository y < repository x := lt_of_le_of_ne (not_lt.1 hnot) hne.symm
    have href : PodmanImageInfo.reference x < PodmanImageInfo.reference y :=
      lt_of_le_of_ne hle (fun he => hne (congrArg stripTag he))
    exact h y ((mem_sortByReference l y).1 hy) x ((mem_sortByReference l x).1 hx) ((lt_iff_clash _ _ hrepo).1 href)

end Sorted

/-! ## Unchanged applications -/

/-- The action removes or replaces the application at an index, or creates or replaces one of a repository. -/
def ReconcileAction.Touches (index : Nat) (repo : Reference) : ReconcileAction TargetApp → Prop
  | .create t => repository t = repo
  | .update i t => i = index ∨ repository t = repo
  | .remove i => i = index

/-- No action touches an application that a target agrees with. -/
def LeavesUnchanged (apps : List Application) (targets : List TargetApp) : Prop :=
  ∀ i x, (sortByReference apps)[i]? = some x → ∀ y ∈ targets, identity x = identity y →
    ∀ a ∈ reconcile apps targets, ¬ a.Touches i (repository x)

def CycleAsserted (apps : List Application) (targets : List TargetApp) : Prop :=
  (ReconcileIterator.new (sortByReference apps) (sortByReference targets)).Asserted

theorem asserted_new_iff {A P : Type} [PodmanImageInfo A] [PodmanImageInfo P] (apps : List A) (targets : List P) :
    (ReconcileIterator.new apps targets).Asserted ↔
      apps.Pairwise (fun x y => repository x < repository y) ∧
        targets.Pairwise (fun x y => repository x < repository y) := by
  unfold ReconcileIterator.new ReconcileIterator.Asserted
  simp only [List.pairwise_map, List.pairwise_reverse]
  refine and_congr_left (fun _ => ?_)
  have hfst : apps.zipIdx.map Prod.fst = apps := List.zipIdx_map_fst 0 apps
  conv_rhs => rw [← hfst, List.pairwise_map]
  rfl

theorem cycleAsserted_iff (apps : List Application) (targets : List TargetApp) (hcur : (apps.map repository).Nodup)
    (htgt : (targets.map repository).Nodup) :
    CycleAsserted apps targets ↔ NoClash apps apps ∧ NoClash targets targets := by
  unfold CycleAsserted
  rw [asserted_new_iff, sorted_ascends_iff apps hcur, sorted_ascends_iff targets htgt]

theorem steps_descend {A P : Type} [PodmanImageInfo A] [PodmanImageInfo P] {apps : List A} {targets : List P}
    (h : (ReconcileIterator.new apps targets).Asserted) :
    Descends (fun p : A × Nat => repository p.1) apps.zipIdx.reverse ∧ Descends repository targets.reverse := by
  obtain ⟨hc, ht⟩ := (asserted_new_iff _ _).1 h
  refine ⟨List.pairwise_reverse.2 ?_, List.pairwise_reverse.2 ht⟩
  have hfst : apps.zipIdx.map Prod.fst = apps := List.zipIdx_map_fst 0 _
  rw [← hfst, List.pairwise_map] at hc
  exact hc

/-- **A pair meets in the merge exactly if it has one repository**, where the assertions hold. -/
theorem both_mem_steps {A P : Type} [PodmanImageInfo A] [PodmanImageInfo P] {apps : List A} {targets : List P}
    (h : (ReconcileIterator.new apps targets).Asserted) (x : A) (i : Nat) (t : P) :
    Step.both (x, i) t ∈ steps apps targets ↔ apps[i]? = some x ∧ t ∈ targets ∧ repository x = repository t := by
  unfold steps
  rw [MergeJoin.both_mem_join _ _ _ _ (steps_descend h).1 (steps_descend h).2, List.mem_reverse, List.mem_reverse,
    List.mem_zipIdx_iff_getElem?]

theorem mem_reconcile (apps : List Application) (targets : List TargetApp) (a : ReconcileAction TargetApp) :
    a ∈ reconcile apps targets ↔ ∃ s ∈ cycleSteps apps targets, actionOf s = some a := by
  unfold reconcile
  rw [actions_new, actionsOf, List.mem_filterMap]
  rfl

theorem leavesUnchanged_of_asserted {apps : List Application} {targets : List TargetApp}
    (h : CycleAsserted apps targets) : LeavesUnchanged apps targets := by
  intro i x hx y hy hid a ha htouch
  have hrepo : repository x = repository y := congrArg Prod.fst hid
  have hboth := (both_mem_steps h x i y).2 ⟨hx, (mem_sortByReference targets y).2 hy, hrepo⟩
  -- the step that consumes `x` or its repository is the one that keeps it
  have hone : ∀ s ∈ cycleSteps apps targets,
      s.key (fun p : Application × Nat => repository p.1) repository = repository x → s = Step.both (x, i) y :=
    fun s hs hkey => (MergeJoin.join_descends _ _ _ _ (steps_descend h).1 (steps_descend h).2).eq_of_key hs hboth hkey
  have hidx : ∀ p : Application × Nat, (∃ s ∈ cycleSteps apps targets, s.left? = some p) → p.2 = i → p.1 = x := by
    rintro p hl hi
    have hm := (exists_left _ _ p).1 hl
    rw [hi, hx] at hm
    exact (Option.some.inj hm).symm
  obtain ⟨s, hs, hact⟩ := (mem_reconcile apps targets a).1 ha
  have hkeep : differs x y = false := (differs_eq_false x y hrepo).2 hid
  cases s with
  | left p =>
    simp only [actionOf, Option.some.injEq] at hact
    subst hact
    have := hone _ hs (congrArg repository (hidx p ⟨_, hs, rfl⟩ htouch))
    cases this
  | right t =>
    simp only [actionOf, Option.some.injEq] at hact
    subst hact
    have := hone _ hs htouch
    cases this
  | both p t =>
    have hd : differs p.1 t = true := by
      cases hd : differs p.1 t with
      | true => rfl
      | false => simp [actionOf, hd] at hact
    simp only [actionOf, hd, if_true, Option.some.injEq] at hact
    subst hact
    have hkey : repository p.1 = repository x := by
      rcases htouch with hi | ht
      · exact congrArg repository (hidx p ⟨_, hs, rfl⟩ hi)
      · exact (cycleSteps_both apps targets p t hs).trans ht
    obtain ⟨rfl, rfl⟩ := Step.both.inj (hone _ hs hkey)
    rw [hkeep] at hd; cases hd

/-- **Where the assertions hold and the applications are the targets, nothing is done.** -/
theorem reconcile_eq_nil {apps : List Application} {targets : List TargetApp} (h : CycleAsserted apps targets)
    (hp : (apps.map identity).Perm (targets.map identity)) : reconcile apps targets = [] := by
  unfold reconcile
  rw [actions_new, actionsOf, List.filterMap_eq_nil_iff]
  intro s hs
  have hd := steps_descend h
  cases s with
  | left p =>
    have hno := ((MergeJoin.left_mem_join _ _ _ _ hd.1 hd.2 p).1 hs).2
    have hx : p.1 ∈ apps := (mem_sortByReference apps p.1).1 (mem_of_left hs rfl)
    obtain ⟨t, ht, hid⟩ := List.mem_map.1 (hp.subset (List.mem_map_of_mem hx))
    exact absurd (congrArg Prod.fst hid).symm (hno t (List.mem_reverse.2 ((mem_sortByReference targets t).2 ht)))
  | right t =>
    have hno := ((MergeJoin.right_mem_join _ _ _ _ hd.1 hd.2 t).1 hs).2
    have ht : t ∈ targets := (mem_sortByReference targets t).1 (mem_of_right hs rfl)
    obtain ⟨x, hx, hid⟩ := List.mem_map.1 (hp.symm.subset (List.mem_map_of_mem ht))
    obtain ⟨i, hi⟩ := List.getElem?_of_mem ((mem_sortByReference apps x).2 hx)
    exact absurd (congrArg Prod.fst hid)
      (hno (x, i) (List.mem_reverse.2 (List.mem_zipIdx_iff_getElem?.2 hi)))
  | both p t =>
    obtain ⟨hi, ht, hrepo⟩ := (both_mem_steps h p.1 p.2 t).1 hs
    have hx : p.1 ∈ apps := (mem_sortByReference apps p.1).1 (List.mem_of_getElem? hi)
    obtain ⟨t', ht', hid⟩ := List.mem_map.1 (hp.subset (List.mem_map_of_mem hx))
    have heq : t' = t := hd.2.eq_of_key (List.mem_reverse.2 ((mem_sortByReference targets t').2 ht'))
      (List.mem_reverse.2 ht) ((congrArg Prod.fst hid).trans hrepo)
    have hkeep : differs p.1 t = false := (differs_eq_false p.1 t hrepo).2 (heq ▸ hid.symm)
    simp [actionOf, hkeep]

def KeptNoClash (apps : List Application) (targets : List TargetApp) : Prop :=
  ∀ x ∈ apps, (∃ t ∈ targets, identity x = identity t) → ∀ y ∈ targets,
    ¬ Clash (PodmanImageInfo.reference x) (PodmanImageInfo.reference y)

theorem exists_reference_of_kept {apps apps' : List Application} {targets : List TargetApp}
    (h : CycleAsserted apps targets) (hp : (apps'.map Application.bare).Perm (leaves (cycleSteps apps targets)))
    (x : Application) (hx : x ∈ apps) (t : TargetApp) (ht : t ∈ targets) (hid : identity x = identity t) :
    ∃ a ∈ apps', a.imageReference = x.imageReference := by
  have hrepo : repository x = repository t := congrArg Prod.fst hid
  obtain ⟨i, hi⟩ := List.getElem?_of_mem ((mem_sortByReference apps x).2 hx)
  have hleft : x.bare ∈ leaves (cycleSteps apps targets) := by
    refine List.mem_filterMap.2 ⟨_, (both_mem_steps h x i t).2 ⟨hi, (mem_sortByReference targets t).2 ht, hrepo⟩, ?_⟩
    simp [left?, (differs_eq_false x t hrepo).2 hid]
  obtain ⟨a, ha, hbare⟩ := List.mem_map.1 (hp.symm.subset hleft)
  exact ⟨a, ha, imageReference_of_bare hbare⟩

theorem reference_after {apps apps' : List Application} {targets : List TargetApp}
    (hp : (apps'.map Application.bare).Perm (leaves (cycleSteps apps targets))) (a : Application) (ha : a ∈ apps') :
    (∃ x ∈ apps, (∃ t ∈ targets, identity x = identity t) ∧ a.imageReference = x.imageReference) ∨
      ∃ t ∈ targets, a.imageReference = t.image.reference := by
  obtain ⟨s, hs, hl⟩ := List.mem_filterMap.1 (hp.subset (List.mem_map_of_mem ha))
  have hright : ∀ t, s.right? = some t → t ∈ targets := fun t ht =>
    (mem_sortByReference targets t).1 (mem_of_right hs ht)
  have hleft : ∀ p, s.left? = some p → p.1 ∈ apps := fun p hp' =>
    (mem_sortByReference apps p.1).1 (mem_of_left hs hp')
  cases s with
  | left p => cases hl
  | right t =>
    simp only [left?, Option.some.injEq] at hl
    exact Or.inr ⟨t, hright t rfl, congrArg Application.imageReference hl.symm⟩
  | both p t =>
    simp only [left?, Option.some.injEq] at hl
    cases hd : differs p.1 t with
    | true =>
      rw [hd, if_pos rfl] at hl
      exact Or.inr ⟨t, hright t rfl, congrArg Application.imageReference hl.symm⟩
    | false =>
      rw [hd, if_neg (by simp)] at hl
      have hid := (differs_eq_false p.1 t (cycleSteps_both apps targets p t hs)).1 hd
      exact Or.inl ⟨p.1, hleft p rfl, ⟨t, hright t rfl, hid⟩, imageReference_of_bare hl.symm⟩

/-- **Unchanged applications are left alone, a second cycle does nothing and every assertion holds, exactly if no two
current references clash, no two targets do, and no kept application clashes with a target.** -/
theorem unchanged_untouched_iff (env : CycleEnv) (h : Host) (targets : List TargetApp) (hp : env.pulled = .ok targets)
    (hf : env.Faultless) (hcur : (h.apps.map repository).Nodup) (htgt : (targets.map repository).Nodup) :
    (LeavesUnchanged h.apps targets ∧ CycleAsserted h.apps targets ∧
        reconcile (tryUpdate env h).host.apps targets = [] ∧ CycleAsserted (tryUpdate env h).host.apps targets) ↔
      NoClash h.apps h.apps ∧ NoClash targets targets ∧ KeptNoClash h.apps targets := by
  obtain ⟨configs, -, hhost, -, -⟩ := tryUpdate_ok env h targets hp
  have hserved := acted_served env h targets
  have hleaves := hserved.result (hserved.complete hf.toActionsSucceed)
  rw [hhost]
  generalize (env.acted h targets).host.apps = apps' at hleaves
  have hperm := perm_identity apps' h.apps targets hleaves
  have hrepos : (apps'.map repository).Perm (targets.map repository) := by
    have := hperm.map Prod.fst
    rwa [List.map_map, List.map_map] at this
  have hcur' : (apps'.map repository).Nodup := hrepos.nodup_iff.2 htgt
  constructor
  · rintro ⟨-, has, -, has'⟩
    obtain ⟨hcc, htt⟩ := (cycleAsserted_iff h.apps targets hcur htgt).1 has
    refine ⟨hcc, htt, fun x hx ⟨t, ht, hid⟩ y hy hclash => ?_⟩
    obtain ⟨a, ha, href⟩ := exists_reference_of_kept has hleaves x hx t ht hid
    obtain ⟨b, hb, hrepo⟩ := List.mem_map.1 (hrepos.symm.subset (List.mem_map_of_mem hy))
    refine ((cycleAsserted_iff apps' targets hcur' htgt).1 has').1 a ha b hb ?_
    show Clash a.imageReference b.imageReference
    rw [href]
    exact hclash.of_stripTag hrepo.symm
  · rintro ⟨hcc, htt, hkt⟩
    have has := (cycleAsserted_iff h.apps targets hcur htgt).2 ⟨hcc, htt⟩
    have has' : CycleAsserted apps' targets := by
      refine (cycleAsserted_iff apps' targets hcur' htgt).2 ⟨fun a ha b hb hclash => ?_, htt⟩
      obtain ⟨y, hy, hrepo⟩ := List.mem_map.1 (hrepos.subset (List.mem_map_of_mem hb))
      have hclash' : Clash a.imageReference y.image.reference := hclash.of_stripTag hrepo.symm
      rcases reference_after hleaves a ha with ⟨x, hx, hkept, href⟩ | ⟨t, ht, href⟩
      · rw [href] at hclash'; exact hkt x hx hkept y hy hclash'
      · rw [href] at hclash'; exact htt t ht y hy hclash'
    exact ⟨leavesUnchanged_of_asserted has, has, reconcile_eq_nil has' hperm, has'⟩

def appAndApp2 : Host := .start [containerOf 0 "app:1" 1, containerOf 1 "app-2:1" 2]

def onlyApp2 : CycleEnv := calm [⟨2, 1, "app-2:1".toList, none⟩]

def app2Target : TargetApp := ⟨⟨"app-2:1".toList, "sha256:1"⟩, "app-2".toList, none, 1, 2⟩

theorem unchanged_untouched_alone :
    LeavesUnchanged (Host.start [containerOf 1 "app-2:1" 2]).apps [app2Target] :=
  ((unchanged_untouched_iff onlyApp2 (.start [containerOf 1 "app-2:1" 2]) [app2Target] (calm_pulled _)
    (calm_faultless _) (by decide) (by decide)).2 (by
      have hno : ¬ Clash "app-2:1".toList "app-2:1".toList := fun h => lt_irrefl _ h.stripTag_lt
      refine ⟨fun x hx y hy => ?_, fun x hx y hy => ?_, fun x hx _ y hy => ?_⟩
      · rw [List.mem_singleton.1 hx, List.mem_singleton.1 hy]; exact hno
      · rw [List.mem_singleton.1 hx, List.mem_singleton.1 hy]; exact hno
      · rw [List.mem_singleton.1 hx, List.mem_singleton.1 hy]; exact hno)).1

/-- **`app-2` runs as its target says, and is created again and removed**: `app-2:1` sorts before `app:1`, but `app`
before `app-2`. -/
theorem unchanged_recreated :
    onlyApp2.pulled = .ok [app2Target] ∧ onlyApp2.Faultless ∧ (appAndApp2.apps.map repository).Nodup ∧
      ([app2Target].map repository).Nodup ∧
      reconcile appAndApp2.apps [app2Target] = [.create app2Target, .remove 1, .remove 0] ∧
      ¬ LeavesUnchanged appAndApp2.apps [app2Target] := by
  have hrec : reconcile appAndApp2.apps [app2Target] = [.create app2Target, .remove 1, .remove 0] := by decide
  refine ⟨calm_pulled _, calm_faultless _, by decide, by decide, hrec, fun h => ?_⟩
  have hrepo : repository app2Target = repository (Application.wrap (containerOf 1 "app-2:1" 2)) := by decide
  exact h 0 (.wrap (containerOf 1 "app-2:1" 2)) (by decide) app2Target (List.mem_singleton_self _) (by decide)
    (.create app2Target) (by rw [hrec]; exact List.mem_cons_self) hrepo

end Apps
end ZeroDowntime
