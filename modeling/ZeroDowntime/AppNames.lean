import ZeroDowntime.AppOrder
/-!
# AppNames — when a container is created while another one holds its name

The actions come in the order of the repositories, and podman tells containers apart by the last path component.  A
create call meets a name that is held exactly if the holder's removal comes later, or never (`create_name_free_iff`).
-/
namespace ZeroDowntime
namespace Apps

open MergeJoin (Step lefts rights Descends)
open Lifecycle (Error)

/-- No create call is made while an application holds the name. -/
def NameFree (o : Outcome) : Prop := ∀ t held res, Event.created t held res ∈ o.events → t.name ∉ held

def launches : Step (Application × Nat) TargetApp → Option TargetApp
  | .left _ => none
  | .right t => some t
  | .both p t => if differs p.1 t then some t else none

/-- Every target is launched under a name that neither an application still to come nor one of `done` holds. -/
def Free : List (Step (Application × Nat) TargetApp) → List (List Char) → Prop
  | [], _ => True
  | s :: ss, done =>
    (∀ t, launches s = some t → t.name ∉ (lefts ss).map (fun p => p.1.appName) ∧ t.name ∉ done) ∧
      Free ss ((left? s).toList.map Application.appName ++ done)

/-- Of two steps, the first one's target is not launched under the name of the second one's application, nor the second
one's target under the name the first one leaves. -/
def Compatible (s s' : Step (Application × Nat) TargetApp) : Prop :=
  (∀ t, launches s = some t → ∀ p, s'.left? = some p → p.1.appName ≠ t.name) ∧
    ∀ t, launches s' = some t → ∀ a, left? s = some a → t.name ≠ a.appName

theorem free_iff : ∀ (ss : List (Step (Application × Nat) TargetApp)) (done : List (List Char)),
    Free ss done ↔ (∀ s ∈ ss, ∀ t, launches s = some t → t.name ∉ done) ∧ ss.Pairwise Compatible
  | [], _ => by simp [Free]
  | s :: ss, done => by
    rw [Free, free_iff ss, List.pairwise_cons, List.forall_mem_cons]
    constructor
    · rintro ⟨hs, hrest, hpair⟩
      refine ⟨⟨fun t ht => (hs t ht).2, fun s' hs' t ht hd => hrest s' hs' t ht (List.mem_append_right _ hd)⟩,
        fun s' hs' => ⟨fun t ht p hp hname => (hs t ht).1 ?_, fun t ht a ha hname => hrest s' hs' t ht ?_⟩, hpair⟩
      · exact List.mem_map.2 ⟨p, List.mem_filterMap.2 ⟨s', hs', hp⟩, hname⟩
      · rw [ha, hname]; exact List.mem_append_left _ (List.mem_singleton_self _)
    · rintro ⟨⟨hs, hrest⟩, hcomp, hpair⟩
      refine ⟨fun t ht => ⟨fun hm => ?_, hs t ht⟩, fun s' hs' t ht hm => ?_, hpair⟩
      · obtain ⟨p, hp, hname⟩ := List.mem_map.1 hm
        obtain ⟨s', hs', hl⟩ := List.mem_filterMap.1 hp
        exact (hcomp s' hs').1 t ht p hl hname
      · rcases List.mem_append.1 hm with hm | hm
        · obtain ⟨a, ha, hname⟩ := List.mem_map.1 hm
          exact (hcomp s' hs').2 t ht a (Option.mem_toList.1 ha) hname.symm
        · exact hrest s' hs' t ht hm

/-! ## The create calls of a run -/

theorem nameFree_andThen (o : Outcome) (f : Host → Outcome) :
    NameFree (o.andThen f) ↔ NameFree o ∧ (o.ended = .ok → NameFree (f o.host)) := by
  by_cases hok : o.ended = .ok
  · rw [andThen_of_ok o f hok]
    unfold NameFree
    simp only [List.mem_append]
    constructor
    · intro h
      exact ⟨fun t held res hm => h t held res (Or.inl hm), fun _ t held res hm => h t held res (Or.inr hm)⟩
    · rintro ⟨h1, h2⟩ t held res (hm | hm)
      · exact h1 t held res hm
      · exact h2 hok t held res hm
  · rw [andThen_of_ne_ok o f hok]
    exact ⟨fun h => ⟨h, fun h' => absurd h' hok⟩, And.left⟩

theorem nameFree_nil (en : Ended) (h : Host) : NameFree ⟨en, h, []⟩ := fun _ _ _ hm => absurd hm List.not_mem_nil

theorem nameFree_removed (en : Ended) (h : Host) (i : Nat) (a : Application) (e : RemoveEnd) :
    NameFree ⟨en, h, [.removed i a e]⟩ := fun t held res hm => by
  cases List.mem_singleton.1 hm

theorem removeAt_names (h : Host) (pre post : List Application) (a : Application) (r : Removal)
    (happs : h.apps = pre ++ a :: post) :
    (removeAt h pre.length r).host.apps = pre ++ lastFirst post ∧ NameFree (removeAt h pre.length r) ∧
      (r.ended = .returned true → (removeAt h pre.length r).ended = .ok) := by
  obtain ⟨hrest, heq⟩ := removeAt_eq h pre.length r a (pre ++ lastFirst post)
    (by rw [happs]; exact swapRemove_append pre a post)
  rw [heq]
  cases r.ended with
  | returned destroyed => exact ⟨rfl, nameFree_removed _ _ _ _ _, fun _ => rfl⟩
  | failed e => exact ⟨rfl, nameFree_removed _ _ _ _ _, (nomatch ·)⟩
  | pending => exact ⟨rfl, nameFree_removed _ _ _ _ _, (nomatch ·)⟩

theorem launch_nameFree (h : Host) (t : TargetApp) (res : Except Error Unit) :
    NameFree (launch h t res) ↔ t.name ∉ h.apps.map Application.appName := by
  have hev : (launch h t res).events = [.created t (h.apps.map Application.appName) res] := by
    cases res <;> rfl
  unfold NameFree
  rw [hev]
  constructor
  · intro hfree
    exact hfree t _ res (List.mem_singleton_self _)
  · intro hname t' held res' hm
    simp only [List.mem_singleton, Event.created.injEq] at hm
    obtain ⟨rfl, rfl, -⟩ := hm
    exact hname

theorem launch_apps {h : Host} {t : TargetApp} {res : Except Error Unit} (hok : (launch h t res).ended = .ok) :
    (launch h t res).host.apps = h.apps ++ [t.application h.next] := by
  cases res with
  | error e => cases hok
  | ok u => rfl

theorem mem_lefts_names {pre : List Application} {ss : List (Step (Application × Nat) TargetApp)}
    (hl : lefts ss = pre.zipIdx.reverse) (n : List Char) :
    n ∈ (lefts ss).map (fun p => p.1.appName) ↔ n ∈ pre.map Application.appName := by
  have hfst : pre.zipIdx.map Prod.fst = pre := List.zipIdx_map_fst 0 pre
  rw [hl, List.map_reverse, List.mem_reverse]
  conv_rhs => rw [← hfst, List.map_map]
  rfl

theorem andThen_assoc (o : Outcome) (f g : Host → Outcome) :
    (o.andThen f).andThen g = o.andThen (fun h => (f h).andThen g) := by
  by_cases hok : o.ended = .ok
  · rw [andThen_of_ok o f hok, andThen_of_ok o _ hok]
    let o' : Outcome := ⟨(f o.host).ended, (f o.host).host, o.events ++ (f o.host).events⟩
    by_cases hf : (f o.host).ended = .ok
    · rw [andThen_of_ok _ g hf, andThen_of_ok o' g hf, List.append_assoc]
    · rw [andThen_of_ne_ok _ g hf, andThen_of_ne_ok o' g hf]
  · rw [andThen_of_ne_ok o f hok, andThen_of_ne_ok o g hok, andThen_of_ne_ok o _ hok]

/-- An update is a removal and a create. -/
theorem actAll_update (env : CycleEnv) (n i : Nat) (t : TargetApp) (rest : List (ReconcileAction TargetApp)) (h : Host) :
    actAll env n (.update i t :: rest) h
      = (removeAt h i (env.removal n)).andThen (actAll env n (.create t :: rest)) :=
  andThen_assoc _ _ _

/-- The create calls from a host on meet no held name if `free` holds, and only then if every action succeeds. -/
def FreeFrom (env : CycleEnv) (n : Nat) (h : Host) (as : List (ReconcileAction TargetApp)) (free : Prop) : Prop :=
  (free → NameFree (actAll env n as h)) ∧ (env.ActionsSucceed → NameFree (actAll env n as h) → free)

/-- After a removal the names of the others are held as before. -/
theorem FreeFrom.removed {env : CycleEnv} {n m : Nat} {h : Host} {pre post : List Application} {a : Application}
    {as : List (ReconcileAction TargetApp)} {free : Prop} (happs : h.apps = pre ++ a :: post)
    (hrest : ∀ h' : Host, h'.apps = pre ++ lastFirst post → FreeFrom env m h' as free) :
    (free → NameFree ((removeAt h pre.length (env.removal n)).andThen (actAll env m as))) ∧
      (env.ActionsSucceed → NameFree ((removeAt h pre.length (env.removal n)).andThen (actAll env m as)) → free) := by
  obtain ⟨happs', hfree, hok⟩ := removeAt_names h pre post a (env.removal n) happs
  have ih := hrest _ happs'
  rw [nameFree_andThen]
  exact ⟨fun hf => ⟨hfree, fun _ => ih.1 hf⟩, fun hs hn => ih.2 hs (hn.2 (hok (hs.removal n)))⟩

/-- A create asks for its own name, which is held from then on. -/
theorem FreeFrom.created {env : CycleEnv} {n : Nat} {h : Host} {t : TargetApp} {as : List (ReconcileAction TargetApp)}
    {free : Prop} (hrest : ∀ h' : Host, h'.apps = h.apps ++ [t.application h.next] → FreeFrom env (n + 1) h' as free) :
    FreeFrom env n h (.create t :: as) (t.name ∉ h.apps.map Application.appName ∧ free) := by
  unfold FreeFrom
  rw [actAll, act, nameFree_andThen, launch_nameFree]
  constructor
  · rintro ⟨hname, hf⟩
    exact ⟨hname, fun hok => (hrest _ (launch_apps hok)).1 hf⟩
  · rintro hs ⟨hname, hn⟩
    have hok : (launch h t (env.created n)).ended = .ok := by rw [hs.created n]; rfl
    exact ⟨hname, (hrest _ (launch_apps hok)).2 hs (hn hok)⟩

theorem FreeFrom.launched {env : CycleEnv} {n : Nat} {h : Host} {t : TargetApp} {s : Step (Application × Nat) TargetApp}
    {ss : List (Step (Application × Nat) TargetApp)} {pre post : List Application} {done : List (List Char)}
    (hs : launches s = some t) (hleft : (left? s).toList.map Application.appName = [t.name])
    (happs : h.apps = pre ++ post) (hl : lefts ss = pre.zipIdx.reverse)
    (hdone : ∀ name, name ∈ done ↔ name ∈ post.map Application.appName)
    (hrest : ∀ h' : Host, h'.apps = pre ++ (post ++ [t.application h.next]) →
      (∀ name, name ∈ t.name :: done ↔ name ∈ (post ++ [t.application h.next]).map Application.appName) →
      FreeFrom env (n + 1) h' (actionsOf ss) (Free ss (t.name :: done))) :
    FreeFrom env n h (.create t :: actionsOf ss) (Free (s :: ss) done) := by
  have hfree : Free (s :: ss) done ↔ t.name ∉ h.apps.map Application.appName ∧ Free ss (t.name :: done) := by
    rw [Free, hleft, hs, happs, List.map_append, List.mem_append, not_or, ← mem_lefts_names hl, ← hdone]
    simp only [Option.some.injEq, forall_eq', List.singleton_append]
  rw [hfree]
  refine .created (fun h' happs' => hrest h' (by rw [happs', happs, List.append_assoc]) (fun name => ?_))
  rw [List.mem_cons, hdone name, List.map_append, List.mem_append, or_comm]
  simp [TargetApp.application, TargetApp.container, Application.wrap]

/-- **The create calls of a run meet no held name if the steps are free**, and only then if every action succeeds. -/
theorem nameFree_actAll (env : CycleEnv) :
    ∀ (ss : List (Step (Application × Nat) TargetApp)) (n : Nat) (h : Host) (pre post : List Application)
      (done : List (List Char)), h.apps = pre ++ post → lefts ss = pre.zipIdx.reverse →
      (∀ name, name ∈ done ↔ name ∈ post.map Application.appName) → FreeFrom env n h (actionsOf ss) (Free ss done)
  | [], n, h, pre, post, done, _, _, _ => ⟨fun _ => nameFree_nil _ _, fun _ _ => trivial⟩
  | .left p :: ss, n, h, pre, post, done, happs, hl, hdone => by
    obtain ⟨pre', rfl, hidx, hl'⟩ := eq_of_zipIdx_reverse pre p (lefts ss) hl
    rw [List.append_assoc, List.singleton_append] at happs
    have hfree : Free (.left p :: ss) done ↔ Free ss done := by simp [Free, launches, left?]
    rw [hfree, actionsOf_left, hidx]
    exact .removed happs (fun h' happs' => nameFree_actAll env ss (n + 1) h' pre' (lastFirst post) done happs' hl'
      (fun name => by rw [hdone name]; exact (((lastFirst_perm post).map _).mem_iff).symm))
  | .right t :: ss, n, h, pre, post, done, happs, hl, hdone => by
    rw [actionsOf_right]
    exact .launched rfl rfl happs hl hdone (fun h' happs' hdone' =>
      nameFree_actAll env ss (n + 1) h' pre _ _ happs' hl hdone')
  | .both p t :: ss, n, h, pre, post, done, happs, hl, hdone => by
    obtain ⟨pre', rfl, hidx, hl'⟩ := eq_of_zipIdx_reverse pre p (lefts ss) hl
    rw [List.append_assoc, List.singleton_append] at happs
    cases hd : differs p.1 t with
    | true =>
      have hlaunch : launches (.both p t) = some t := by simp [launches, hd]
      have hleft : (left? (.both p t)).toList.map Application.appName = [t.name] := by simp [left?, hd]; rfl
      rw [actionsOf_update p t ss hd, hidx]
      unfold FreeFrom
      rw [actAll_update]
      refine FreeFrom.removed happs (fun h' happs' => .launched hlaunch hleft happs' hl' (fun name => ?_)
        (fun h'' happs'' hdone'' => nameFree_actAll env ss (n + 1) h'' pre' _ _ happs'' hl' hdone''))
      rw [hdone name]
      exact (((lastFirst_perm post).map _).mem_iff).symm
    | false =>
      have hfree : Free (.both p t :: ss) done ↔ Free ss (p.1.appName :: done) := by
        simp [Free, launches, left?, hd, Application.bare]
      rw [actionsOf_keep p t ss hd, hfree]
      exact nameFree_actAll env ss n h pre' (p.1 :: post) (p.1.appName :: done) happs hl' (fun name => by
        rw [List.mem_cons, hdone name, List.map_cons, List.mem_cons])

theorem right?_of_launches {s : Step (Application × Nat) TargetApp} {t : TargetApp} (h : launches s = some t) :
    s.right? = some t := by
  cases s with
  | left p => cases h
  | right t' => exact h
  | both p t' =>
    simp only [launches, Option.ite_none_right_eq_some] at h
    exact h.2

theorem left?_cases {s : Step (Application × Nat) TargetApp} {a : Application} (h : left? s = some a) :
    (∃ t, launches s = some t ∧ a.appName = t.name) ∨
      ∃ p t, s = .both p t ∧ differs p.1 t = false ∧ a.appName = p.1.appName := by
  cases s with
  | left p => cases h
  | right t =>
    simp only [left?, Option.some.injEq] at h
    exact Or.inl ⟨t, rfl, by rw [← h]; rfl⟩
  | both p t =>
    simp only [left?, Option.some.injEq] at h
    cases hd : differs p.1 t with
    | true => exact Or.inl ⟨t, by simp [launches, hd], by rw [← h, hd]; rfl⟩
    | false => exact Or.inr ⟨p, t, rfl, hd, by rw [← h, hd]; rfl⟩

/-! ## Steps that descend -/

def Unchanged (apps : List Application) (t : TargetApp) : Prop := ∃ x ∈ apps, identity x = identity t

def Kept (targets : List TargetApp) (x : Application) : Prop := ∃ t ∈ targets, identity x = identity t

/-- A target that has to be launched has its name free by then: who holds it goes, and comes no earlier in the order of
the repositories. -/
def NamesClear (apps : List Application) (targets : List TargetApp) : Prop :=
  ∀ x ∈ apps, ∀ t ∈ targets, x.appName = t.name →
    Unchanged apps t ∨ (repository t ≤ repository x ∧ ¬ Kept targets x)

section Asserted

variable {apps : List Application} {targets : List TargetApp}

def repoOf (s : Step (Application × Nat) TargetApp) : Reference :=
  s.key (fun p : Application × Nat => repository p.1) repository

theorem repoOf_left? {s : Step (Application × Nat) TargetApp} {p : Application × Nat} (hp : s.left? = some p) :
    repoOf s = repository p.1 := by
  cases s with
  | left p' => simp only [Step.left?, Option.some.injEq] at hp; subst hp; rfl
  | right t => cases hp
  | both p' t => simp only [Step.left?, Option.some.injEq] at hp; subst hp; rfl

theorem repoOf_right? {s : Step (Application × Nat) TargetApp} (hs : s ∈ steps apps targets) {t : TargetApp}
    (ht : s.right? = some t) : repoOf s = repository t := by
  cases s with
  | left p => cases ht
  | right t' => simp only [Step.right?, Option.some.injEq] at ht; subst ht; rfl
  | both p t' =>
    simp only [Step.right?, Option.some.injEq] at ht
    subst ht
    exact MergeJoin.key_of_both _ _ _ _ p t' hs

variable (h : (ReconcileIterator.new apps targets).Asserted)

include h

theorem steps_eq_of_repo {s s' : Step (Application × Nat) TargetApp} (hs : s ∈ steps apps targets)
    (hs' : s' ∈ steps apps targets) (hrepo : repoOf s = repoOf s') : s = s' :=
  (MergeJoin.join_descends _ _ _ _ (steps_descend h).1 (steps_descend h).2).eq_of_key hs hs' hrepo

theorem target_eq_of_repo {t t' : TargetApp} (ht : t ∈ targets) (ht' : t' ∈ targets)
    (hrepo : repository t = repository t') : t = t' :=
  (steps_descend h).2.eq_of_key (List.mem_reverse.2 ht) (List.mem_reverse.2 ht') hrepo

theorem launches_iff {s : Step (Application × Nat) TargetApp} (hs : s ∈ steps apps targets) {t : TargetApp}
    (ht : s.right? = some t) : launches s = some t ↔ ¬ Unchanged apps t := by
  constructor
  · rintro hl ⟨x, hx, hid⟩
    obtain ⟨i, hi⟩ := List.getElem?_of_mem hx
    have hrepo : repository x = repository t := congrArg Prod.fst hid
    have hboth := (both_mem_steps h x i t).2 ⟨hi, mem_of_right hs ht, hrepo⟩
    have heq := steps_eq_of_repo h hs hboth ((repoOf_right? hs ht).trans hrepo.symm)
    rw [heq] at hl
    simp [launches, (differs_eq_false x t hrepo).2 hid] at hl
  · intro hno
    cases s with
    | left p => cases ht
    | right t' => exact ht
    | both p t' =>
      simp only [Step.right?, Option.some.injEq] at ht
      subst ht
      have hrepo := MergeJoin.key_of_both _ _ _ _ p t' hs
      cases hd : differs p.1 t' with
      | true => simp [launches, hd]
      | false => exact absurd ⟨p.1, mem_of_left hs rfl, (differs_eq_false p.1 t' hrepo).1 hd⟩ hno

theorem left?_of_kept {s : Step (Application × Nat) TargetApp} (hs : s ∈ steps apps targets) {p : Application × Nat}
    (hp : s.left? = some p) (hk : Kept targets p.1) : left? s = some p.1.bare := by
  obtain ⟨t, ht, hid⟩ := hk
  have hrepo : repository p.1 = repository t := congrArg Prod.fst hid
  have hboth := (both_mem_steps h p.1 p.2 t).2 ⟨getElem?_of_left hs hp, ht, hrepo⟩
  have heq := steps_eq_of_repo h hs hboth (repoOf_left? hp)
  rw [heq]
  simp [left?, (differs_eq_false p.1 t hrepo).2 hid]

/-- A holder that stays past the launch of its name breaks a pair of steps. -/
theorem namesClear_of_compatible (hpair : (steps apps targets).Pairwise Compatible) : NamesClear apps targets := by
  have hdesc := MergeJoin.join_descends _ _ _ _ (steps_descend h).1 (steps_descend h).2
  intro x hx t ht hname
  by_contra hcon
  rw [not_or] at hcon
  obtain ⟨hun, hcon⟩ := hcon
  obtain ⟨st, hst, hrt⟩ := (exists_right apps targets t).2 ht
  obtain ⟨i, hi⟩ := List.getElem?_of_mem hx
  obtain ⟨sx, hsx, hlx⟩ := (exists_left apps targets (x, i)).2 hi
  have hl := (launches_iff h hst hrt).2 hun
  have hkx : repoOf sx = repository x := repoOf_left? hlx
  have hkt : repoOf st = repository t := repoOf_right? hst hrt
  have hnk : Kept targets x → repository x ≠ repository t := fun ⟨t', ht', hid⟩ hrepo => by
    have := target_eq_of_repo h ht' ht ((congrArg Prod.fst hid).symm.trans hrepo)
    exact hun ⟨x, hx, this ▸ hid⟩
  by_cases heq : sx = st
  · have hrepo : repository x = repository t := by rw [← hkx, ← hkt, heq]
    exact hcon ⟨le_of_eq hrepo.symm, fun hk => hnk hk hrepo⟩
  rcases MergeJoin.rel_or_rel_of_ne (hpair.and hdesc) hsx hst heq with ⟨hc, hlt⟩ | ⟨hc, -⟩
  · have hlt' : repository t < repository x := hkx ▸ hkt ▸ hlt
    refine hcon ⟨le_of_lt hlt', fun hk => ?_⟩
    exact hc.2 t hl _ (left?_of_kept h hsx hlx hk) hname.symm
  · exact hc.1 t hl (x, i) hlx hname

/-- Two steps that descend are compatible where names are clear. -/
theorem compatible_of_namesClear (hnames : (targets.map TargetApp.name).Nodup) (hclear : NamesClear apps targets)
    {s s' : Step (Application × Nat) TargetApp} (hs : s ∈ steps apps targets) (hs' : s' ∈ steps apps targets)
    (hlt : repoOf s' < repoOf s) : Compatible s s' := by
  refine ⟨fun t hl p hp hname => ?_, fun t hl a ha hname => ?_⟩
  · have hrt := right?_of_launches hl
    rcases hclear p.1 (mem_of_left hs' hp) t (mem_of_right hs hrt) hname with hun | ⟨hle, -⟩
    · exact (launches_iff h hs hrt).1 hl hun
    · rw [repoOf_left? hp, repoOf_right? hs hrt] at hlt
      exact absurd hlt (not_lt.2 hle)
  · have hrt := right?_of_launches hl
    have ht := mem_of_right hs' hrt
    rcases left?_cases ha with ⟨t', hl', hname'⟩ | ⟨p, t', rfl, hd, hname'⟩
    · -- two targets have two names
      have hrt' := right?_of_launches hl'
      have heq : t = t' := List.inj_on_of_nodup_map hnames ht (mem_of_right hs hrt') (hname.trans hname')
      rw [repoOf_right? hs' hrt, repoOf_right? hs hrt', heq] at hlt
      exact lt_irrefl _ hlt
    · have hrepo := MergeJoin.key_of_both _ _ _ _ p t' hs
      have hk : Kept targets p.1 := ⟨t', mem_of_right hs rfl, (differs_eq_false p.1 t' hrepo).1 hd⟩
      rcases hclear p.1 (mem_of_left hs rfl) t ht (hname.trans hname').symm with hun | ⟨-, hnk⟩
      · exact (launches_iff h hs' hrt).1 hl hun
      · exact hnk hk

theorem compatible_iff (hnames : (targets.map TargetApp.name).Nodup) :
    (steps apps targets).Pairwise Compatible ↔ NamesClear apps targets := by
  refine ⟨namesClear_of_compatible h, fun hclear => ?_⟩
  have hdesc : (steps apps targets).Pairwise (fun s s' => repoOf s' < repoOf s) :=
    MergeJoin.join_descends _ _ _ _ (steps_descend h).1 (steps_descend h).2
  exact (List.Pairwise.and_mem.1 hdesc).imp fun ⟨hs, hs', hlt⟩ => compatible_of_namesClear h hnames hclear hs hs' hlt

end Asserted

/-- **Whatever fails, no container is created under a name that is held: exactly if every target to be launched finds
its name clear**, since who holds it goes and comes no earlier in the order of the repositories. -/
theorem create_name_free_iff (h : Host) (targets : List TargetApp)
    (hsort : (ReconcileIterator.new h.apps targets).Asserted) (hnames : (targets.map TargetApp.name).Nodup) :
    (∀ env, NameFree (actAll env 0 (ReconcileIterator.new h.apps targets).actions h)) ↔ NamesClear h.apps targets := by
  have hcompat : Free (steps h.apps targets) [] ↔ NamesClear h.apps targets := by
    rw [free_iff, ← compatible_iff hsort hnames]
    exact and_iff_right (fun s _ t _ => List.not_mem_nil)
  have hall := fun env => nameFree_actAll env _ 0 h h.apps [] [] (List.append_nil _).symm
    (lefts_steps h.apps targets) (fun _ => Iff.rfl)
  rw [actions_new, ← hcompat]
  constructor
  · intro hfree
    exact (hall (calm [])).2 (calm_faultless []).toActionsSucceed (hfree _)
  · intro hfree env
    exact (hall env).1 hfree

def movedTarget : TargetApp := ⟨⟨"c.io/app:1".toList, "sha256:1"⟩, "app".toList, none, 1, 2⟩

theorem create_name_free_back :
    NameFree (actAll (calm []) 0 (ReconcileIterator.new (Host.start [containerOf 0 "d.io/app:1" 1]).apps
      [movedTarget]).actions (.start [containerOf 0 "d.io/app:1" 1])) := by
  refine (create_name_free_iff (.start [containerOf 0 "d.io/app:1" 1]) [movedTarget]
    ((asserted_new_iff _ _).2 ⟨List.pairwise_singleton _ _, List.pairwise_singleton _ _⟩) (by decide)).2 ?_ (calm [])
  intro x hx t ht _
  rw [List.mem_singleton.1 ht]
  obtain rfl : x = .wrap (containerOf 0 "d.io/app:1" 1) := List.mem_singleton.1 hx
  refine Or.inr ⟨by decide, ?_⟩
  rintro ⟨t', ht', hid⟩
  rw [List.mem_singleton.1 ht'] at hid
  exact absurd hid (by decide)

/-- **An application that moves from `b.io` to `c.io` is created while its old container holds the name.** -/
theorem create_meets_held_name :
    (ReconcileIterator.new (Host.start [containerOf 0 "b.io/app:1" 1]).apps [movedTarget]).Asserted ∧
      movedTarget.name = deriveName movedTarget.image.reference ∧
      ¬ NameFree (actAll (calm []) 0 (ReconcileIterator.new (Host.start [containerOf 0 "b.io/app:1" 1]).apps
        [movedTarget]).actions (.start [containerOf 0 "b.io/app:1" 1])) := by
  have hact : (ReconcileIterator.new (Host.start [containerOf 0 "b.io/app:1" 1]).apps [movedTarget]).actions
      = [.create movedTarget, .remove 0] := by decide
  refine ⟨(asserted_new_iff _ _).2 ⟨List.pairwise_singleton _ _, List.pairwise_singleton _ _⟩, by decide, fun hfree => ?_⟩
  rw [hact] at hfree
  exact hfree movedTarget ["app".toList] (.ok ()) List.mem_cons_self (List.mem_singleton_self _)

end Apps
end ZeroDowntime
