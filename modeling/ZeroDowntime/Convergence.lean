import ZeroDowntime.Fleet
/-!
# Convergence — a device can always be brought to its targets

From every reachable state of the fleet, with whatever requests under way and whatever the device's loop is stuck in, a new
process of the device and one undisturbed cycle lead to the applications that are deployed to it, and to their report
(`can_converge`).
-/
namespace ZeroDowntime

open Api (Store StoreCall AppsRequest Backend DeviceModel Reported itemOf appsGetAssigned)
open Apps (AppLoop AppAction Container Comes Op leftBy calm)
open Runs (run)

/-- The steps of a cycle past its fetch in which podman does what it is asked for. -/
def Apps.smooth : AppAction → Prop
  | .pulled image => image = (calm []).image
  | .start => True
  | .removed r => r = (calm []).removal 0
  | .created res => res = .ok ()
  | .pruned res => res = .ok ()
  | _ => False

theorem Apps.smooth.own : ∀ {a : AppAction}, smooth a → own a = true
  | .pulled _, _ => rfl
  | .start, _ => rfl
  | .removed _, _ => rfl
  | .created _, _ => rfl
  | .pruned _, _ => rfl

/-- What device `k` does in a cycle that goes well, and what the API does for its requests from the `n`-th on. -/
def Undisturbed (k n : Nat) : FleetAction → Prop
  | .authenticate k' => k' = k
  | .statement i _ => n ≤ i
  | .answer k' => k' = k
  | .app k' osUpgradeInProgress a => k' = k ∧ osUpgradeInProgress = false ∧ Apps.smooth a
  | _ => False

/-! ## The loop, undisturbed -/

/-- **The operations that are to come can be gone through**, if they come to something. -/
theorem Apps.exists_reporting (ids : List Int) : ∀ (ops : List Op) (h : Apps.Host), Comes ids ops h.apps →
    ∃ as h', (∀ a ∈ as, smooth a) ∧
      run (AppLoop.step false) ⟨h, .updating ids ops⟩ as = some ⟨h', .reporting ids⟩ ∧ Comes ids [] h'.apps
  | [], h, hc => ⟨[.start], h, fun a ha => List.mem_singleton.1 ha ▸ trivial, rfl, hc⟩
  | op :: ops, h, hc => by
    obtain ⟨a, o, hsmooth, hstep, hok, hleft⟩ : ∃ a o, smooth a ∧
        (AppLoop.mk h (.operating ids op ops)).step false a = AppLoop.goOn ids ops o ∧ o.ended = .ok ∧
        leftBy (op :: ops) (h.apps.map Application.bare) = leftBy ops (o.host.apps.map Application.bare) := by
      cases op with
      | create t => exact ⟨.created (.ok ()), launch h t (.ok ()), rfl, rfl, rfl, leftBy_launch rfl ops⟩
      | remove i =>
        obtain ⟨left, hl, -⟩ := hc
        rw [leftBy, swapRemove_map] at hl
        cases hs : swapRemove h.apps i with
        | none =>
          rw [hs] at hl
          cases hl
        | some p =>
          obtain ⟨hrest, heq⟩ := removeAt_eq h i ((calm []).removal 0) p.1 p.2 hs
          have hok : (removeAt h i ((calm []).removal 0)).ended = .ok := by
            rw [heq]
            rfl
          exact ⟨.removed ((calm []).removal 0), _, rfl, rfl, hok, leftBy_removeAt hok ops⟩
    obtain ⟨left, hl, hperm⟩ := hc
    obtain ⟨as, h', hall, hr, hc'⟩ := Apps.exists_reporting ids ops o.host ⟨left, hleft.symm.trans hl, hperm⟩
    refine ⟨.start :: a :: as, h', ?_, ?_, hc'⟩
    · rintro b (_ | ⟨_, _ | ⟨_, hb⟩⟩)
      · trivial
      · exact hsmooth
      · exact hall b hb
    · refine (Runs.run_cons_eq_some ..).2 ⟨⟨h, .operating ids op ops⟩, rfl, ?_⟩
      refine (Runs.run_cons_eq_some ..).2 ⟨⟨o.host, .updating ids ops⟩, ?_, hr⟩
      rw [hstep]
      simp only [AppLoop.goOn, hok]

section

variable {be : Backend} {uuid : Nat → String} {f : Fleet} {k : Nat}

open Fleet (step)

theorem goTo_goTo (f : Fleet) (k : Nat) (l l' : AppLoop) : (f.goTo k l).goTo k l' = f.goTo k l' := by
  unfold Fleet.goTo
  simp only [Function.update_idem]

/-- `f'` is reached from `f` with nothing but device `k` and its requests from the `n`-th on. -/
def Brings (be : Backend) (uuid : Nat → String) (k n : Nat) (f f' : Fleet) : Prop :=
  ∃ bs, run (step be uuid) f bs = some f' ∧ ∀ b ∈ bs, Undisturbed k n b

theorem Brings.trans {n : Nat} {f₁ f₂ f₃ : Fleet} (h : Brings be uuid k n f₁ f₂) (h' : Brings be uuid k n f₂ f₃) :
    Brings be uuid k n f₁ f₃ := by
  obtain ⟨bs, hb, hbs⟩ := h
  obtain ⟨cs, hc, hcs⟩ := h'
  exact ⟨bs ++ cs, (Runs.run_append_eq_some ..).2 ⟨f₂, hb, hc⟩, List.forall_mem_append.2 ⟨hbs, hcs⟩⟩

theorem Brings.one {n : Nat} {f₁ f₂ : Fleet} {a : FleetAction} (h : step be uuid f₁ a = some f₂)
    (ha : Undisturbed k n a) : Brings be uuid k n f₁ f₂ :=
  ⟨[a], (Runs.run_cons_eq_some ..).2 ⟨f₂, h, rfl⟩, fun _ hb => List.mem_singleton.1 hb ▸ ha⟩

theorem run_own : ∀ (as : List AppAction) (l l' : AppLoop), (∀ a ∈ as, own a = true) →
    run (AppLoop.step false) l as = some l' →
    run (step be uuid) (f.goTo k l) (as.map (.app k false)) = some (f.goTo k l')
  | [], l, l', _, hr => Option.some.inj hr ▸ rfl
  | a :: as, l, l', hown, hr => by
    obtain ⟨l₁, hs, hr⟩ := (Runs.run_cons_eq_some _ _ _ _ _).1 hr
    have ih := run_own as l₁ l' (fun b hb => hown b (List.mem_cons_of_mem _ hb)) hr
    refine (Runs.run_cons_eq_some ..).2 ⟨f.goTo k l₁, ?_, ih⟩
    simp only [step, hown a List.mem_cons_self, if_true, goTo_self, hs, Option.map_some, goTo_goTo]

theorem brings_own {n : Nat} {as : List AppAction} {l l' : AppLoop} (hall : ∀ a ∈ as, Apps.smooth a)
    (hr : run (AppLoop.step false) l as = some l') : Brings be uuid k n (f.goTo k l) (f.goTo k l') := by
  refine ⟨as.map (.app k false), run_own as l l' (fun a ha => (hall a ha).own) hr, fun b hb => ?_⟩
  obtain ⟨a, ha, rfl⟩ := List.mem_map.1 hb
  exact ⟨rfl, rfl, hall a ha⟩

/-! ## The requests, undisturbed -/

/-- The fleet while device `k` waits for its last request, which has come to `r`. -/
def Fleet.waiting (f : Fleet) (k : Nat) (l : AppLoop) (s : Store) (rs : List (Nat × AppsRequest)) (r : AppsRequest) :
    Fleet where
  store := s
  requests := rs ++ [(k, r)]
  clients := Function.update f.clients k ⟨l, some rs.length⟩

theorem step_statement {l : AppLoop} {s s' : Store} {rs : List (Nat × AppsRequest)} {r r' : AppsRequest} {now : Int}
    (h : r.statement be now s = some (r', s')) :
    step be uuid (f.waiting k l s rs r) (.statement rs.length now) = some (f.waiting k l s' rs r') := by
  simp only [step, Fleet.waiting, List.getElem?_concat_length, Option.bind_some, h, Option.map_some, Arrivals.set_last]

/-- The configs are read one by one. -/
theorem brings_reading {n : Nat} {rs : List (Nat × AppsRequest)} (hn : n ≤ rs.length) (l : AppLoop) (s : Store)
    (d : DeviceModel) :
    ∀ (todo : List (Versioned.Row Api.ApplicationAssignment)) (configs : List (Versioned.Row Api.ApplicationConfig)),
      Brings be uuid k n (f.waiting k l s rs (.reading d todo configs))
        (f.waiting k l s rs (.served d ((configs ++ todo.filterMap
          (fun a => Api.getApplicationConfig a.data.applicationConfigId s.db)).map itemOf)))
  | [], configs => by
    rw [List.filterMap_nil, List.append_nil]
    exact .one (a := .statement rs.length 0) (step_statement rfl) hn
  | a :: todo, configs => by
    refine .trans (.one (a := .statement rs.length 0) (step_statement rfl) hn) ?_
    have hcons : (a :: todo).filterMap (fun a => Api.getApplicationConfig a.data.applicationConfigId s.db) =
        (Api.getApplicationConfig a.data.applicationConfigId s.db).toList ++
          todo.filterMap (fun a => Api.getApplicationConfig a.data.applicationConfigId s.db) := by
      rw [List.filterMap_cons]
      cases Api.getApplicationConfig a.data.applicationConfigId s.db <;> rfl
    rw [hcons, ← List.append_assoc]
    exact brings_reading hn l s d todo _

/-- **A `GET` that nothing disturbs answers with the assigned configs.** -/
theorem brings_listing {n : Nat} {rs : List (Nat × AppsRequest)} (hn : n ≤ rs.length) (l : AppLoop) (s : Store)
    (d : DeviceModel) : Brings be uuid k n (f.waiting k l s rs (.listing d))
      (f.waiting k l s rs (.served d ((appsGetAssigned be.nullOrder d.id d.groupId s.db).map itemOf))) := by
  have hread : Brings be uuid k n
      (f.waiting k l s rs (.reading d (Api.assignmentsPaged (s.db.listed be.nullOrder d) 0 Api.u64Max s.db).1 [])) _ :=
    brings_reading hn l s d _ []
  rw [List.nil_append] at hread
  rw [Api.appsGetAssigned_eq]
  exact .trans (.one (a := .statement rs.length 0) (step_statement rfl) hn)
    (.trans (.one (a := .statement rs.length 0) (step_statement rfl) hn) hread)

/-- The keys of the reports. -/
def reportedKeys (s : Store) : List (Int × Int) := s.reportedApplicationAssignments.rows.map Reported.key

/-- The store has ids for `n` more reports. -/
def HasIds (s : Store) (n : Nat) : Prop := s.reportedApplicationAssignments.next + n ≤ Versioned.idLimit

instance (s : Store) (n : Nat) : Decidable (HasIds s n) := inferInstanceAs (Decidable (_ ≤ _))

theorem accepted_report (be : Backend) (now : Int) {s : Store} (hi : s.Integral) {id : Int} {d : DeviceModel} {n : Nat}
    (hid : id ∈ s.configIds) (hd : d.id ∈ s.devices.keys) (hn : HasIds s (n + 1)) :
    ∃ s', s.addReportedApplicationAssignment be id d.id now = (.ok (), s') ∧
      s' = s.exec be (.addReportedApplicationAssignment id d.id now) ∧ s'.db = s.db ∧ s'.devices = s.devices ∧
      HasIds s' n ∧ ∀ key, key ∈ reportedKeys s' ↔ key ∈ reportedKeys s ∨ key = (d.id, id) := by
  unfold HasIds at hn ⊢
  have hok : (s.addReportedApplicationAssignment be id d.id now).1 = .ok () :=
    (Api.addReported_ok_iff hi hid).2 ⟨hd, by omega⟩
  have hput := Api.addReported_of_ok hok
  refine ⟨_, Prod.ext hok rfl, rfl, rfl, rfl, ?_, fun key => ?_⟩
  · show (Api.addReported _ _ _ _ _ _ _ _).2.next + _ ≤ _
    rw [hput, Api.putReported, Serials.Table.upsert_next]
    omega
  · show key ∈ (Api.addReported _ _ _ _ _ _ _ _).2.rows.map Reported.key ↔ _
    rw [hput, Api.putReported_rows]
    exact Upserts.mem_keys_upsert (Api.ReportedTable.key_refresh _) _ _ _

/-- **A `PUT` that nothing disturbs reports all of its ids.** -/
theorem brings_reporting {n : Nat} {rs : List (Nat × AppsRequest)} (hn : n ≤ rs.length) (f : Fleet) (l : AppLoop)
    (d : DeviceModel) : ∀ (ids : List Int) (s : Store),
    (∃ calls, s = Store.stored be calls) → (∀ id ∈ ids, id ∈ s.configIds) → d.id ∈ s.devices.keys → HasIds s ids.length →
      ∃ s', Brings be uuid k n (f.waiting k l s rs (.reporting d ids)) (f.waiting k l s' rs .created) ∧
        s'.db = s.db ∧ (∀ key ∈ reportedKeys s, key ∈ reportedKeys s') ∧ ∀ id ∈ ids, (d.id, id) ∈ reportedKeys s'
  | [], s, _, _, _, _ =>
    ⟨s, .one (a := .statement rs.length 0) (step_statement rfl) hn, rfl, fun _ hkey => hkey,
      fun id hid => absurd hid List.not_mem_nil⟩
  | id :: ids, s, ⟨calls, hs⟩, hids, hd, hleft => by
    have hi : s.Integral := hs ▸ Store.stored_integral be calls
    obtain ⟨s₁, hadd, hexec, hdb, hdev, hleft₁, hkeys⟩ :=
      accepted_report be 0 hi (hids id List.mem_cons_self) hd hleft
    have hst : (AppsRequest.reporting d (id :: ids)).statement be 0 s = some (.reporting d ids, s₁) := by
      simp only [AppsRequest.statement, hadd]
    have hstored : ∃ calls, s₁ = Store.stored be calls := by
      refine ⟨calls ++ [.addReportedApplicationAssignment id d.id 0], ?_⟩
      rw [hexec, hs, Store.stored, Store.stored, Store.run_append]
      rfl
    have hcfg : s₁.configIds = s.configIds := congrArg (fun db => db.applicationConfigs.rows.map Versioned.Row.id) hdb
    obtain ⟨s', hr, hdb', hold, hnew⟩ := brings_reporting hn f l d ids s₁ hstored
      (fun id' hid => hcfg ▸ hids id' (List.mem_cons_of_mem _ hid)) (hdev ▸ hd) hleft₁
    refine ⟨s', .trans (.one (a := .statement rs.length 0) (step_statement hst) hn) hr, hdb'.trans hdb,
      fun key hkey => hold key ((hkeys key).2 (.inl hkey)), fun id' hid => ?_⟩
    rcases List.mem_cons.1 hid with rfl | hid
    · exact hold _ ((hkeys _).2 (.inr rfl))
    · exact hnew id' hid

/-! ## A whole cycle -/

theorem step_authenticate {g : Fleet} {l : AppLoop} {d : DeviceModel} {r : AppsRequest}
    (hd : g.store.devices.getDeviceByUuid (uuid k) = some d) (hreq : Client.request? ⟨l, none⟩ d = some r) :
    step be uuid (g.goTo k l) (.authenticate k) = some (g.waiting k l g.store g.requests r) := by
  simp only [step, Fleet.goTo, hd, Option.bind_some, Function.update_self, hreq, Option.map_some, Function.update_idem,
    Fleet.waiting]

/-- The fleet with device `k` at `l` once its last request is over. -/
def Fleet.after (f : Fleet) (k : Nat) (l : AppLoop) (s : Store) (rs : List (Nat × AppsRequest)) (r : AppsRequest) :
    Fleet where
  store := s
  requests := rs ++ [(k, r)]
  clients := Function.update f.clients k ⟨l, none⟩

theorem step_answer {l l' : AppLoop} {s : Store} {rs : List (Nat × AppsRequest)} {r : AppsRequest} {a : AppAction}
    (ha : answerOf r = some a) (hl : l.step false a = some l') :
    step be uuid (f.waiting k l s rs r) (.answer k) = some (f.after k l' s rs r) := by
  simp only [step, Fleet.waiting, Function.update_self, Option.bind_some, List.getElem?_concat_length, ha, hl,
    Option.map_some, Fleet.goTo, Function.update_idem, Fleet.after]

theorem after_eq_goTo (f : Fleet) (k : Nat) (l : AppLoop) (s : Store) (rs : List (Nat × AppsRequest)) (r : AppsRequest) :
    f.after k l s rs r = (f.after k l s rs r).goTo k l := by
  unfold Fleet.after Fleet.goTo
  simp only [Function.update_idem]

/-- A new process of the device comes to its first tick. -/
theorem run_restart (f : Fleet) (k : Nat) : run (step be uuid) f [.restart k, .app k false .tick] =
    some (f.goTo k ⟨.start (f.clients k).loop.host.containers, .fetching⟩) := by
  refine (Runs.run_cons_eq_some ..).2 ⟨f.goTo k (f.clients k).loop.restarted, rfl, (Runs.run_cons_eq_some ..).2 ⟨_, ?_, rfl⟩⟩
  simp only [step, own, if_true, goTo_self]
  rw [show (f.clients k).loop.restarted.step false .tick =
    some ⟨.start (f.clients k).loop.host.containers, .fetching⟩ from rfl, Option.map_some, goTo_goTo]

/-- **The device fetches its targets.** -/
theorem brings_get {d : DeviceModel} (hd : f.store.devices.getDeviceByUuid (uuid k) = some d) (h₀ : Apps.Host)
    {items : List AppsGetResponseItem}
    (hitems : items = (appsGetAssigned be.nullOrder d.id d.groupId f.store.db).map itemOf) :
    Brings be uuid k f.requests.length (f.goTo k ⟨h₀, .fetching⟩)
      (f.after k ⟨h₀, .pulling items⟩ f.store f.requests (.served d items)) := by
  subst hitems
  exact .trans (.one (step_authenticate (l := ⟨h₀, .fetching⟩) hd rfl) rfl)
    (.trans (brings_listing (Nat.le_refl _) _ _ d) (.one (step_answer rfl rfl) rfl))

/-- The loop comes on its own from these targets to the report of them. -/
theorem Apps.exists_cycle (h : Apps.Host) (cs : List (Versioned.Row Api.ApplicationConfig)) :
    ∃ as h', (∀ a ∈ as, smooth a) ∧
      run (AppLoop.step false) ⟨h, .pulling (cs.map itemOf)⟩ as = some ⟨h', .reporting (cs.map Versioned.Row.id)⟩ ∧
      Comes (cs.map Versioned.Row.id) [] h'.apps := by
  have hm := Apps.mapM_fromConfig "sha256:1" (cs.map itemOf)
  have hpulled := Apps.pulled_step false h hm
  have hcomes := Apps.comes_reconcile h hm
  rw [List.map_map, List.map_map] at hpulled hcomes
  obtain ⟨as, h', hsmooth, hr, hcomes⟩ := Apps.exists_reporting _ _ h.sorted hcomes
  refine ⟨.pulled _ :: as, h', fun a ha => ?_, (Runs.run_cons_eq_some ..).2 ⟨_, hpulled, hr⟩, hcomes⟩
  rcases List.mem_cons.1 ha with rfl | ha
  · rfl
  · exact hsmooth a ha

/-- **A device that is there reports what it holds**, and is done with its cycle. -/
theorem brings_put {n : Nat} {g : Fleet} (hn : n ≤ g.requests.length) {d : DeviceModel}
    (hd : g.store.devices.getDeviceByUuid (uuid k) = some d) (hstored : g.Stored be) (h : Apps.Host) {ids : List Int}
    (hids : ∀ id ∈ ids, id ∈ g.store.configIds) (hleft : HasIds g.store ids.length) :
    ∃ g' : Fleet, Brings be uuid k n (g.goTo k ⟨h, .reporting ids⟩) (g'.goTo k ⟨h, .tick⟩) ∧
      g'.store.db = g.store.db ∧ ∀ id ∈ ids, (d.id, id) ∈ reportedKeys g'.store := by
  obtain ⟨hdmem, -⟩ := g.store.devices.getDeviceByUuid_eq_some (uuid k) d hd
  obtain ⟨s, hrep, hdb, -, hkeys⟩ :=
    brings_reporting hn g ⟨h, .reporting ids⟩ d ids g.store hstored hids (List.mem_map_of_mem hdmem) hleft
  refine ⟨g.after k ⟨h, .pruning⟩ s g.requests .created, ?_, hdb, hkeys⟩
  refine .trans (.one (step_authenticate hd rfl) rfl) (.trans hrep ?_)
  refine .trans (.one (step_answer rfl rfl) rfl) (.one (a := .app k false (.pruned (.ok ()))) ?_ ⟨rfl, rfl, rfl⟩)
  rw [after_eq_goTo]
  simp only [step, own, if_true, goTo_self]
  rw [show (AppLoop.mk h .pruning).step false (.pruned (.ok ())) = some ⟨h, .tick⟩ from rfl, Option.map_some, goTo_goTo]

end

end ZeroDowntime
