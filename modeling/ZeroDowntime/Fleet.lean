import Mathlib.Logic.Function.Basic
import ZeroDowntime.AppReports
import ZeroDowntime.DeviceApps
import ZeroDowntime.Past
/-!
# Fleet — the devices' application loops and the API's store

Each device runs its loop, and its requests run at the API statement by statement among those of the others and among all
other calls.  A loop may give up on a request that the API goes on with, and a process may start anew at any moment.  What
a device holds was deployed to it at some moment (`held_deployed`), and what the API shows as reported was held
(`reported_held`).
-/
namespace ZeroDowntime

open Api (Store StoreCall AppsRequest Backend DeviceModel Reported itemOf)
open Apps (AppLoop AppAction Container)
open Runs (run Once Took)

/-- A device, and the request its loop waits for. -/
structure Client where
  loop : AppLoop
  awaits : Option Nat

structure Fleet where
  store : Store
  /-- The requests so far, with the devices that sent them. -/
  requests : List (Nat × AppsRequest)
  clients : Nat → Client

inductive FleetAction
  /-- A call of a user, or of a device at another endpoint. -/
  | call (c : StoreCall)
  /-- The request a loop is about to make arrives, and the device of its token is found. -/
  | authenticate (k : Nat)
  | statement (i : Nat) (now : Int)
  | fail (i : Nat)
  /-- A loop gets the answer it waits for. -/
  | answer (k : Nat)
  | app (k : Nat) (osUpgradeInProgress : Bool) (a : AppAction)
  | restart (k : Nat)

/-- The request a loop that waits for none is at, by the device it comes from. -/
def Client.request? (c : Client) (d : DeviceModel) : Option AppsRequest :=
  match c.loop.task, c.awaits with
  | .fetching, none => some (.listing d)
  | .reporting ids, none => some (.reporting d ids)
  | _, _ => none

/-- What an answered request is to the loop.  A status of 500 is a failure of its own (`own`). -/
def answerOf : AppsRequest → Option AppAction
  | .served _ answer => some (.fetched (.ok answer))
  | .created => some (.reported (.ok ()))
  | _ => none

/-- The steps a loop takes on its own, with what podman answers and with requests that fail. -/
def own : AppAction → Bool
  | .fetched (.ok _) => false
  | .reported (.ok _) => false
  | _ => true

/-- Only `PUT /device/apps` reports applications. -/
def reports : StoreCall → Bool
  | .addReportedApplicationAssignment _ _ _ => true
  | _ => false

namespace Fleet

def start (found : Nat → List Container) : Fleet where
  store := .empty
  requests := []
  clients := fun k => ⟨⟨.start (found k), .tick⟩, none⟩

/-- The loop of device `k`, which waits for nothing. -/
def goTo (f : Fleet) (k : Nat) (l : AppLoop) : Fleet := { f with clients := Function.update f.clients k ⟨l, none⟩ }

/-- `uuid k` is the `sub` of the tokens of device `k`. -/
def step (be : Backend) (uuid : Nat → String) (f : Fleet) : FleetAction → Option Fleet
  | .call c => if reports c then none else some { f with store := f.store.exec be c }
  | .authenticate k =>
    (f.store.devices.getDeviceByUuid (uuid k)).bind fun d => ((f.clients k).request? d).map fun r =>
      { f with
        requests := f.requests ++ [(k, r)]
        clients := Function.update f.clients k ⟨(f.clients k).loop, some f.requests.length⟩ }
  | .statement i now => f.requests[i]?.bind fun p => (p.2.statement be now f.store).map fun r =>
      { f with store := r.2, requests := f.requests.set i (p.1, r.1) }
  | .fail i => f.requests[i]?.bind fun p => p.2.fail.map fun r => { f with requests := f.requests.set i (p.1, r) }
  | .answer k => (f.clients k).awaits.bind fun i => f.requests[i]?.bind fun p => (answerOf p.2).bind fun a =>
      ((f.clients k).loop.step false a).map (f.goTo k)
  | .app k osUpgradeInProgress a =>
    if own a then ((f.clients k).loop.step osUpgradeInProgress a).map (f.goTo k) else none
  | .restart k => some (f.goTo k (f.clients k).loop.restarted)

end Fleet

section

variable {be : Backend} {uuid : Nat → String} {found : Nat → List Container} {f f' : Fleet} {as : List FleetAction}

open Fleet (step)

/-- What a step is. -/
inductive Stepped (be : Backend) (uuid : Nat → String) (f : Fleet) : FleetAction → Fleet → Prop
  | called {c : StoreCall} (hc : reports c = false) : Stepped be uuid f (.call c) { f with store := f.store.exec be c }
  | authenticated {k : Nat} {d : DeviceModel} {r : AppsRequest} (hd : f.store.devices.getDeviceByUuid (uuid k) = some d)
      (hr : (f.clients k).request? d = some r) :
      Stepped be uuid f (.authenticate k)
        { f with
          requests := f.requests ++ [(k, r)]
          clients := Function.update f.clients k ⟨(f.clients k).loop, some f.requests.length⟩ }
  | executed {i k : Nat} {now : Int} {r r' : AppsRequest} {s' : Store} (hp : f.requests[i]? = some (k, r))
      (hst : r.statement be now f.store = some (r', s')) :
      Stepped be uuid f (.statement i now) { f with store := s', requests := f.requests.set i (k, r') }
  | failed {i k : Nat} {r : AppsRequest} (hp : f.requests[i]? = some (k, r)) :
      Stepped be uuid f (.fail i) { f with requests := f.requests.set i (k, .failed) }
  | answered {k i k' : Nat} {r : AppsRequest} {b : AppAction} {l : AppLoop} (hi : (f.clients k).awaits = some i)
      (hp : f.requests[i]? = some (k', r)) (hb : answerOf r = some b) (hl : (f.clients k).loop.step false b = some l) :
      Stepped be uuid f (.answer k) (f.goTo k l)
  | moved {k : Nat} {frozen : Bool} {b : AppAction} {l : AppLoop} (hb : own b = true)
      (hl : (f.clients k).loop.step frozen b = some l) : Stepped be uuid f (.app k frozen b) (f.goTo k l)
  | restarted {k : Nat} : Stepped be uuid f (.restart k) (f.goTo k (f.clients k).loop.restarted)

theorem stepped_of_step {a : FleetAction} (hs : step be uuid f a = some f') : Stepped be uuid f a f' := by
  cases a with
  | call c =>
    simp only [step] at hs
    split at hs
    · cases hs
    · rename_i hc
      exact Option.some.inj hs ▸ .called (Bool.eq_false_iff.2 hc)
  | authenticate k =>
    obtain ⟨d, hd, hs⟩ := Option.bind_eq_some_iff.1 hs
    obtain ⟨r, hr, rfl⟩ := Option.map_eq_some_iff.1 hs
    exact .authenticated hd hr
  | statement i now =>
    obtain ⟨p, hp, hs⟩ := Option.bind_eq_some_iff.1 hs
    obtain ⟨r, hst, rfl⟩ := Option.map_eq_some_iff.1 hs
    exact .executed hp hst
  | fail i =>
    obtain ⟨p, hp, hs⟩ := Option.bind_eq_some_iff.1 hs
    obtain ⟨r, hfail, rfl⟩ := Option.map_eq_some_iff.1 hs
    obtain rfl : r = .failed := by
      unfold AppsRequest.fail at hfail
      split at hfail
      · exact (Option.some.inj hfail).symm
      · exact (Option.some.inj hfail).symm
      · exact (Option.some.inj hfail).symm
      · exact (Option.some.inj hfail).symm
      · cases hfail
    exact .failed hp
  | answer k =>
    obtain ⟨i, hi, hs⟩ := Option.bind_eq_some_iff.1 hs
    obtain ⟨p, hp, hs⟩ := Option.bind_eq_some_iff.1 hs
    obtain ⟨b, hb, hs⟩ := Option.bind_eq_some_iff.1 hs
    obtain ⟨l, hl, rfl⟩ := Option.map_eq_some_iff.1 hs
    exact .answered hi hp hb hl
  | app k frozen a =>
    simp only [step] at hs
    split at hs
    · rename_i hb
      obtain ⟨l, hl, rfl⟩ := Option.map_eq_some_iff.1 hs
      exact .moved hb hl
    · cases hs
  | restart k => exact Option.some.inj hs ▸ .restarted

/-! ## The store -/

theorem step_store {a : FleetAction} (hs : step be uuid f a = some f') : f'.store = f.store ∨
    (∃ c, reports c = false ∧ f'.store = f.store.exec be c) ∨
    ∃ k d id ids now, (k, AppsRequest.reporting d (id :: ids)) ∈ f.requests ∧
      f'.store = f.store.exec be (.addReportedApplicationAssignment id d.id now) := by
  cases stepped_of_step hs with
  | called hc => exact .inr (.inl ⟨_, hc, rfl⟩)
  | authenticated hd hr => exact .inl rfl
  | executed hp hst =>
    rcases Api.statement_store hst with rfl | ⟨d, id, ids, rfl, rfl⟩
    · exact .inl rfl
    · exact .inr (.inr ⟨_, d, id, ids, _, List.mem_of_getElem? hp, rfl⟩)
  | failed hp => exact .inl rfl
  | answered hi hp hb hl => exact .inl rfl
  | moved hb hl => exact .inl rfl
  | restarted => exact .inl rfl

/-- The store comes from a sequence of calls. -/
def Fleet.Stored (be : Backend) (f : Fleet) : Prop := ∃ calls, f.store = Store.stored be calls

/-- `f'` is at or after `f`, as far as the store goes. -/
def Fleet.Later (be : Backend) (f f' : Fleet) : Prop :=
  ∀ calls, f.store = Store.stored be calls → ∃ calls', f'.store = Store.stored be (calls ++ calls')

theorem Fleet.Later.refl (f : Fleet) : f.Later be f := fun calls h => ⟨[], h.trans (by rw [List.append_nil])⟩

theorem Fleet.Later.trans {f'' : Fleet} (h : f.Later be f') (h' : f'.Later be f'') : f.Later be f'' := fun calls hf => by
  obtain ⟨calls', hf'⟩ := h calls hf
  obtain ⟨calls'', hf''⟩ := h' _ hf'
  exact ⟨calls' ++ calls'', by rw [hf'', List.append_assoc]⟩

theorem later_step {a : FleetAction} (hs : step be uuid f a = some f') : f.Later be f' := fun calls hf => by
  have hexec : ∀ c, f.store.exec be c = Store.stored be (calls ++ [c]) := fun c => by
    rw [hf, Store.stored, Store.stored, Store.run_append]
    rfl
  rcases step_store hs with h | ⟨c, -, h⟩ | ⟨k, d, id, ids, now, -, h⟩
  · exact ⟨[], by rw [h, hf, List.append_nil]⟩
  · exact ⟨[c], h.trans (hexec c)⟩
  · exact ⟨_, h.trans (hexec _)⟩

theorem Fleet.Later.stored (h : f.Later be f') (hf : f.Stored be) : f'.Stored be := by
  obtain ⟨calls, hf⟩ := hf
  obtain ⟨calls', hf'⟩ := h calls hf
  exact ⟨_, hf'⟩

theorem Fleet.Later.grows (h : f.Later be f') (hf : f.Stored be) : f.store.db.Grows f'.store.db := by
  obtain ⟨calls, hf⟩ := hf
  obtain ⟨calls', hf'⟩ := h calls hf
  rw [hf, hf']
  exact Store.stored_grows be calls calls'

theorem Fleet.Stored.integral (h : f.Stored be) : f.store.Integral := by
  obtain ⟨calls, h⟩ := h
  exact h ▸ Store.stored_integral be calls

/-! ## What is known of the past -/

/-- `P` held at some moment of the run. -/
def Was (be : Backend) (uuid : Nat → String) (found : Nat → List Container) (as : List FleetAction) (P : Fleet → Prop) :
    Prop := Once (step be uuid) (.start found) P as

/-- Device `k` was found as `d`, and at some moment the item's config was deployed to it. -/
def Told (be : Backend) (uuid : Nat → String) (found : Nat → List Container) (as : List FleetAction) (k : Nat)
    (item : AppsGetResponseItem) : Prop :=
  ∃ d, Was be uuid found as (fun f => f.store.devices.getDeviceByUuid (uuid k) = some d) ∧
    Was be uuid found as (fun f => f.Stored be ∧ ∃ c, f.store.db.Deployed d c ∧ item = itemOf c)

/-- Device `k` is found as `d` and holds an application of config `id`. -/
def Holds (uuid : Nat → String) (k : Nat) (d : DeviceModel) (id : Int) (f : Fleet) : Prop :=
  f.store.devices.getDeviceByUuid (uuid k) = some d ∧
    ∃ a ∈ (f.clients k).loop.host.apps, a.applicationConfigId = some id

/-- Request `i` arrives from device `k`, which is found as `d`. -/
def Arrives (uuid : Nat → String) (i k : Nat) (d : DeviceModel) (f : Fleet) (a : FleetAction) : Prop :=
  f.requests.length = i ∧ a = .authenticate k ∧ f.store.devices.getDeviceByUuid (uuid k) = some d

/-- The statement of request `i` of device `k` that lists the assignments of `d`. -/
def Lists (i k : Nat) (d : DeviceModel) (f : Fleet) (a : FleetAction) : Prop :=
  f.requests[i]? = some (k, .listing d) ∧ ∃ now, a = .statement i now

/-- What is known of request `i`, from device `k`. -/
structure RequestSound (be : Backend) (uuid : Nat → String) (found : Nat → List Container) (as : List FleetAction)
    (f : Fleet) (i k : Nat) (r : AppsRequest) : Prop where
  device : ∀ d, r.device? = some d → Took (Fleet.step be uuid) (.start found) (Arrives uuid i k d) as
  serves : ∀ d, r.listed? = some d → Took (Fleet.step be uuid) (.start found)
    (fun f₁ a => Lists i k d f₁ a ∧ f₁.Stored be ∧ r.Serves be.nullOrder f₁.store.db f.store.db) as
  reports : ∀ d ids, r = .reporting d ids → ∀ id ∈ ids,
    (∃ item, Told be uuid found as k item ∧ item.id = id) ∧ Was be uuid found as (Holds uuid k d id)

structure Fleet.Sound (be : Backend) (uuid : Nat → String) (found : Nat → List Container) (as : List FleetAction)
    (f : Fleet) : Prop where
  stored : f.Stored be
  requests : ∀ i p, f.requests[i]? = some p → RequestSound be uuid found as f i p.1 p.2
  loops : ∀ k, (f.clients k).loop.All (found k) (Told be uuid found as k)
  exact : ∀ k, (f.clients k).loop.Exact
  awaits : ∀ k i p, (f.clients k).awaits = some i → f.requests[i]? = some p → p.1 = k
  bound : ∀ k i, (f.clients k).awaits = some i → i < f.requests.length
  reported : ∀ r ∈ f.store.reportedApplicationAssignments.rows, ∃ k d, d.id = r.deviceId ∧
    Was be uuid found as (Holds uuid k d r.reported)

theorem Was.later {P : Fleet → Prop} (h : Was be uuid found as P) (a : FleetAction) : Was be uuid found (as ++ [a]) P :=
  Once.later h [a]

theorem Told.later {k : Nat} {item : AppsGetResponseItem} (h : Told be uuid found as k item) (a : FleetAction) :
    Told be uuid found (as ++ [a]) k item := by
  obtain ⟨d, hd, hc⟩ := h
  exact ⟨d, hd.later a, hc.later a⟩

/-- What holds of a moment and now, holds of it and of what comes later. -/
theorem Was.carry {P Q : Fleet → Prop} (hr : run (step be uuid) (.start found) as = some f) (h : Was be uuid found as P)
    (hq : ∀ f₁, P f₁ → f₁.Later be f → Q f₁) : Was be uuid found as Q :=
  Once.carry Fleet.Later.refl (fun _ _ _ => Fleet.Later.trans) (fun _ _ _ => later_step) hr h hq

theorem took_carry {P Q : Fleet → FleetAction → Prop} (hr : run (step be uuid) (.start found) as = some f)
    (h : Took (step be uuid) (.start found) P as) (hq : ∀ f₁ a, P f₁ a → f₁.Later be f → Q f₁ a) :
    Took (step be uuid) (.start found) Q as :=
  Took.carry Fleet.Later.refl (fun _ _ _ => Fleet.Later.trans) (fun _ _ _ => later_step) hr h hq

theorem RequestSound.later {i k : Nat} {r : AppsRequest} {a : FleetAction} (h : RequestSound be uuid found as f i k r)
    (hr : run (step be uuid) (.start found) as = some f) (hs : step be uuid f a = some f') :
    RequestSound be uuid found (as ++ [a]) f' i k r where
  device := fun d hd => (h.device d hd).later [a]
  serves := fun d hd => by
    refine (took_carry hr (h.serves d hd) (fun f₁ b hf₁ hl => ⟨hf₁.1, hf₁.2.1, ?_⟩)).later [a]
    exact hf₁.2.2.later (Api.configsThere hf₁.2.1.integral) (hl.grows hf₁.2.1)
      ((later_step hs).grows (hl.stored hf₁.2.1))
  reports := fun d ids heq id hid => by
    obtain ⟨⟨item, ht, hi⟩, hh⟩ := h.reports d ids heq id hid
    exact ⟨⟨item, ht.later a, hi⟩, hh.later a⟩

/-! ## The steps -/

theorem reported_exec {s : Store} {c : StoreCall} (hc : reports c = false) :
    ∀ r ∈ (s.exec be c).reportedApplicationAssignments.rows, r ∈ s.reportedApplicationAssignments.rows := by
  cases c with
  | addReportedApplicationAssignment id d now => cases hc
  | deleteReportedApplicationAssignment id => exact fun r hr => (Store.rows_deleteRow _ id _).subset hr
  | versioned c => cases c <;> exact fun _ h => h
  | _ => exact fun _ h => h

theorem Fleet.Sound.reported_step {a : FleetAction} (h : f.Sound be uuid found as) (hs : step be uuid f a = some f') :
    ∀ r ∈ f'.store.reportedApplicationAssignments.rows, ∃ k d, d.id = r.deviceId ∧
      Was be uuid found (as ++ [a]) (Holds uuid k d r.reported) := by
  have hold : ∀ r₀ ∈ f.store.reportedApplicationAssignments.rows, ∀ r : Reported, r₀.key = r.key → ∃ k d,
      d.id = r.deviceId ∧ Was be uuid found (as ++ [a]) (Holds uuid k d r.reported) := fun r₀ h₀ r hk => by
    obtain ⟨k, d, hd, hw⟩ := h.reported r₀ h₀
    obtain ⟨hdev, hrep⟩ := Prod.mk.inj hk
    exact ⟨k, d, hd.trans hdev, hrep ▸ hw.later a⟩
  intro r hr
  rcases step_store hs with heq | ⟨c, hc, heq⟩ | ⟨k, d, id, ids, now, hp, heq⟩
  · exact hold r (heq ▸ hr) r rfl
  · exact hold r (reported_exec hc r (heq ▸ hr)) r rfl
  · rcases Api.mem_exec_addReported (heq ▸ hr) with ⟨r₀, h₀, hk⟩ | hk
    · exact hold r₀ h₀ r hk
    · obtain ⟨hdev, hrep⟩ := Prod.mk.inj hk
      obtain ⟨i, hi⟩ := List.getElem?_of_mem hp
      have hw := (((h.requests i _ hi).reports d _ rfl) id List.mem_cons_self).2
      exact ⟨k, d, hdev.symm, show Was be uuid found (as ++ [a]) (Holds uuid k d r.reported) from hrep ▸ hw.later a⟩

/-- The request of a loop that is at one, as it arrives. -/
theorem Fleet.Sound.requested {k : Nat} {d : DeviceModel} {r : AppsRequest} (h : f.Sound be uuid found as)
    (hr : run (step be uuid) (.start found) as = some f) (hd : f.store.devices.getDeviceByUuid (uuid k) = some d)
    (hreq : (f.clients k).request? d = some r) :
    RequestSound be uuid found (as ++ [.authenticate k]) f' f.requests.length k r := by
  have hnow : Took (step be uuid) (.start found) (Arrives uuid f.requests.length k d) (as ++ [.authenticate k]) :=
    .now hr ⟨rfl, rfl, hd⟩
  unfold Client.request? at hreq
  split at hreq
  · obtain rfl := Option.some.inj hreq
    exact ⟨fun d' hd' => Option.some.inj hd' ▸ hnow, fun _ h => (by cases h), fun _ _ heq => by cases heq⟩
  · rename_i ids ht _
    obtain rfl := Option.some.inj hreq
    refine ⟨fun d' hd' => Option.some.inj hd' ▸ hnow, fun _ h => (by cases h), fun d' ids' heq id hid => ?_⟩
    cases heq
    have htask := (h.loops k).task
    rw [ht] at htask
    have hperm := (h.exact k).reported ht
    obtain ⟨a, ha, haid⟩ := List.mem_map.1 (hperm.symm.subset (List.mem_map_of_mem (f := some) hid))
    obtain ⟨item, htold, hitem⟩ := htask id hid
    exact ⟨⟨item, htold.later _, hitem⟩, Was.later (Once.now hr ⟨hd, a, ha, haid⟩) _⟩
  · cases hreq

/-- **A statement keeps what the request knows**, and the first of a `GET` is its listing. -/
theorem RequestSound.statement {i k : Nat} {r r' : AppsRequest} {now : Int} {s' : Store}
    (h : RequestSound be uuid found as f i k r) (hp : f.requests[i]? = some (k, r)) (hstored : f.Stored be)
    (hr : run (step be uuid) (.start found) as = some f) (hst : r.statement be now f.store = some (r', s'))
    (hs : step be uuid f (.statement i now) = some f') :
    RequestSound be uuid found (as ++ [.statement i now]) f' i k r' := by
  obtain ⟨hdev, hrep⟩ := Api.statement_device hst
  have hgrows := (later_step hs).grows hstored
  refine ⟨fun d hd => (h.device d (hdev d hd)).later _, fun d hd => ?_, fun d ids heq id hid => ?_⟩
  · rcases Api.serves_statement hst hd with ⟨rfl, hfirst⟩ | ⟨hlisted, hserves⟩
    · exact .now hr ⟨⟨hp, now, rfl⟩, hstored, hfirst.later (Api.configsThere hstored.integral) (.refl _) hgrows⟩
    · refine (took_carry hr (h.serves d hlisted) (fun f₁ b hf₁ hl => ⟨hf₁.1, hf₁.2.1, ?_⟩)).later _
      have hfk := Api.configsThere hf₁.2.1.integral
      exact (hserves _ hfk (hl.grows hf₁.2.1) hf₁.2.2).later hfk (hl.grows hf₁.2.1) hgrows
  · obtain ⟨id₀, rfl⟩ := hrep d ids heq
    obtain ⟨⟨item, ht, hi⟩, hh⟩ := h.reports d (id₀ :: ids) rfl id (List.mem_cons_of_mem _ hid)
    exact ⟨⟨item, ht.later _, hi⟩, hh.later _⟩

theorem Fleet.Sound.requests_step {a : FleetAction} (h : f.Sound be uuid found as)
    (hr : run (step be uuid) (.start found) as = some f) (hs : step be uuid f a = some f') :
    ∀ i p, f'.requests[i]? = some p → RequestSound be uuid found (as ++ [a]) f' i p.1 p.2 := by
  have hold : ∀ i p, f.requests[i]? = some p → RequestSound be uuid found (as ++ [a]) f' i p.1 p.2 :=
    fun i p hp => (h.requests i p hp).later hr hs
  have hset : ∀ (j : Nat) (q q' : Nat × AppsRequest), f.requests[j]? = some q →
      RequestSound be uuid found (as ++ [a]) f' j q'.1 q'.2 → ∀ i p, (f.requests.set j q')[i]? = some p →
      RequestSound be uuid found (as ++ [a]) f' i p.1 p.2 := fun j q q' hj hq i p hp => by
    rw [Arrivals.getElem?_set f.requests j i q q' hj] at hp
    split at hp
    · rename_i hji
      obtain rfl := Option.some.inj hp
      exact hji ▸ hq
    · exact hold i p hp
  cases stepped_of_step hs with
  | called hc => exact hold
  | @authenticated k d r hd hreq =>
    intro i p hp
    rcases Arrivals.of_concat hp with hp | ⟨rfl, rfl⟩
    · exact hold i p hp
    · exact h.requested hr hd hreq
  | executed hp hst => exact hset _ _ _ hp ((h.requests _ _ hp).statement hp h.stored hr hst hs)
  | failed hp =>
    exact hset _ _ _ hp ⟨fun _ hd => (by cases hd), fun _ hd => (by cases hd), fun _ _ heq => (by cases heq)⟩
  | answered hi hp hb hl => exact hold
  | moved hb hl => exact hold
  | restarted => exact hold

theorem goTo_self (f : Fleet) (k : Nat) (l : AppLoop) : (f.goTo k l).clients k = ⟨l, none⟩ := Function.update_self ..

theorem goTo_other (f : Fleet) {k k' : Nat} (l : AppLoop) (h : k' ≠ k) : (f.goTo k l).clients k' = f.clients k' :=
  Function.update_of_ne h ..

/-- **What an answer brings was deployed to the device.** -/
theorem Fleet.Sound.told {k i k' : Nat} {r : AppsRequest} (h : f.Sound be uuid found as) (hi : (f.clients k).awaits = some i)
    (hp : f.requests[i]? = some (k', r)) {configs : List AppsGetResponseItem}
    (hb : answerOf r = some (.fetched (.ok configs))) : ∀ item ∈ configs, Told be uuid found as k item := by
  obtain rfl : k' = k := h.awaits k i _ hi hp
  have hreq := h.requests i _ hp
  cases r with
  | served d answer =>
    obtain rfl : answer = configs := by
      simp only [answerOf, Option.some.injEq, Apps.AppAction.fetched.injEq, Except.ok.injEq] at hb
      exact hb
    refine fun item hitem => ⟨d, (hreq.device d rfl).once.imp (fun f₁ hf₁ => hf₁.elim (fun _ hf₁ => hf₁.2.2)),
      (hreq.serves d rfl).once.imp (fun f₁ hf₁ => ?_)⟩
    obtain ⟨-, -, hstored, cs, hanswer, hg⟩ := hf₁
    refine ⟨hstored, ?_⟩
    obtain ⟨c, hc, rfl⟩ := List.mem_map.1 (hanswer ▸ hitem)
    exact ⟨c, hg.deployed c hc, rfl⟩
  | created =>
    simp only [answerOf, Option.some.injEq] at hb
    cases hb
  | _ => cases hb

theorem Fleet.Sound.loops_step {a : FleetAction} (h : f.Sound be uuid found as) (hs : step be uuid f a = some f') :
    ∀ k, (f'.clients k).loop.All (found k) (Told be uuid found (as ++ [a]) k) ∧ (f'.clients k).loop.Exact := by
  have hold : ∀ k, (f.clients k).loop.All (found k) (Told be uuid found (as ++ [a]) k) ∧ (f.clients k).loop.Exact :=
    fun k => ⟨(h.loops k).imp (fun _ ht => ht.later a), h.exact k⟩
  have hgo : ∀ (k : Nat) (l : AppLoop), l.All (found k) (Told be uuid found (as ++ [a]) k) → l.Exact → ∀ k',
      ((f.goTo k l).clients k').loop.All (found k') (Told be uuid found (as ++ [a]) k') ∧
        ((f.goTo k l).clients k').loop.Exact := fun k l hl he k' => by
    by_cases hk : k' = k
    · subst hk
      rw [goTo_self]
      exact ⟨hl, he⟩
    · rw [goTo_other f l hk]
      exact hold k'
  cases stepped_of_step hs with
  | called hc => exact hold
  | @authenticated k d r hd hreq =>
    intro k'
    by_cases hk : k' = k
    · subst hk
      simp only [Function.update_self]
      exact hold k'
    · simp only [Function.update_of_ne hk]
      exact hold k'
  | executed hp hst => exact hold
  | failed hp => exact hold
  | answered hi hp hb hl =>
    refine hgo _ _ (AppLoop.All.step (hold _).1 hl (fun configs heq => ?_)) (AppLoop.Exact.step (hold _).2 hl)
    subst heq
    exact fun item hitem => (h.told hi hp hb item hitem).later _
  | moved hb hl =>
    refine hgo _ _ (AppLoop.All.step (hold _).1 hl (fun configs heq => ?_)) (AppLoop.Exact.step (hold _).2 hl)
    subst heq
    cases hb
  | restarted => exact hgo _ _ (hold _).1.restarted trivial

theorem Fleet.Sound.awaits_step {a : FleetAction} (h : f.Sound be uuid found as) (hs : step be uuid f a = some f') :
    ∀ k i, (f'.clients k).awaits = some i → i < f'.requests.length ∧ ∀ p, f'.requests[i]? = some p → p.1 = k := by
  have hold : ∀ k i, (f.clients k).awaits = some i → i < f.requests.length ∧ ∀ p, f.requests[i]? = some p → p.1 = k :=
    fun k i hi => ⟨h.bound k i hi, fun p hp => h.awaits k i p hi hp⟩
  have hset : ∀ (j k₀ : Nat) (r r' : AppsRequest), f.requests[j]? = some (k₀, r) → ∀ k i, (f.clients k).awaits = some i →
      i < (f.requests.set j (k₀, r')).length ∧ ∀ p, (f.requests.set j (k₀, r'))[i]? = some p → p.1 = k :=
    fun j k₀ r r' hj k i hi => by
      obtain ⟨hlt, hown⟩ := hold k i hi
      refine ⟨by rwa [List.length_set], fun p hp => ?_⟩
      rw [Arrivals.getElem?_set f.requests j i _ _ hj] at hp
      split at hp
      · rename_i hji
        subst hji
        obtain rfl := Option.some.inj hp
        exact hown (k₀, r) hj
      · exact hown p hp
  have hgo : ∀ (k : Nat) (l : AppLoop), ∀ k' i, ((f.goTo k l).clients k').awaits = some i →
      i < f.requests.length ∧ ∀ p, f.requests[i]? = some p → p.1 = k' := fun k l k' i hi => by
    by_cases hk : k' = k
    · subst hk
      rw [goTo_self] at hi
      cases hi
    · rw [goTo_other f l hk] at hi
      exact hold k' i hi
  cases stepped_of_step hs with
  | called hc => exact hold
  | @authenticated k d r hd hreq =>
    intro k' i hi
    by_cases hk : k' = k
    · subst hk
      simp only [Function.update_self, Option.some.injEq] at hi
      subst hi
      exact ⟨by simp, fun p hp => by simp at hp; exact hp ▸ rfl⟩
    · simp only [Function.update_of_ne hk] at hi
      obtain ⟨hlt, hown⟩ := hold k' i hi
      refine ⟨Nat.lt_of_lt_of_le hlt (by simp), fun p hp => hown p ?_⟩
      rwa [List.getElem?_append_left hlt] at hp
  | executed hp hst => exact hset _ _ _ _ hp
  | failed hp => exact hset _ _ _ _ hp
  | answered hi hp hb hl => exact hgo _ _
  | moved hb hl => exact hgo _ _
  | restarted => exact hgo _ _

theorem sound_start (be : Backend) (uuid : Nat → String) (found : Nat → List Container) :
    (Fleet.start found).Sound be uuid found [] where
  stored := ⟨[], rfl⟩
  requests := fun _ _ h => by cases h
  loops := fun k => Apps.all_start (found k) _
  exact := fun _ => trivial
  awaits := fun _ _ _ h => by cases h
  bound := fun _ _ h => by cases h
  reported := fun _ h => absurd h List.not_mem_nil

theorem Fleet.Sound.step {a : FleetAction} (h : f.Sound be uuid found as)
    (hr : run (Fleet.step be uuid) (.start found) as = some f) (hs : Fleet.step be uuid f a = some f') :
    f'.Sound be uuid found (as ++ [a]) where
  stored := (later_step hs).stored h.stored
  requests := h.requests_step hr hs
  loops := fun k => (h.loops_step hs k).1
  exact := fun k => (h.loops_step hs k).2
  awaits := fun k i p hi hp => (h.awaits_step hs k i hi).2 p hp
  bound := fun k i hi => (h.awaits_step hs k i hi).1
  reported := h.reported_step hs

theorem run_sound (hr : run (step be uuid) (.start found) as = some f) : f.Sound be uuid found as :=
  Runs.run_past (I := fun as f => f.Sound be uuid found as) (sound_start be uuid found)
    (fun _ _ _ _ hr h hs => h.step hr hs) hr

end

/-! ## What holds of every run -/

/-- The moment in whose light `answer` is given: every item was deployed then, and no item is missing for an application
whose config has not been retired since. -/
structure AnsweredAt (no : Api.NullOrder) (d : DeviceModel) (answer : List AppsGetResponseItem) (now : Api.Db) (f : Fleet) :
    Prop where
  deployed : ∀ item ∈ answer, ∃ c, f.store.db.Deployed d c ∧ item = itemOf c
  complete : ∀ a w, f.store.db.AppWinner no d.id d.groupId a w →
    ∀ c, Api.getApplicationConfig w.data.applicationConfigId now = some c → itemOf c ∈ answer

/-- **A `GET /device/apps` is answered as of the moment it lists the assignments**, whatever other calls run between its
statements: the device is the one that is found as the request arrives, each item was deployed to it when the request's own
first statement listed its assignments, and an application of then is left out only if its config has been retired since.
No application comes twice. -/
theorem served_as_of (be : Backend) (uuid : Nat → String) (found : Nat → List Container) (as : List FleetAction) (f : Fleet)
    (hr : run (Fleet.step be uuid) (.start found) as = some f) (i k : Nat) (d : DeviceModel)
    (answer : List AppsGetResponseItem) (hp : f.requests[i]? = some (k, .served d answer)) :
    Took (Fleet.step be uuid) (.start found) (Arrives uuid i k d) as ∧
    Took (Fleet.step be uuid) (.start found)
      (fun f₁ a => Lists i k d f₁ a ∧ AnsweredAt be.nullOrder d answer f.store.db f₁) as ∧
    (answer.map AppsGetResponseItem.applicationId).Nodup := by
  have hreq := (run_sound hr).requests i _ hp
  refine ⟨hreq.device d rfl, (hreq.serves d rfl).imp (fun f₁ a hf₁ => ⟨hf₁.1, ?_⟩), ?_⟩
  · obtain ⟨-, -, configs, rfl, hg⟩ := hf₁
    refine ⟨fun item hitem => ?_, fun a w hw c hc => ?_⟩
    · obtain ⟨c, hc, rfl⟩ := List.mem_map.1 hitem
      exact ⟨c, hg.deployed c hc, rfl⟩
    · exact List.mem_map_of_mem ((hg.kept a w hw c hc).resolve_right List.not_mem_nil)
  · obtain ⟨_, _, _, f₁, -, -, -, -, configs, rfl, hg⟩ := hreq.serves d rfl
    have honce := hg.once
    rw [List.filterMap_nil, List.append_nil] at honce
    rw [List.map_map]
    exact honce

/-- Device "d1" is told application 1, whose assignment is deleted while the device pulls its image; it is about to report. -/
def untilReport : List FleetAction :=
  [.call (.addTenant "T" none), .call (.addDevice "d1" none "s1" 1 none), .call (.addApplication "App" "an app"),
    .call (.versioned (.addApplicationConfig (some 1) none 1 "registry/app:1" none)),
    .call (.versioned (.addApplicationAssignmentToDevice 1 1)), .app 0 false .tick, .authenticate 0, .statement 0 0,
    .statement 0 0, .statement 0 0, .statement 0 0, .answer 0, .call (.versioned (.deleteApplicationAssignment 9 1)),
    .app 0 false (.pulled (Apps.calm []).image), .app 0 false .start, .app 0 false (.created (.ok ())),
    .app 0 false .start, .authenticate 0]

def reportingFleet : Fleet :=
  (run (Fleet.step .postgres fun _ => "d1") (.start fun _ => []) untilReport).getD (.start fun _ => [])

theorem untilReport_run : run (Fleet.step .postgres fun _ => "d1") (.start fun _ => []) untilReport = some reportingFleet :=
  rfl

def reportedFleet : Fleet := (Fleet.step .postgres (fun _ => "d1") reportingFleet (.statement 1 7)).getD reportingFleet

theorem reported_run : run (Fleet.step .postgres fun _ => "d1") (.start fun _ => []) (untilReport ++ [.statement 1 7]) =
    some reportedFleet := rfl

def deviceOne : DeviceModel := ⟨1, "d1", none, "s1", 1, none⟩

theorem untilReport_served :
    Took (Fleet.step .postgres fun _ => "d1") (.start fun _ => []) (Arrives (fun _ => "d1") 0 0 deviceOne) untilReport ∧
    Took (Fleet.step .postgres fun _ => "d1") (.start fun _ => [])
      (fun f a => Lists 0 0 deviceOne f a ∧ AnsweredAt Backend.postgres.nullOrder deviceOne
        [⟨1, 1, "registry/app:1".toList, none⟩] reportingFleet.store.db f) untilReport ∧
    ([⟨1, 1, "registry/app:1".toList, none⟩].map AppsGetResponseItem.applicationId).Nodup :=
  served_as_of .postgres (fun _ => "d1") (fun _ => []) untilReport reportingFleet untilReport_run 0 0 deviceOne _ rfl

/-- **A device holds nothing but what it was found with and what was deployed to it**: for any other container there is a
config whose image, environment and ids it has, and a moment at which that config was active and assigned to the device or
its group. -/
theorem held_deployed (be : Backend) (uuid : Nat → String) (found : Nat → List Container) (as : List FleetAction) (f : Fleet)
    (hr : run (Fleet.step be uuid) (.start found) as = some f) (k : Nat) :
    (∀ c ∈ (f.clients k).loop.host.containers, Apps.Known (found k) (Told be uuid found as k) c) ∧
    ∀ a ∈ (f.clients k).loop.host.apps, ∃ c, Apps.Known (found k) (Told be uuid found as k) c ∧ a = .wrap c :=
  ⟨((run_sound hr).loops k).host.containers, ((run_sound hr).loops k).host.apps⟩

theorem untilReport_held : (reportingFleet.clients 0).loop.host.containers.map Container.applicationConfigId = [some 1] ∧
    ∀ c ∈ (reportingFleet.clients 0).loop.host.containers,
      Apps.Known [] (Told .postgres (fun _ => "d1") (fun _ => []) untilReport 0) c :=
  ⟨rfl, (held_deployed .postgres (fun _ => "d1") (fun _ => []) untilReport reportingFleet untilReport_run 0).1⟩

/-- **What the API shows as reported was held**: at some moment a device that was found under the id of the row held an
application of the reported config. -/
theorem reported_held (be : Backend) (uuid : Nat → String) (found : Nat → List Container) (as : List FleetAction) (f : Fleet)
    (hr : run (Fleet.step be uuid) (.start found) as = some f) (r : Reported)
    (hmem : r ∈ f.store.reportedApplicationAssignments.rows) : ∃ k d, d.id = r.deviceId ∧
      Once (Fleet.step be uuid) (.start found) (Holds uuid k d r.reported) as :=
  (run_sound hr).reported r hmem

theorem reported_held_one : ∃ k d, d.id = 1 ∧
    Once (Fleet.step .postgres fun _ => "d1") (.start fun _ => []) (Holds (fun _ => "d1") k d 1)
      (untilReport ++ [.statement 1 7]) :=
  reported_held .postgres (fun _ => "d1") (fun _ => []) _ reportedFleet reported_run ⟨1, 1, 1, 7⟩ List.mem_cons_self

/-- **A report is refused only if the device's row has gone**, or where the ids of the table are used up: its configs are
never gone, since rows of configs are only ever marked. -/
theorem report_accepted_iff (be : Backend) (uuid : Nat → String) (found : Nat → List Container) (as : List FleetAction)
    (f : Fleet) (hr : run (Fleet.step be uuid) (.start found) as = some f) (k : Nat) (d : DeviceModel) (id : Int)
    (ids : List Int) (hp : (k, .reporting d (id :: ids)) ∈ f.requests) (now : Int) :
    (f.store.addReportedApplicationAssignment be id d.id now).1 = .ok () ↔
      d.id ∈ f.store.devices.keys ∧ f.store.reportedApplicationAssignments.next < Versioned.idLimit := by
  have h := run_sound hr
  obtain ⟨i, hi⟩ := List.getElem?_of_mem hp
  obtain ⟨⟨item, ⟨d', -, htold⟩, rfl⟩, -⟩ := (h.requests i _ hi).reports d (id :: ids) rfl id List.mem_cons_self
  refine Api.addReported_ok_iff h.stored.integral ?_
  obtain ⟨_, _, f₁, -, -, ⟨c, hc, rfl⟩, hgrows⟩ := Was.carry (Q := fun f₁ =>
    (∃ c, f₁.store.db.Deployed d' c ∧ item = itemOf c) ∧ f₁.store.db.Grows f.store.db) hr htold
    (fun f₁ hf₁ hl => ⟨hf₁.2, hl.grows hf₁.1⟩)
  obtain ⟨c', hc', hl⟩ := hgrows.applicationConfigs c hc.1
  exact List.mem_map.2 ⟨c', hc', hl.id⟩

theorem report_accepted_one : (reportingFleet.store.addReportedApplicationAssignment .postgres 1 1 7).1 = .ok () ↔
    1 ∈ reportingFleet.store.devices.keys ∧
      reportingFleet.store.reportedApplicationAssignments.next < Versioned.idLimit :=
  report_accepted_iff .postgres (fun _ => "d1") (fun _ => []) untilReport reportingFleet untilReport_run 0 deviceOne 1 []
    (List.mem_cons_of_mem _ List.mem_cons_self) 7

end ZeroDowntime
