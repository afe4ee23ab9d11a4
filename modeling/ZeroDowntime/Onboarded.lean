import ZeroDowntime.Onboarding
/-!
# Onboarded — a device registers once, and is served then

Several tasks of a device may be answered with 418 and each post a registration.  As long as nobody removes the device, one
of these at most is answered with 201 (`registered_once`).  A device that waits for its registration gets from the first
418 to an answer (`onboards`).
-/
namespace ZeroDowntime
namespace Onboarding

open Api (Outcomes Devices DeviceModel ClientDevice StatusCode)
open Api.Register (PostBody Phase Admission PendingDeviceRegistration statusOf)
open Jwt (Token Device asSecs second createSignedJwt)
open Runs (run Along)

/-! ## What a statement of a registration does -/

/-- The body a request still has to work with. -/
def body? : Phase → Option PostBody
  | .searching body | .adding body _ | .deleting body _ => some body
  | .done _ | .dropped => none

/-- Only a request that has inserted its device is answered with 201. -/
def inserted : Phase → Bool
  | .deleting _ _ | .done .created => true
  | _ => false

/-- What a statement changes of the devices, the requests and the record of insertions. -/
inductive Served (s : Api.Register.State) : Api.Register.Action → Api.Register.State → Prop
  | posted {body : PostBody} {ph : Phase} {s' : Api.Register.State} (hph : ∀ b, body? ph = some b → b = body)
      (hnot : inserted ph = false) (hreq : s'.requests = s.requests ++ [ph]) (hdev : s'.devices = s.devices)
      (hadm : s'.admitted = s.admitted) : Served s (.post body) s'
  | moved {a : Api.Register.Action} {r : Nat} {old new : Phase} {s' : Api.Register.State}
      (hr : s.requests[r]? = some old) (hbody : ∀ b, body? new = some b → body? old = some b)
      (hins : inserted new = true → inserted old = true) (hreq : s'.requests = s.requests.set r new)
      (hdev : s'.devices = s.devices) (hadm : s'.admitted = s.admitted) : Served s a s'
  | added {r : Nat} {body : PostBody} {active : PendingDeviceRegistration} {present : Bool} {d : DeviceModel}
      {s' : Api.Register.State} (hr : s.requests[r]? = some (.adding body active))
      (hreq : s'.requests = s.requests.set r (.deleting body active)) (hfree : s.devices.uuidFree body.uuid = true)
      (hdev : s'.devices.rows = s.devices.rows ++ [d]) (huuid : d.uuid = body.uuid)
      (hadm : s'.admitted = s.admitted ++ [⟨r, body, active, present⟩]) : Served s (.addDevice r none) s'
  | elsewhere {a : Api.Register.Action} {s' : Api.Register.State} (hreq : s'.requests = s.requests)
      (hdev : s'.devices = s.devices ∨ ∃ tenants groups, a = .other s'.devices tenants groups)
      (hadm : s'.admitted = s.admitted) : Served s a s'

theorem statusOf_error (e : Api.DbErr) : inserted (.done (statusOf (.error e))) = false := by
  cases e <;> rfl

theorem addDevice_free {s : Api.Register.State} {body : PostBody} {d : DeviceModel} {devices : Devices}
    (h : s.addDevice body = .ok (d, devices)) : s.devices.uuidFree body.uuid = true := by
  unfold Api.Register.State.addDevice Devices.addDevice at h
  dsimp only at h
  split at h
  · cases h
  · split at h
    · assumption
    · cases h

theorem served_of_step {s s' : Api.Register.State} {a : Api.Register.Action} (h : s.step a = some s') : Served s a s' := by
  cases a with
  | post body =>
    obtain rfl := Option.some.inj h
    refine @Served.posted _ _ (if body.errMsg.isSome then .done .badRequest else .searching body) _ ?_ ?_ rfl rfl rfl <;>
      split
    · exact fun b hb => by cases hb
    · exact fun b hb => (Option.some.inj hb).symm
    · rfl
    · rfl
  | search r answer =>
    simp only [Api.Register.State.step] at h
    split at h
    · rename_i body e hr
      obtain rfl := Option.some.inj h
      exact .moved hr (fun b hb => by cases hb) (fun hi => by rw [statusOf_error] at hi; cases hi) rfl rfl rfl
    · rename_i body found hr
      split at h
      · split at h <;> obtain rfl := Option.some.inj h
        · exact .moved hr (fun b hb => by cases hb) (fun hi => by cases hi) rfl rfl rfl
        · refine .moved hr ?_ (fun hi => by cases hi) rfl rfl rfl
          exact fun b hb => hb
      · cases h
    · cases h
  | addDevice r failure =>
    simp only [Api.Register.State.step] at h
    split at h
    · rename_i body active e hr
      obtain rfl := Option.some.inj h
      exact .moved hr (fun b hb => by cases hb) (fun hi => by rw [statusOf_error] at hi; cases hi) rfl rfl rfl
    · rename_i body active hr
      split at h
      · rename_i e he
        obtain rfl := Option.some.inj h
        exact .moved hr (fun b hb => by cases hb) (fun hi => by rw [statusOf_error] at hi; cases hi) rfl rfl rfl
      · rename_i d devices he
        obtain rfl := Option.some.inj h
        obtain ⟨hd, hrows, -, -⟩ := Devices.addDevice_eq_ok _ _ _ _ _ _ _ _ _ _ he
        exact .added hr rfl (addDevice_free he) hrows (hd ▸ rfl) rfl
    · cases h
  | delete r failure =>
    simp only [Api.Register.State.step] at h
    split at h
    · rename_i body active e hr
      obtain rfl := Option.some.inj h
      exact .moved hr (fun b hb => by cases hb) (fun _ => rfl) rfl rfl rfl
    · rename_i body active hr
      obtain rfl := Option.some.inj h
      exact .moved hr (fun b hb => by cases hb) (fun _ => rfl) rfl rfl rfl
    · cases h
  | drop r =>
    simp only [Api.Register.State.step] at h
    split at h
    · cases h
    · cases h
    · cases h
    · rename_i ph _ _ hr
      obtain rfl := Option.some.inj h
      exact .moved hr (fun b hb => by cases hb) (fun hi => by cases hi) rfl rfl rfl
  | addPending serialNumber endorsement failure =>
    simp only [Api.Register.State.step] at h
    split at h <;> obtain rfl := Option.some.inj h <;> exact .elsewhere rfl (.inl rfl) rfl
  | deletePending id failure =>
    simp only [Api.Register.State.step] at h
    split at h <;> obtain rfl := Option.some.inj h <;> exact .elsewhere rfl (.inl rfl) rfl
  | other devices tenants groups =>
    obtain rfl := Option.some.inj h
    exact .elsewhere rfl (.inr ⟨tenants, groups, rfl⟩) rfl

/-! ## One registration -/

variable {x : ApiClient} {s s' : State}

def Stage.request? : Stage → Option Nat
  | .registered _ r => some r
  | _ => none

theorem body?_answered (answer : Except StatusCode ClientDevice) (success : Bool) :
    (Stage.answered answer success).body? = none := by
  cases answer <;> rfl

theorem answered_ne_registered (answer : Except StatusCode ClientDevice) (success : Bool) (body : PostBody) (r : Nat) :
    Stage.answered answer success ≠ .registered body r := by
  cases answer <;> exact Stage.noConfusion

/-- Nobody removes the device. -/
def ApiClient.Keeps (x : ApiClient) (s : State) : Action → Prop
  | .server (.other devices _ _) =>
    x.deviceUuid ∈ s.server.devices.rows.map DeviceModel.uuid → x.deviceUuid ∈ devices.rows.map DeviceModel.uuid
  | _ => True

instance (x : ApiClient) (s : State) : ∀ a : Action, Decidable (x.Keeps s a)
  | .server (.other _ _ _) => inferInstanceAs (Decidable (_ → _))
  | .server (.post _) | .server (.search _ _) | .server (.addDevice _ _) | .server (.delete _ _) | .server (.drop _)
  | .server (.addPending _ _ _) | .server (.deletePending _ _) | .call _ _ | .answer _ _ _ _ | .registerSelf _ _
  | .arrive _ | .finish _ | .fail _ => .isTrue trivial

/-- The requests for the device have inserted one row between them, which is still there. -/
structure Inserted (uuid : String) (s : Api.Register.State) : Prop where
  below : ∀ a ∈ s.admitted, a.request < s.requests.length
  recorded : ∀ (r : Nat) ph, s.requests[r]? = some ph → inserted ph = true → ∃ a ∈ s.admitted, a.request = r
  one : ∀ a ∈ s.admitted, ∀ a' ∈ s.admitted, a.body.uuid = uuid → a'.body.uuid = uuid → a.request = a'.request
  kept : ∀ a ∈ s.admitted, a.body.uuid = uuid → uuid ∈ s.devices.rows.map DeviceModel.uuid

theorem Inserted.step {uuid : String} {s s' : Api.Register.State} {a : Api.Register.Action} (h : Inserted uuid s)
    (hkeep : ∀ devices tenants groups, a = .other devices tenants groups →
      uuid ∈ s.devices.rows.map DeviceModel.uuid → uuid ∈ devices.rows.map DeviceModel.uuid)
    (hs : s.step a = some s') : Inserted uuid s' := by
  cases served_of_step hs with
  | @posted body ph _ hph hnot hreq hdev hadm =>
    refine ⟨fun b hb => ?_, fun r ph' hr hi => ?_, hadm ▸ h.one, hadm ▸ hdev ▸ h.kept⟩
    · rw [hreq, List.length_append]
      exact Nat.lt_add_right _ (h.below b (hadm ▸ hb))
    · rw [hadm]
      rcases Arrivals.of_concat (hreq ▸ hr) with hr | ⟨-, rfl⟩
      · exact h.recorded r ph' hr hi
      · rw [hnot] at hi
        cases hi
  | @moved _ r old new _ hr hbody hins hreq hdev hadm =>
    refine ⟨fun b hb => ?_, fun r' ph hr' hi => ?_, hadm ▸ h.one, hadm ▸ hdev ▸ h.kept⟩
    · rw [hreq, List.length_set]
      exact h.below b (hadm ▸ hb)
    · rw [hreq, Arrivals.getElem?_set s.requests r r' old new hr] at hr'
      rw [hadm]
      split at hr'
      · rename_i hrr
        obtain rfl := Option.some.inj hr'
        exact h.recorded r' old (hrr ▸ hr) (hins hi)
      · exact h.recorded r' ph hr' hi
  | @added r body active present d _ hr hreq hfree hdev huuid hadm =>
    have hnew : uuid ∈ s.devices.rows.map DeviceModel.uuid → body.uuid ≠ uuid :=
      fun hmem heq => (s.devices.uuidFree_eq_true body.uuid).1 hfree (heq ▸ hmem)
    refine ⟨fun b hb => ?_, fun r' ph hr' hi => ?_, fun b hb b' hb' hu hu' => ?_, fun b hb hu => ?_⟩
    · rw [hreq, List.length_set]
      rcases List.mem_append.1 (hadm ▸ hb) with hb | hb
      · exact h.below b hb
      · rw [List.mem_singleton.1 hb]
        exact (List.getElem?_eq_some_iff.1 hr).1
    · rw [hreq, Arrivals.getElem?_set s.requests r r' _ _ hr] at hr'
      rw [hadm]
      split at hr'
      · rename_i hrr
        exact ⟨_, List.mem_append_right _ (List.mem_singleton_self _), hrr⟩
      · obtain ⟨b, hb, hreq⟩ := h.recorded r' ph hr' hi
        exact ⟨b, List.mem_append_left _ hb, hreq⟩
    · rcases List.mem_append.1 (hadm ▸ hb) with hb | hb <;> rcases List.mem_append.1 (hadm ▸ hb') with hb' | hb'
      · exact h.one b hb b' hb' hu hu'
      · rw [List.mem_singleton.1 hb'] at hu'
        exact absurd hu' (hnew (h.kept b hb hu))
      · rw [List.mem_singleton.1 hb] at hu
        exact absurd hu (hnew (h.kept b' hb' hu'))
      · rw [List.mem_singleton.1 hb, List.mem_singleton.1 hb']
    · rw [hdev, List.map_append]
      rcases List.mem_append.1 (hadm ▸ hb) with hb | hb
      · exact List.mem_append_left _ (h.kept b hb hu)
      · rw [List.mem_singleton.1 hb] at hu
        exact List.mem_append_right _ (List.mem_singleton.2 (hu.symm.trans huuid.symm))
  | elsewhere hreq hdev hadm =>
    refine ⟨?_, ?_, hadm ▸ h.one, fun b hb hu => ?_⟩
    · rw [hadm, hreq]
      exact h.below
    · rw [hadm, hreq]
      exact h.recorded
    · have hmem := h.kept b (hadm ▸ hb) hu
      rcases hdev with hdev | ⟨tenants, groups, rfl⟩
      · exact hdev ▸ hmem
      · exact hkeep _ _ _ rfl hmem

/-- The request `r` has arrived with this body, and what it has inserted it has inserted with it. -/
structure Carries (s : Api.Register.State) (r : Nat) (body : PostBody) : Prop where
  phase : ∃ ph, s.requests[r]? = some ph ∧ ∀ b, body? ph = some b → b = body
  admitted : ∀ a ∈ s.admitted, a.request = r → a.body = body

theorem Carries.step {s s' : Api.Register.State} {a : Api.Register.Action} {r : Nat} {body : PostBody}
    (h : Carries s r body) (hs : s.step a = some s') : Carries s' r body := by
  obtain ⟨ph, hph, hbody⟩ := h.phase
  cases served_of_step hs with
  | posted hpost hnot hreq hdev hadm =>
    exact ⟨⟨ph, hreq ▸ Arrivals.getElem?_concat _ _ r ph hph, hbody⟩, hadm ▸ h.admitted⟩
  | @moved _ r₀ old new _ hr hsame hins hreq hdev hadm =>
    refine ⟨?_, hadm ▸ h.admitted⟩
    rw [hreq, Arrivals.getElem?_set s.requests r₀ r old new hr]
    split
    · rename_i hrr
      obtain rfl := Option.some.inj (hr.symm.trans (hrr ▸ hph))
      exact ⟨new, rfl, fun b hb => hbody b (hsame b hb)⟩
    · exact ⟨ph, hph, hbody⟩
  | @added r₀ body₀ active present d _ hr hreq hfree hdev huuid hadm =>
    have hsame : r₀ = r → body₀ = body := by
      rintro rfl
      obtain rfl := Option.some.inj (hr.symm.trans hph)
      exact hbody body₀ rfl
    refine ⟨?_, fun b hb hbr => ?_⟩
    · rw [hreq, Arrivals.getElem?_set s.requests r₀ r _ _ hr]
      split
      · rename_i hrr
        exact ⟨_, rfl, fun b hb => (Option.some.inj hb).symm.trans (hsame hrr)⟩
      · exact ⟨ph, hph, hbody⟩
    · rcases List.mem_append.1 (hadm ▸ hb) with hb | hb
      · exact h.admitted b hb hbr
      · obtain rfl := List.mem_singleton.1 hb
        exact hsame hbr
  | elsewhere hreq hdev hadm => exact ⟨⟨ph, hreq ▸ hph, hbody⟩, hadm ▸ h.admitted⟩

theorem carries_posted {uuid : String} {s s' : Api.Register.State} {body : PostBody} (h : Inserted uuid s)
    (hs : s.step (.post body) = some s') : Carries s' s.requests.length body := by
  obtain rfl := Option.some.inj hs
  refine ⟨⟨_, List.getElem?_concat_length, fun b hb => ?_⟩, fun a ha hreq => ?_⟩
  · split at hb
    · cases hb
    · exact (Option.some.inj hb).symm
  · exact absurd hreq (Nat.ne_of_lt (h.below a ha))

/-- Every call posts the device's uuid, in a request of its own. -/
structure Posted (x : ApiClient) (s : State) : Prop where
  server : Inserted x.deviceUuid s.server
  uuid : ∀ (i : Nat) c body, s.calls[i]? = some c → c.stage.body? = some body → body.uuid = x.deviceUuid
  carried : ∀ (i : Nat) c body r, s.calls[i]? = some c → c.stage = .registered body r → Carries s.server r body
  apart : ∀ (i j : Nat) c c' r, s.calls[i]? = some c → s.calls[j]? = some c' → c.stage.request? = some r →
    c'.stage.request? = some r → i = j

theorem posted_start (x : ApiClient) (devices : Devices) (tenants groups : List Int) (clock : Int) :
    Posted x (.start (.start devices tenants groups) clock) where
  server := ⟨fun _ h => (List.not_mem_nil h).elim, fun _ _ h => (by cases h), fun _ h => (List.not_mem_nil h).elim,
    fun _ h => (List.not_mem_nil h).elim⟩
  uuid := fun _ _ _ h => by cases h
  carried := fun _ _ _ _ h => by cases h
  apart := fun _ _ _ _ _ h => by cases h

/-- A call changes that posts nothing new, or not yet. -/
theorem Posted.put {i : Nat} {c c' : ClientCall} (h : Posted x s) (hc : s.calls[i]? = some c)
    (huuid : ∀ body, c'.stage.body? = some body → body.uuid = x.deviceUuid)
    (hreq : ∀ body r, c'.stage = .registered body r → c.stage = .registered body r) : Posted x (s.put i c') := by
  have hsame : ∀ r, c'.stage.request? = some r → c.stage.request? = some r := by
    intro r hr
    cases hst : c'.stage with
    | registered body r' =>
      rw [hst] at hr
      rw [hreq body r' hst]
      exact hr
    | sent | refused | handled | registering =>
      rw [hst] at hr
      cases hr
  refine ⟨h.server, fun j e body he hb => ?_, fun j e body r he hst => ?_, fun j j' e e' r he he' hr hr' => ?_⟩
  · rcases of_put hc he with ⟨-, rfl⟩ | he
    · exact huuid body hb
    · exact h.uuid j e body he hb
  · rcases of_put hc he with ⟨-, rfl⟩ | he
    · exact h.carried i c body r hc (hreq body r hst)
    · exact h.carried j e body r he hst
  · rcases of_put hc he with ⟨rfl, rfl⟩ | hold <;> rcases of_put hc he' with ⟨rfl, rfl⟩ | hold'
    · rfl
    · exact h.apart _ _ c e' r hc hold' (hsame r hr) hr'
    · exact h.apart _ _ e c r hold hc hr (hsame r hr')
    · exact h.apart _ _ e e' r hold hold' hr hr'

theorem Posted.step {a : Action} (h : Posted x s) (hkeep : x.Keeps s a) (hs : x.step s a = some s') : Posted x s' := by
  cases stepped_of_step hs with
  | quiet hd => exact ⟨h.server, h.uuid, h.carried, h.apart⟩
  | called hd ht =>
    refine ⟨h.server, fun j e body he hb => ?_, fun j e body r he hst => ?_, fun j j' e e' r he he' hr hr' => ?_⟩
    · rcases Arrivals.of_concat he with he | ⟨-, rfl⟩
      · exact h.uuid j e body he hb
      · cases hb
    · rcases Arrivals.of_concat he with he | ⟨-, rfl⟩
      · exact h.carried j e body r he hst
      · cases hst
    · rcases Arrivals.of_concat he with he | ⟨-, rfl⟩
      · rcases Arrivals.of_concat he' with he' | ⟨-, rfl⟩
        · exact h.apart _ _ e e' r he he' hr hr'
        · cases hr'
      · cases hr
  | @answered i clock o success c hc hst =>
    refine h.put hc (fun body hb => ?_) (fun body r hr => ?_)
    · rw [body?_answered] at hb
      cases hb
    · exact absurd hr (answered_ne_registered _ _ body r)
  | told hc hnone hok => exact h.put hc (fun body hb => h.uuid _ _ body hc hb) (fun body r hr => hr)
  | registers hc hst => exact h.put hc (fun body hb => Option.some.inj hb ▸ rfl) (fun body r hr => by cases hr)
  | @arrived i c body server hc hst hserver =>
    have hbelow : ∀ (j : Nat) e r, s.calls[j]? = some e → e.stage.request? = some r → r < s.server.requests.length := by
      intro j e r he hr
      cases hste : e.stage with
      | registered body' r' =>
        rw [hste] at hr
        obtain rfl := Option.some.inj hr
        obtain ⟨ph, hph, -⟩ := (h.carried j e body' r' he hste).phase
        exact (List.getElem?_eq_some_iff.1 hph).1
      | sent | refused | handled | registering =>
        rw [hste] at hr
        cases hr
    refine ⟨h.server.step (fun _ _ _ ha => by cases ha) hserver, fun j e b he hb => ?_, fun j e b r he hste => ?_,
      fun j j' e e' r he he' hr hr' => ?_⟩
    · rcases of_put hc he with ⟨-, rfl⟩ | he
      · exact h.uuid i c b hc (by rw [hst]; exact hb)
      · exact h.uuid j e b he hb
    · rcases of_put hc he with ⟨-, rfl⟩ | he
      · obtain ⟨rfl, rfl⟩ := Stage.registered.inj hste
        exact carries_posted h.server hserver
      · exact (h.carried j e b r he hste).step hserver
    · rcases of_put hc he with ⟨rfl, rfl⟩ | hold <;> rcases of_put hc he' with ⟨rfl, rfl⟩ | hold'
      · rfl
      · exact absurd (Option.some.inj hr).symm (Nat.ne_of_lt (hbelow _ e' r hold' hr'))
      · exact absurd (Option.some.inj hr').symm (Nat.ne_of_lt (hbelow _ e r hold hr))
      · exact h.apart _ _ e e' r hold hold' hr hr'
  | @served a server hserver =>
    refine ⟨h.server.step (fun devices tenants groups ha => ?_) hserver, h.uuid,
      fun j e body r he hst => (h.carried j e body r he hst).step hserver, h.apart⟩
    subst ha
    exact hkeep

/-- **At most one of a device's registrations is answered with 201**, in any interleaving of its tasks and of the statements
of all requests, as long as nobody removes the device. -/
theorem registered_once (x : ApiClient) (devices : Devices) (tenants groups : List Int) (clock : Int) (as : List Action)
    (s : State) (hr : run x.step (.start (.start devices tenants groups) clock) as = some s)
    (hkeep : Along x.step x.Keeps (.start (.start devices tenants groups) clock) as) (i j : Nat) (c c' : ClientCall)
    (r r' : Nat) (hc : s.calls[i]? = some c) (hc' : s.calls[j]? = some c') (hcr : c.stage.request? = some r)
    (hcr' : c'.stage.request? = some r') (hst : status? s.server r = some .created)
    (hst' : status? s.server r' = some .created) : i = j := by
  have h : Posted x s := hkeep.invariant (fun _ _ _ hi hk hs => hi.step hk hs) (posted_start ..) hr
  -- the insertion behind a 201, with the device's uuid
  have admission : ∀ (i : Nat) c r, s.calls[i]? = some c → c.stage.request? = some r → status? s.server r = some .created →
      ∃ a ∈ s.server.admitted, a.request = r ∧ a.body.uuid = x.deviceUuid := by
    intro i c r hc hcr hst
    obtain ⟨ph, hph, hdone⟩ := Option.bind_eq_some_iff.1 hst
    obtain ⟨a, ha, hreq⟩ := h.server.recorded r ph hph (by
      cases ph with
      | done status => rw [Option.some.inj hdone]; rfl
      | searching | adding | deleting | dropped => cases hdone)
    cases hste : c.stage with
    | registered body r₀ =>
      rw [hste] at hcr
      obtain rfl := Option.some.inj hcr
      refine ⟨a, ha, hreq, ?_⟩
      rw [(h.carried i c body r₀ hc hste).admitted a ha hreq]
      exact h.uuid i c body hc (hste ▸ rfl)
    | sent | refused | handled | registering =>
      rw [hste] at hcr
      cases hcr
  obtain ⟨a, ha, hreq, hu⟩ := admission i c r hc hcr hst
  obtain ⟨a', ha', hreq', hu'⟩ := admission j c' r' hc' hcr' hst'
  have hrr : r = r' := hreq ▸ hreq' ▸ h.server.one a ha a' ha' hu hu'
  exact h.apart i j c c' r hc hc' hcr (hrr ▸ hcr')

def bothRegister : List Action :=
  [.server (.addPending "SN" "EK" none), .call .sendPing oneCall, .call .pushDeviceLogs oneCall,
    .answer 0 0 Api.allAnswered true, .answer 1 0 Api.allAnswered true, .registerSelf 0 (.ok ("EK", "key")),
    .registerSelf 1 (.ok ("EK", "key")), .arrive 0, .arrive 1, .server (.search 0 (.ok (some ⟨1, "SN", "EK"⟩))),
    .server (.search 1 (.ok (some ⟨1, "SN", "EK"⟩))), .server (.addDevice 1 none), .server (.addDevice 0 none),
    .server (.delete 1 none), .finish 0, .finish 1]

/-- Two tasks register at once: the second to insert the device is answered with 500, and the other is the only one with
201. -/
theorem registered_once_of_two : ∃ s, run oneClient.step (.start (.start .empty [1] []) 0) bothRegister = some s ∧
    s.calls.map (fun c => c.stage.request?) = [some 0, some 1] ∧
    status? s.server 0 = some .internalServerError ∧ status? s.server 1 = some .created ∧
    ∀ (i : Nat) c r, s.calls[i]? = some c → c.stage.request? = some r → status? s.server r = some .created → i = 1 :=
  ⟨_, rfl, rfl, rfl, rfl, fun i c r hc hr hst =>
    registered_once oneClient .empty [1] [] 0 bothRegister _ rfl (by decide) i 1 c _ r 1 hc rfl hr rfl hst rfl⟩

/-! ## From the first 418 to an answer -/

section

variable {t : Int} {signature endorsement signing : String} {p : PendingDeviceRegistration} {request : ApiRequest}
  {o : Outcomes}

/-- The token that is signed at `t`. -/
def signedAt (x : ApiClient) (t : Int) (signature : String) : Token :=
  .signed .rs256 ⟨x.deviceUuid, asSecs (t + Api.maxTokenLifetime * second), "device"⟩ signature

/-- The device once it has signed a token at `t`. -/
def deviceAt (x : ApiClient) (t : Int) (signature : String) : Device :=
  ⟨⟨signedAt x t signature, t + Api.maxTokenLifetime * second⟩, t, some (t + Api.maxTokenLifetime * second)⟩

theorem created_at (ht : 0 ≤ t) :
    createSignedJwt x.deviceUuid (t + Api.maxTokenLifetime * second) (.ok signature) = .ok (signedAt x t signature) :=
  (Jwt.createSignedJwt_eq_ok _ _ _ _).2 ⟨Int.add_nonneg ht (by decide), signature, rfl, rfl⟩

theorem fresh_at (signature : String) (ht : 0 ≤ t) : (signedAt x t signature).Fresh x.deviceUuid t :=
  (Jwt.fresh_iff (created_at ht) (Int.le_refl _)).2 (Jwt.asSecs_mono (Int.add_le_add_left (by decide) t))

/-- A token that is due is signed. -/
theorem call_due {d : Device} (signature : String) (ht : 0 ≤ t) (hclock : d.clock ≤ t)
    (hexpire : d.provider.expireTime ≤ t) :
    d.provider.token x.deviceUuid ⟨t, t, .ok signature⟩ =
        ((deviceAt x t signature).provider, .ok (signedAt x t signature)) ∧
      d.call x.deviceUuid ⟨t, t, .ok signature⟩ = some (deviceAt x t signature) ∧ d.time ⟨t, t, .ok signature⟩ = t := by
  have hdue : d.provider.due t := by
    have : (0 : Int) < Jwt.refreshBefore := by decide
    unfold Jwt.DeviceJwtProvider.due
    omega
  have htok : d.provider.token x.deviceUuid ⟨t, t, .ok signature⟩ =
      ((deviceAt x t signature).provider, .ok (signedAt x t signature)) := by
    rw [Jwt.DeviceJwtProvider.token, if_pos hdue]
    dsimp only
    rw [created_at ht]
    rfl
  have htime : d.time ⟨t, t, .ok signature⟩ = t := if_pos hdue
  refine ⟨htok, ?_, htime⟩
  rw [Device.call, if_pos ⟨hclock, Int.le_refl t⟩, htok, htime, if_pos ⟨hdue, rfl⟩]
  rfl

/-- At once after, the same token is given. -/
theorem call_cached (signature : String) :
    (deviceAt x t signature).provider.token x.deviceUuid ⟨t, t, .ok signature⟩ =
        ((deviceAt x t signature).provider, .ok (signedAt x t signature)) ∧
      (deviceAt x t signature).call x.deviceUuid ⟨t, t, .ok signature⟩ = some (deviceAt x t signature) ∧
      (deviceAt x t signature).time ⟨t, t, .ok signature⟩ = t := by
  have hdue : ¬ (deviceAt x t signature).provider.due t := by
    have : Jwt.refreshBefore ≤ Api.maxTokenLifetime * second := by decide
    show ¬ t + Api.maxTokenLifetime * second < t + Jwt.refreshBefore
    omega
  have htok : (deviceAt x t signature).provider.token x.deviceUuid ⟨t, t, .ok signature⟩ =
      ((deviceAt x t signature).provider, .ok (signedAt x t signature)) := if_neg hdue
  have htime : (deviceAt x t signature).time ⟨t, t, .ok signature⟩ = t := if_neg hdue
  refine ⟨htok, ?_, htime⟩
  rw [Device.call, if_pos ⟨Int.le_refl t, Int.le_refl t⟩, htok, htime, if_neg (fun h => hdue h.1)]
  rfl

/-- A device whose uuid is free is inserted, and then found by it. -/
theorem insert_free {devices : Devices} {tenants : List Int} (groups : List Int) {uuid : String} (serial : String)
    (key : Option String) (hfree : devices.getDeviceByUuid uuid = none) (htenant : 1 ∈ tenants) (hid : devices.next < Versioned.idLimit) :
    ∃ devices', devices.addDevice tenants groups uuid key serial 1 none =
        .ok (⟨devices.next, uuid, key, serial, 1, none⟩, devices') ∧
      devices'.getDeviceByUuid uuid = some ⟨devices.next, uuid, key, serial, 1, none⟩ := by
  have hnone : ∀ r ∈ devices.rows, ¬ decide (r.uuid = uuid) = true := List.find?_eq_none.1 hfree
  have hmem : uuid ∉ devices.rows.map DeviceModel.uuid := by
    intro hm
    obtain ⟨r, hr, hu⟩ := List.mem_map.1 hm
    exact hnone r hr (decide_eq_true hu)
  have hchecks : Api.checks [Api.refers "tenant_id" tenants 1, Api.refersOpt "group_id" groups none] = .ok () := by
    refine (Api.checks_eq_ok _).2 (fun c hc => ?_)
    rcases List.mem_cons.1 hc with rfl | hc
    · simpa [Api.refers] using htenant
    · rw [List.mem_singleton.1 hc]
      rfl
  refine ⟨devices.push ⟨devices.next, uuid, key, serial, 1, none⟩ rfl hmem, ?_, ?_⟩
  · rw [Devices.addDevice, if_neg (Int.not_le.2 hid), dif_pos ((devices.uuidFree_eq_true uuid).2 hmem), hchecks]
  · show (devices.rows ++ [_]).find? _ = some _
    rw [List.find?_append, List.find?_eq_none.2 hnone]
    simp

/-- **A registration that nothing disturbs inserts the device and is answered with 201.** -/
theorem run_register (s : Api.Register.State) (body : PostBody) (hbody : body.errMsg = none) (hp : p ∈ s.pending)
    (hsuits : p.suits body = true) (hfree : s.devices.getDeviceByUuid body.uuid = none) (htenant : 1 ∈ s.tenants)
    (hid : s.devices.next < Versioned.idLimit) : ∃ s₁ s₂ d, s.step (.post body) = some s₁ ∧
      run Api.Register.State.step s₁ [.search s.requests.length (.ok (some p)), .addDevice s.requests.length none,
        .delete s.requests.length none] = some s₂ ∧
      status? s₂ s.requests.length = some .created ∧ s₂.devices.getDeviceByUuid body.uuid = some d ∧
      d = ⟨s.devices.next, body.uuid, some body.signingPublicKey, body.serialNumber, 1, none⟩ := by
  obtain ⟨devices, hadd, hget⟩ := insert_free s.groups body.serialNumber (some body.signingPublicKey) hfree htenant hid
  have hadd : Api.Register.State.addDevice { s with requests := s.requests ++ [.adding body p] } body =
    .ok (_, devices) := hadd
  refine ⟨{ s with requests := s.requests ++ [.searching body] },
    { s with
      requests := s.requests ++ [.done .created]
      devices := devices
      admitted := s.admitted ++ [⟨s.requests.length, body, p, s.pending.contains p⟩]
      pending := s.without p.id
      consumed := if s.pending.contains p then (s.requests.length, p.id) :: s.consumed else s.consumed },
    _, ?_, ?_, ?_, hget, rfl⟩
  · simp only [Api.Register.State.step, hbody, Option.isSome_none, Bool.false_eq_true, if_false]
  · have hfind :
        Api.Register.State.mayFind { s with requests := s.requests ++ [.searching body] } body (some p) = true := by
      rw [Api.Register.State.mayFind, Bool.and_eq_true]
      exact ⟨List.contains_iff_mem.2 hp, hsuits⟩
    refine (Runs.run_cons_eq_some ..).2 ⟨{ s with requests := s.requests ++ [.adding body p] }, ?_, ?_⟩
    · simp only [Api.Register.State.step, List.getElem?_concat_length, hfind, if_true,
        Api.Register.State.goTo, Arrivals.set_last]
    refine (Runs.run_cons_eq_some ..).2 ⟨{ s with
      requests := s.requests ++ [.deleting body p]
      devices := devices
      admitted := s.admitted ++ [⟨s.requests.length, body, p, s.pending.contains p⟩] }, ?_, ?_⟩
    · simp only [Api.Register.State.step, List.getElem?_concat_length, hadd, Api.Register.State.goTo, Arrivals.set_last]
    refine (Runs.run_cons_eq_some ..).2 ⟨_, ?_, rfl⟩
    simp only [Api.Register.State.step, List.getElem?_concat_length, Api.Register.State.goTo, Arrivals.set_last]
    rfl
  · rw [status?, List.getElem?_concat_length]
    rfl

theorem run_server (device : Device) (calls : List ClientCall) : ∀ (as : List Api.Register.Action)
    (s s' : Api.Register.State), run Api.Register.State.step s as = some s' →
      run x.step ⟨s, device, calls⟩ (as.map .server) = some ⟨s', device, calls⟩
  | [], s, s', hr => Option.some.inj hr ▸ rfl
  | a :: as, s, s', hr => by
    obtain ⟨s₁, hs, hr⟩ := (Runs.run_cons_eq_some ..).1 hr
    refine (Runs.run_cons_eq_some ..).2 ⟨⟨s₁, device, calls⟩, ?_, run_server device calls as s₁ s' hr⟩
    simp only [ApiClient.step, hs, Option.map_some]

/-- The last call, with a fresh token, is answered by the table. -/
theorem answer_last (server : Api.Register.State) (device : Device) (calls : List ClientCall) (request : ApiRequest)
    {token : Token} (hf : token.Fresh x.deviceUuid t) (hin : InTime t t) (ho : o.getDeviceByUuid = .ok ()) :
    x.step ⟨server, device, calls ++ [⟨request, token, t, .sent, none⟩]⟩ (.answer calls.length t o true) =
      some ⟨server, device,
        calls ++ [⟨request, token, t, .answered (x.verdict server.devices token) true, none⟩]⟩ := by
  simp only [ApiClient.step, List.getElem?_concat_length, Option.bind_some, authenticate_fresh hf hin ho, State.put,
    Arrivals.set_last]

theorem inTime_self (ht : 0 ≤ t) (hi64 : asSecs t + Api.maxTokenLifetime < Api.i64Limit) : InTime t t :=
  ⟨by unfold second; omega, by unfold Jwt.refreshBefore second; omega, ht, hi64⟩

/-- A request of a device that is not in the table, and the registration that it leads to. -/
theorem run_teapot {server server₁ : Api.Register.State} {device : Device} (calls : List ClientCall) (ht : 0 ≤ t)
    (hclock : device.clock ≤ t) (hexpire : device.provider.expireTime ≤ t)
    (hi64 : asSecs t + Api.maxTokenLifetime < Api.i64Limit) (ho : o.getDeviceByUuid = .ok ())
    (hfree : server.devices.getDeviceByUuid x.deviceUuid = none)
    (hpost : server.step (.post ⟨x.deviceUuid, x.serialNumber, endorsement, signing⟩) = some server₁) :
    run x.step ⟨server, device, calls⟩ [.call request ⟨t, t, .ok signature⟩, .answer calls.length t o true,
        .registerSelf calls.length (.ok (endorsement, signing)), .arrive calls.length] =
      some ⟨server₁, deviceAt x t signature, calls ++ [⟨request, signedAt x t signature, t,
        .registered ⟨x.deviceUuid, x.serialNumber, endorsement, signing⟩ server.requests.length, none⟩]⟩ := by
  obtain ⟨htok, hcall, htime⟩ := call_due (x := x) signature ht hclock hexpire
  have hteapot : x.verdict server.devices (signedAt x t signature) = .error .imATeapot := by
    rw [ApiClient.verdict, hfree]
  have hanswer := answer_last (x := x) server (deviceAt x t signature) calls request
    (fresh_at signature ht) (inTime_self ht hi64) ho
  rw [hteapot] at hanswer
  refine (Runs.run_cons_eq_some ..).2 ⟨⟨server, deviceAt x t signature,
    calls ++ [⟨request, signedAt x t signature, t, .sent, none⟩]⟩, ?_, (Runs.run_cons_eq_some ..).2 ⟨_, hanswer, ?_⟩⟩
  · simp only [ApiClient.step, hcall, Option.map_some, htok, htime]
  · simp only [run, ApiClient.step, List.getElem?_concat_length, Option.bind_some, Stage.answered, State.put,
      Arrivals.set_last, hpost, Option.map_some]

/-- The end of a request whose registration is over, and a request that is handled. -/
theorem run_handled {server : Api.Register.State} (calls : List ClientCall) {body : PostBody} {r : Nat}
    {status : StatusCode} {client : ClientDevice} (ht : 0 ≤ t) (hi64 : asSecs t + Api.maxTokenLifetime < Api.i64Limit)
    (ho : o.getDeviceByUuid = .ok ()) (hstatus : status? server r = some status)
    (hserved : x.verdict server.devices (signedAt x t signature) = .ok client) :
    run x.step ⟨server, deviceAt x t signature,
        calls ++ [⟨request, signedAt x t signature, t, .registered body r, none⟩]⟩
        [.finish calls.length, .call request ⟨t, t, .ok signature⟩, .answer (calls.length + 1) t o true,
          .finish (calls.length + 1)] =
      some ⟨server, deviceAt x t signature,
        calls ++ [⟨request, signedAt x t signature, t, .registered body r, some false⟩] ++
          [⟨request, signedAt x t signature, t, .handled client true, some true⟩]⟩ := by
  obtain ⟨htok, hcall, htime⟩ := call_cached (x := x) (t := t) signature
  generalize hbefore : calls ++ [⟨request, signedAt x t signature, t, .registered body r, some false⟩] = before
  have hlen : calls.length + 1 = before.length := by rw [← hbefore, List.length_append, List.length_singleton]
  have hanswer := answer_last (x := x) server (deviceAt x t signature) before request
    (fresh_at signature ht) (inTime_self ht hi64) ho
  rw [hserved] at hanswer
  refine (Runs.run_cons_eq_some ..).2 ⟨⟨server, deviceAt x t signature, before⟩, ?_, ?_⟩
  · simp only [ApiClient.step, List.getElem?_concat_length, Option.bind_some, ClientCall.ends, hstatus, Option.map_some,
      State.put, Arrivals.set_last, hbefore]
  refine (Runs.run_cons_eq_some ..).2 ⟨⟨server, deviceAt x t signature,
    before ++ [⟨request, signedAt x t signature, t, .sent, none⟩]⟩, ?_, ?_⟩
  · simp only [ApiClient.step, hcall, Option.map_some, htok, htime]
  rw [hlen]
  refine (Runs.run_cons_eq_some ..).2 ⟨_, hanswer, ?_⟩
  simp only [run, ApiClient.step, List.getElem?_concat_length, Option.bind_some, Stage.answered, ClientCall.ends,
    Option.map_some, State.put, Arrivals.set_last]

/-- What the device and the API do, from a request with a new token to the end of the next request. -/
def script (s : State) (request : ApiRequest) (t : Int) (signature endorsement signing : String) (o : Outcomes)
    (p : PendingDeviceRegistration) : List Action :=
  let i := s.calls.length
  let r := s.server.requests.length
  [.call request ⟨t, t, .ok signature⟩, .answer i t o true, .registerSelf i (.ok (endorsement, signing)), .arrive i] ++
    (([.search r (.ok (some p)), .addDevice r none, .delete r none] : List Api.Register.Action).map .server ++
      [.finish i, .call request ⟨t, t, .ok signature⟩, .answer (i + 1) t o true, .finish (i + 1)])

end

/-- **A device with a pending registration gets from its first 418 to an answer** on its own: its registration is answered
with 201, and its next request is handled as the new row. -/
theorem onboards (x : ApiClient) (s : State) (request : ApiRequest) (t : Int) (signature endorsement signing : String)
    (o : Outcomes) (p : PendingDeviceRegistration) (key : x.jwt.Key) (hclock : s.device.clock ≤ t)
    (hexpire : s.device.provider.expireTime ≤ t) (ht : 0 ≤ t) (hi64 : asSecs t + Api.maxTokenLifetime < Api.i64Limit)
    (hkey : x.jwt.fromRsaPem (DeviceModel.pubkeyDecoded signing) = some key)
    (hsigned : x.jwt.verifies (x.text (signedAt x t signature)) key .rs256 = true)
    (hbody : (PostBody.mk x.deviceUuid x.serialNumber endorsement signing).errMsg = none) (hp : p ∈ s.server.pending)
    (hsuits : p.isFor x.serialNumber endorsement = true)
    (hfree : s.server.devices.getDeviceByUuid x.deviceUuid = none) (htenant : 1 ∈ s.server.tenants)
    (hid : s.server.devices.next < Versioned.idLimit) (ho : o.getDeviceByUuid = .ok ()) :
    ∃ s' d, run x.step s (script s request t signature endorsement signing o p) = some s' ∧
      s'.server.devices.getDeviceByUuid x.deviceUuid = some d ∧ d.publicKey = some signing ∧
      d.serialNumber = x.serialNumber ∧ status? s'.server s.server.requests.length = some .created ∧
      s'.calls = s.calls ++ [⟨request, signedAt x t signature, t,
          .registered ⟨x.deviceUuid, x.serialNumber, endorsement, signing⟩ s.server.requests.length, some false⟩] ++
        [⟨request, signedAt x t signature, t, .handled ⟨d.id, d.groupId⟩ true, some true⟩] := by
  obtain ⟨server, device, calls⟩ := s
  obtain ⟨server₁, server₂, d, hpost, hreg, hstatus, hget, hd⟩ :=
    run_register server ⟨x.deviceUuid, x.serialNumber, endorsement, signing⟩ hbody hp hsuits hfree htenant hid
  have hserved : x.verdict server₂.devices (signedAt x t signature) = .ok ⟨d.id, d.groupId⟩ := by
    have hacc : x.accepts d (signedAt x t signature) = true := by
      rw [ApiClient.accepts, hd, Option.map_some, Option.bind_some, hkey, Option.any_some]
      exact hsigned
    rw [ApiClient.verdict, hget]
    simp only [hacc, if_true]
  refine ⟨_, d, (Runs.run_append_eq_some ..).2 ⟨_, run_teapot calls ht hclock hexpire hi64 ho hfree hpost,
    (Runs.run_append_eq_some ..).2 ⟨_, run_server _ _ _ _ _ hreg, run_handled calls ht hi64 ho hstatus hserved⟩⟩,
    hget, hd ▸ rfl, hd ▸ rfl, hstatus, rfl⟩

/-- The device that waits for its registration, before its first request. -/
def registration : State := ⟨{ Api.Register.State.start .empty [1] [] with pending := [⟨1, "SN", "EK"⟩] }, .init 0, []⟩

theorem onboards_one : ∃ s' d,
    run oneClient.step registration
      (script registration .getTargetApplicationConfigs 0 "signature" "EK" "key" Api.allAnswered ⟨1, "SN", "EK"⟩) = some s' ∧
    s'.server.devices.getDeviceByUuid "pi" = some d ∧ d.publicKey = some "key" ∧ d.serialNumber = "SN" ∧
    status? s'.server 0 = some .created ∧
    s'.calls = [] ++ [⟨.getTargetApplicationConfigs, signedAt oneClient 0 "signature", 0,
        .registered ⟨"pi", "SN", "EK", "key"⟩ 0, some false⟩] ++
      [⟨.getTargetApplicationConfigs, signedAt oneClient 0 "signature", 0, .handled ⟨d.id, d.groupId⟩ true, some true⟩] :=
  onboards oneClient registration .getTargetApplicationConfigs 0 "signature" "EK" "key" Api.allAnswered ⟨1, "SN", "EK"⟩ "key"
    (by decide) (by decide) (by decide) (by decide) rfl rfl rfl (List.mem_singleton.2 rfl) rfl rfl (by decide)
    (by decide) rfl

end Onboarding
end ZeroDowntime
