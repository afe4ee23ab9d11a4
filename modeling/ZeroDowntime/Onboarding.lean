import ZeroDowntime.ApiRegister
import ZeroDowntime.DeviceJwt
import ZeroDowntime.Past
/-!
# Onboarding — how a device the API does not know comes to be served

A device's tasks send requests with the token of one provider.  A request of a device that is not in the table is answered
with 418, upon which the task posts the device's keys to `/register` and fails; the next request may be served.  Several
tasks may do so at once, among the requests of others, and any message may be lost (`call_accounted`).
-/
namespace ZeroDowntime
namespace Onboarding

open Api (JsonWebToken JwtConfig Value Outcomes Devices DeviceModel ClientDevice StatusCode Layer Method Request
  DeviceToken.Claims i64Limit i64Sub maxTokenLifetime)
open Api.Register (PostBody Phase)
open Jwt (Token Device asSecs second refreshBefore Timely createSignedJwt)
open Runs (run Along Took)

/-! ## The client -/

/-- The requests of `ApiClient`. -/
inductive ApiRequest
  | sendPing
  | getTargetOsVersion
  | reportCurrentOsAssignment
  | getTargetApplicationConfigs
  | reportCurrentApplicationAssignment
  | pushDeviceLogs
  | pushApplicationLogs
  deriving DecidableEq, Repr

def ApiRequest.method : ApiRequest → Method
  | .getTargetOsVersion | .getTargetApplicationConfigs => .get
  | .sendPing | .reportCurrentOsAssignment | .reportCurrentApplicationAssignment => .put
  | .pushDeviceLogs | .pushApplicationLogs => .post

def ApiRequest.path : ApiRequest → List String
  | .sendPing => ["device", "ping"]
  | .getTargetOsVersion | .reportCurrentOsAssignment => ["device", "os"]
  | .getTargetApplicationConfigs | .reportCurrentApplicationAssignment => ["device", "apps"]
  | .pushDeviceLogs | .pushApplicationLogs => ["device", "logs"]

/-- The layers a request passes, if there is a route for it. -/
def ApiRequest.layers? (r : ApiRequest) : Option (List Layer) :=
  (Api.routes.find? (fun e => decide (e.method = r.method ∧ e.path = r.path))).map Api.Endpoint.layers

/-- **Every request of the client has a route, behind the middleware and the barrier for devices.** -/
theorem layers?_eq : ∀ r : ApiRequest, r.layers? = some [.jwtMiddleware, .authDevice] := by
  intro r
  cases r <;> decide

/-- The JSON of the claims. -/
def payload (sub : String) (exp : Int) : Value :=
  .object [("sub", .string sub), ("exp", .number (.int exp)), ("role", .string "device")]

/-- The device's constants, and the encodings and the library that its tokens pass through: the base64 of a token is read
back as its claims, and a token is not refused as expired before its expiry. -/
structure ApiClient where
  deviceUuid : String
  serialNumber : String
  jwt : JsonWebToken
  config : JwtConfig
  text : Token → String
  unsigned : jwt.insecureDecode (text .empty) = none
  signed : ∀ exp signature, 0 ≤ exp →
    jwt.insecureDecode (text (.signed .rs256 ⟨deviceUuid, exp, "device"⟩ signature)) = some (payload deviceUuid exp)
  unexpired : ∀ exp now, 0 ≤ now → now ≤ exp → jwt.unexpired (payload deviceUuid exp) now = true

/-- How far the messages of a call have got. -/
inductive Stage
  | sent
  | refused (status : StatusCode)
  | handled (client : ClientDevice) (success : Bool)
  | registering (body : PostBody)
  /-- The request `r` at the API. -/
  | registered (body : PostBody) (r : Nat)
  deriving DecidableEq, Repr

/-- A call of `req`: its token, the clock when it got it, and what its task was told, if it still waits for nothing. -/
structure ClientCall where
  request : ApiRequest
  token : Token
  time : Int
  stage : Stage
  result : Option Bool
  deriving DecidableEq, Repr

/-- The client, the tables and requests of `/register`, and all calls so far. -/
structure State where
  server : Api.Register.State
  device : Device
  calls : List ClientCall

def State.start (server : Api.Register.State) (clock : Int) : State := ⟨server, .init clock, []⟩

inductive Action
  /-- A task gets a token and sends its request. -/
  | call (request : ApiRequest) (c : Jwt.Call)
  /-- The API answers, by a clock of its own.  `success` is how the handler ends, if the request gets there. -/
  | answer (i : Nat) (clock : Int) (o : Outcomes) (success : Bool)
  /-- The task has read 418.  `keys` are the endorsement key and the signing key, as the TPM answers. -/
  | registerSelf (i : Nat) (keys : Except Jwt.Error (String × String))
  | arrive (i : Nat)
  | finish (i : Nat)
  /-- The task gives up on an answer. -/
  | fail (i : Nat)
  /-- A statement of a registration, an arrival of another client's, or a statement of any other endpoint. -/
  | server (a : Api.Register.Action)

/-- The identity the handler gets, or the status of the layer that has answered. -/
def ApiClient.authenticate (x : ApiClient) (devices : Devices) (o : Outcomes) (now : Int) (request : ApiRequest)
    (token : Token) : Except StatusCode ClientDevice :=
  (Api.handle ⟨x.jwt, x.config, devices, now⟩ o (request.layers?.getD []) (.fresh (some ("Bearer " ++ x.text token)))).bind
    Api.authDevice

def Stage.answered : Except StatusCode ClientDevice → Bool → Stage
  | .error status, _ => .refused status
  | .ok client, success => .handled client success

/-- The status of a request to `/register` that is over. -/
def status? (server : Api.Register.State) (r : Nat) : Option StatusCode :=
  (server.requests[r]?).bind fun
    | .done status => some status
    | _ => none

/-- What `req` ends with once its last answer is there: a registration, successful or not, does not make up for the 418. -/
def ClientCall.ends (c : ClientCall) (server : Api.Register.State) : Option Bool :=
  match c.stage with
  | .refused .imATeapot => none
  | .refused _ => some false
  | .handled _ success => some success
  | .registered _ r => (status? server r).map (fun _ => false)
  | _ => none

def State.put (s : State) (i : Nat) (c : ClientCall) : State := { s with calls := s.calls.set i c }

def ApiClient.step (x : ApiClient) (s : State) : Action → Option State
  | .call request c =>
    (s.device.call x.deviceUuid c).map fun device =>
      match (s.device.provider.token x.deviceUuid c).2 with
      | .error _ => { s with device }
      | .ok token => { s with device, calls := s.calls ++ [⟨request, token, s.device.time c, .sent, none⟩] }
  | .answer i clock o success =>
    (s.calls[i]?).bind fun c =>
      match c.stage with
      | .sent =>
        some (s.put i { c with
          stage := .answered (x.authenticate s.server.devices o (asSecs clock) c.request c.token) success })
      | _ => none
  | .registerSelf i keys =>
    (s.calls[i]?).bind fun c =>
      match c.stage, c.result, keys with
      | .refused .imATeapot, none, .error _ => some (s.put i { c with result := some false })
      | .refused .imATeapot, none, .ok (endorsement, signing) =>
        some (s.put i { c with stage := .registering ⟨x.deviceUuid, x.serialNumber, endorsement, signing⟩ })
      | _, _, _ => none
  | .arrive i =>
    (s.calls[i]?).bind fun c =>
      match c.stage with
      | .registering body =>
        (s.server.step (.post body)).map fun server =>
          { s.put i { c with stage := .registered body s.server.requests.length } with server }
      | _ => none
  | .finish i =>
    (s.calls[i]?).bind fun c =>
      match c.result with
      | none => (c.ends s.server).map fun success => s.put i { c with result := some success }
      | some _ => none
  | .fail i =>
    (s.calls[i]?).bind fun c =>
      match c.result with
      | none => some (s.put i { c with result := some false })
      | some _ => none
  | .server a => (s.server.step a).map fun server => { s with server }

/-! ## What the token shows -/

section

variable {x : ApiClient}

/-- The row's key verifies the token. -/
def ApiClient.accepts (x : ApiClient) (d : DeviceModel) (token : Token) : Bool :=
  ((d.publicKey.map DeviceModel.pubkeyDecoded).bind x.jwt.fromRsaPem).any
    (fun key => x.jwt.verifies (x.text token) key .rs256)

def ApiClient.inTime (x : ApiClient) (exp now : Int) : Bool :=
  decide (exp < i64Limit) && x.jwt.unexpired (payload x.deviceUuid exp) now &&
    decide (¬ maxTokenLifetime < i64Sub (i64Sub exp now) 10)

theorem stripBearer_bearer (token : String) : Api.stripBearer ("Bearer " ++ token) = some token := by
  have htl : ("Bearer " ++ token).toList = Api.bearer ++ token.toList := String.toList_append
  rw [Api.stripBearer, htl, if_pos (List.isPrefixOf_iff_prefix.2 (List.prefix_append _ _)), List.drop_left,
    String.ofList_toList]

theorem read_payload (sub : String) (exp : Int) (hexp : 0 ≤ exp) : DeviceToken.Claims.read (payload sub exp) =
    if exp < i64Limit then some ⟨sub, exp, "device"⟩ else none := by
  have h : (Value.number (.int exp)).asI64 = if exp < i64Limit then some exp else none := by
    unfold Value.asI64
    have hlow : -i64Limit ≤ exp := by
      unfold i64Limit
      omega
    simp only [hlow, true_and]
  have hsub : Value.field [("sub", .string sub), ("exp", .number (.int exp)), ("role", .string "device")] "sub" =
    some (.string sub) := rfl
  have hexp : Value.field [("sub", .string sub), ("exp", .number (.int exp)), ("role", .string "device")] "exp" =
    some (.number (.int exp)) := rfl
  have hrole : Value.field [("sub", .string sub), ("exp", .number (.int exp)), ("role", .string "device")] "role" =
    some (.string "device") := rfl
  simp only [payload, DeviceToken.Claims.read, hsub, hexp, hrole, Option.bind_some, h, Value.asStr, Option.map_some]
  split <;> rfl

theorem decode_signed (exp now : Int) (signature : String) (hexp : 0 ≤ exp) (d : DeviceModel) :
    ((d.publicKey.map DeviceModel.pubkeyDecoded).bind x.jwt.fromRsaPem).bind (fun key =>
        x.jwt.decode DeviceToken.Claims.read now (x.text (.signed .rs256 ⟨x.deviceUuid, exp, "device"⟩ signature)) key
          .rs256) =
      if x.accepts d (.signed .rs256 ⟨x.deviceUuid, exp, "device"⟩ signature) ∧
          x.jwt.unexpired (payload x.deviceUuid exp) now = true ∧ exp < i64Limit
      then some ⟨x.deviceUuid, exp, "device"⟩ else none := by
  unfold ApiClient.accepts JsonWebToken.decode
  cases (d.publicKey.map DeviceModel.pubkeyDecoded).bind x.jwt.fromRsaPem with
  | none => rw [Option.bind_none, Option.any_none, if_neg (fun h => Bool.noConfusion h.1)]
  | some key =>
    rw [Option.bind_some, Option.any_some, x.signed exp signature hexp, Option.bind_some, read_payload _ _ hexp]
    cases x.jwt.verifies _ key .rs256 <;> cases x.jwt.unexpired _ now <;> simp

/-- The barrier lets pass what the handler's argument is read from. -/
theorem authenticate_eq (devices : Devices) (o : Outcomes) (now : Int) (request : ApiRequest) (token : Token) :
    x.authenticate devices o now request token =
      (Api.jwtMiddleware ⟨x.jwt, x.config, devices, now⟩ o (.fresh (some ("Bearer " ++ x.text token)))).bind
        Api.authDevice := by
  rw [ApiClient.authenticate, layers?_eq, Option.getD_some, Api.handle, Layer.call]
  cases Api.jwtMiddleware ⟨x.jwt, x.config, devices, now⟩ o (.fresh (some ("Bearer " ++ x.text token))) with
  | error status => rfl
  | ok req =>
    dsimp only [Except.bind]
    rw [Api.handle, Layer.call]
    cases hc : req.client with
    | none => simp only [Api.authDevice, hc, Except.map]
    | some client => simp only [Api.authDevice, hc, Except.map, Api.handle]

/-- The token before the first signing shows nothing. -/
theorem authenticate_unsigned (devices : Devices) (o : Outcomes) (now : Int) (request : ApiRequest) :
    x.authenticate devices o now request .empty = .error .unauthorized := by
  rw [authenticate_eq, Api.jwtMiddleware]
  simp only [Request.fresh, Option.bind_some, stripBearer_bearer, x.unsigned]
  rfl

theorem validate_signed (devices : Devices) (o : Outcomes) (now : Int) (exp : Int) (signature : String) (hexp : 0 ≤ exp) :
    Api.DeviceToken.validateToken ⟨x.jwt, x.config, devices, now⟩ o
        (x.text (.signed .rs256 ⟨x.deviceUuid, exp, "device"⟩ signature)) (payload x.deviceUuid exp) =
      match o.getDeviceByUuid, devices.getDeviceByUuid x.deviceUuid with
      | .error _, _ => .error .databaseError
      | .ok _, none => .error .deviceNotFound
      | .ok _, some d =>
        if x.accepts d (.signed .rs256 ⟨x.deviceUuid, exp, "device"⟩ signature) ∧ x.inTime exp now = true
        then .ok ⟨d.id, d.groupId⟩ else .error (if d.publicKey = none then .missingPublicKey else .jwt) := by
  have hsub : Api.extractClaim (payload x.deviceUuid exp) "sub" = some x.deviceUuid := rfl
  simp only [Api.DeviceToken.validateToken, hsub]
  cases o.getDeviceByUuid with
  | error e => rfl
  | ok u =>
    cases devices.getDeviceByUuid x.deviceUuid with
    | none => rfl
    | some d =>
      have hdec := decode_signed (x := x) exp now signature hexp d
      cases hpub : d.publicKey with
      | none =>
        have hacc : x.accepts d (.signed .rs256 ⟨x.deviceUuid, exp, "device"⟩ signature) = false := by
          rw [ApiClient.accepts, hpub]
          rfl
        simp only [hpub, hacc, Bool.false_eq_true, false_and, if_false, if_true]
      | some pubkey =>
        rw [hpub, Option.map_some, Option.bind_some] at hdec
        simp only [hpub, hdec]
        by_cases hok : x.accepts d (.signed .rs256 ⟨x.deviceUuid, exp, "device"⟩ signature) = true ∧
          x.jwt.unexpired (payload x.deviceUuid exp) now = true ∧ exp < i64Limit
        · simp only [ApiClient.inTime, hok.1, hok.2.1, hok.2.2, decide_true, Bool.and_self, Bool.true_and, true_and,
            decide_eq_true_eq, if_true]
          by_cases hlife : maxTokenLifetime < i64Sub (i64Sub exp now) 10
          · simp only [hlife, if_true, not_true_eq_false, if_false, reduceCtorEq]
          · simp only [hlife, if_false, not_false_eq_true, if_true]
        · have hnot : ¬ (x.accepts d (.signed .rs256 ⟨x.deviceUuid, exp, "device"⟩ signature) = true ∧
              x.inTime exp now = true) := by
            rintro ⟨hacc, htime⟩
            simp only [ApiClient.inTime, Bool.and_eq_true, decide_eq_true_eq] at htime
            exact hok ⟨hacc, htime.1.2, htime.1.1⟩
          simp only [hok, hnot, if_false, reduceCtorEq]

/-- **What a token of the device's own leads to**: its row, 418 without a row, and 401 if the row's key does not verify it
or the times do not fit. -/
theorem authenticate_signed (devices : Devices) (o : Outcomes) (now : Int) (request : ApiRequest) (exp : Int)
    (signature : String) (hexp : 0 ≤ exp) :
    x.authenticate devices o now request (.signed .rs256 ⟨x.deviceUuid, exp, "device"⟩ signature) =
      match o.getDeviceByUuid, devices.getDeviceByUuid x.deviceUuid with
      | .error _, _ => .error .unauthorized
      | .ok _, none => .error .imATeapot
      | .ok _, some d =>
        if x.accepts d (.signed .rs256 ⟨x.deviceUuid, exp, "device"⟩ signature) ∧ x.inTime exp now = true
        then .ok ⟨d.id, d.groupId⟩ else .error .unauthorized := by
  have hrole : Api.isDeviceToken (payload x.deviceUuid exp) = true := rfl
  rw [authenticate_eq, Api.jwtMiddleware]
  simp only [Request.fresh, Option.bind_some, stripBearer_bearer, x.signed exp signature hexp, hrole, if_true,
    validate_signed devices o now exp signature hexp]
  cases o.getDeviceByUuid with
  | error e => rfl
  | ok u =>
    cases devices.getDeviceByUuid x.deviceUuid with
    | none => rfl
    | some d =>
      by_cases hok : x.accepts d (.signed .rs256 ⟨x.deviceUuid, exp, "device"⟩ signature) = true ∧
        x.inTime exp now = true
      · simp only [if_pos hok]
        rfl
      · simp only [if_neg hok]
        cases d.publicKey <;> rfl

/-- The tokens the provider comes to hold. -/
inductive Own (x : ApiClient) : Token → Prop
  | unsigned : Own x .empty
  | signed (exp : Int) (signature : String) (hexp : 0 ≤ exp) :
      Own x (.signed .rs256 ⟨x.deviceUuid, exp, "device"⟩ signature)

theorem own_of_created {expireTime : Int} {signature : Except Jwt.Error String} {t : Token}
    (h : createSignedJwt x.deviceUuid expireTime signature = .ok t) : Own x t := by
  obtain ⟨hexp, s, -, rfl⟩ := (Jwt.createSignedJwt_eq_ok _ _ _ _).1 h
  exact .signed _ s (Int.ediv_nonneg hexp (by decide))

variable {devices : Devices} {o : Outcomes} {now : Int} {request : ApiRequest} {t : Token}

theorem Own.of_served (h : Own x t) {client : ClientDevice} (hok : x.authenticate devices o now request t = .ok client) :
    ∃ d, devices.getDeviceByUuid x.deviceUuid = some d ∧ x.accepts d t = true ∧ client = ⟨d.id, d.groupId⟩ := by
  cases h with
  | unsigned =>
    rw [authenticate_unsigned] at hok
    cases hok
  | signed exp signature hexp =>
    rw [authenticate_signed devices o now request exp signature hexp] at hok
    split at hok
    · cases hok
    · cases hok
    · rename_i d _ hd
      split at hok
      · rename_i h
        exact ⟨d, hd, h.1, (Except.ok.inj hok).symm⟩
      · cases hok

/-- What a token is answered with 401 for: it is not signed, the lookup of its row fails, or the key of the row does not
verify it, or its times do not fit. -/
def ApiClient.Rejects (x : ApiClient) (devices : Devices) (o : Outcomes) (now : Int) (token : Token) : Prop :=
  token = .empty ∨ (∃ e, o.getDeviceByUuid = .error e) ∨
    ∃ d exp signature, devices.getDeviceByUuid x.deviceUuid = some d ∧
      token = .signed .rs256 ⟨x.deviceUuid, exp, "device"⟩ signature ∧
      ¬ (x.accepts d token = true ∧ x.inTime exp now = true)

theorem Own.of_refused (h : Own x t) {status : StatusCode}
    (hno : x.authenticate devices o now request t = .error status) :
    status = .imATeapot ∨ status = .unauthorized ∧ x.Rejects devices o now t := by
  cases h with
  | unsigned =>
    rw [authenticate_unsigned] at hno
    exact .inr ⟨(Except.error.inj hno).symm, .inl rfl⟩
  | signed exp signature hexp =>
    rw [authenticate_signed devices o now request exp signature hexp] at hno
    split at hno
    · rename_i e he
      exact .inr ⟨(Except.error.inj hno).symm, .inr (.inl ⟨e, he⟩)⟩
    · exact .inl (Except.error.inj hno).symm
    · rename_i d _ hd
      split at hno
      · cases hno
      · rename_i hnot
        exact .inr ⟨(Except.error.inj hno).symm, .inr (.inr ⟨d, exp, signature, hd, rfl, hnot⟩)⟩

theorem Own.of_teapot (h : Own x t) (hno : x.authenticate devices o now request t = .error .imATeapot) :
    devices.getDeviceByUuid x.deviceUuid = none := by
  cases h with
  | unsigned =>
    rw [authenticate_unsigned] at hno
    cases hno
  | signed exp signature hexp =>
    rw [authenticate_signed devices o now request exp signature hexp] at hno
    split at hno
    · cases hno
    · assumption
    · split at hno <;> cases hno

/-- **What a device is to get by the table alone**: it is served as its row, if the row has its key. -/
def ApiClient.verdict (x : ApiClient) (devices : Devices) (token : Token) : Except StatusCode ClientDevice :=
  match devices.getDeviceByUuid x.deviceUuid with
  | none => .error .imATeapot
  | some d => if x.accepts d token then .ok ⟨d.id, d.groupId⟩ else .error .unauthorized

/-- The API answers at most thirty seconds after the token was got, and its clock is at most ten seconds behind. -/
structure InTime (time clock : Int) : Prop where
  behind : time - 10 * second ≤ clock
  ahead : clock ≤ time + refreshBefore
  epoch : 0 ≤ clock
  i64 : asSecs time + maxTokenLifetime < i64Limit

/-- **A fresh token is answered by the table alone.** -/
theorem authenticate_fresh {time clock : Int} (hf : t.Fresh x.deviceUuid time) (hin : InTime time clock)
    (ho : o.getDeviceByUuid = .ok ()) : x.authenticate devices o (asSecs clock) request t = x.verdict devices t := by
  obtain ⟨⟨expireTime, signature, hc⟩, exp, hexp, htimely⟩ := hf
  obtain ⟨hpos, s, -, rfl⟩ := (Jwt.createSignedJwt_eq_ok _ _ _ _).1 hc
  obtain rfl := Option.some.inj hexp
  have hexp : 0 ≤ asSecs expireTime := Int.ediv_nonneg hpos (by decide)
  have hclock : 0 ≤ asSecs clock := Int.ediv_nonneg hin.epoch (by decide)
  have hlate : asSecs clock ≤ asSecs expireTime := Int.le_trans (Jwt.asSecs_mono hin.ahead) htimely.late
  have hlimit : asSecs expireTime < i64Limit :=
    Int.lt_of_le_of_lt (Int.le_trans htimely.early (Int.le_of_eq (Jwt.asSecs_add _ _))) hin.i64
  have hserver : asSecs clock + 10 ≤ i64Limit := by
    have hahead : asSecs clock ≤ asSecs time + 30 := Jwt.asSecs_add time 30 ▸ Jwt.asSecs_mono hin.ahead
    have hi64 : asSecs time + 300 < i64Limit := hin.i64
    omega
  have htime : x.inTime (asSecs expireTime) (asSecs clock) = true := by
    simp only [ApiClient.inTime, Bool.and_eq_true, decide_eq_true_eq]
    exact ⟨⟨hlimit, x.unexpired _ _ hclock hlate⟩, htimely.passes hin.behind ⟨hexp, hlimit⟩ ⟨hclock, hserver⟩⟩
  rw [authenticate_signed devices o _ request _ s hexp, ApiClient.verdict, ho]
  cases devices.getDeviceByUuid x.deviceUuid with
  | none => rfl
  | some d => simp only [htime, and_true]

/-! ## What a step does -/

variable {s s' : State} {i : Nat} {c : ClientCall}

theorem own_token {d : Device} (h : Own x d.provider.currentToken) (k : Jwt.Call) :
    Own x (d.provider.token x.deviceUuid k).1.currentToken ∧
      ∀ t, (d.provider.token x.deviceUuid k).2 = .ok t → Own x t := by
  rcases d.provider.token_cases x.deviceUuid k with ⟨-, htok⟩ | ⟨-, e, htok⟩ | ⟨-, t, ht, htok⟩ <;> rw [htok]
  · exact ⟨h, fun t ht => Except.ok.inj ht ▸ h⟩
  · exact ⟨h, fun t ht => by cases ht⟩
  · exact ⟨own_of_created ht, fun t' ht' => Except.ok.inj ht' ▸ own_of_created ht⟩

theorem provider_of_call {d d' : Device} {k : Jwt.Call} (h : d.call x.deviceUuid k = some d') :
    d'.provider = (d.provider.token x.deviceUuid k).1 := by
  unfold Device.call at h
  split at h
  · exact Option.some.inj h ▸ rfl
  · cases h

/-- What a step is.  Whatever a task is told, it is told once. -/
inductive Stepped (x : ApiClient) (s : State) : Action → State → Prop
  | quiet {request : ApiRequest} {k : Jwt.Call} {device : Device} (hd : s.device.call x.deviceUuid k = some device) :
      Stepped x s (.call request k) { s with device }
  | called {request : ApiRequest} {k : Jwt.Call} {device : Device} {token : Token}
      (hd : s.device.call x.deviceUuid k = some device) (ht : (s.device.provider.token x.deviceUuid k).2 = .ok token) :
      Stepped x s (.call request k)
        { s with device, calls := s.calls ++ [⟨request, token, s.device.time k, .sent, none⟩] }
  | answered {i : Nat} {clock : Int} {o : Outcomes} {success : Bool} {c : ClientCall} (hc : s.calls[i]? = some c)
      (hst : c.stage = .sent) :
      Stepped x s (.answer i clock o success) (s.put i { c with
        stage := .answered (x.authenticate s.server.devices o (asSecs clock) c.request c.token) success })
  | told {a : Action} {i : Nat} {c : ClientCall} {success : Bool} (hc : s.calls[i]? = some c) (hr : c.result = none)
      (hok : success = true → ∃ client, c.stage = .handled client true) :
      Stepped x s a (s.put i { c with result := some success })
  | registers {i : Nat} {c : ClientCall} {endorsement signing : String} (hc : s.calls[i]? = some c)
      (hst : c.stage = .refused .imATeapot) (hr : c.result = none) :
      Stepped x s (.registerSelf i (.ok (endorsement, signing)))
        (s.put i { c with stage := .registering ⟨x.deviceUuid, x.serialNumber, endorsement, signing⟩ })
  | arrived {i : Nat} {c : ClientCall} {body : PostBody} {server : Api.Register.State} (hc : s.calls[i]? = some c)
      (hst : c.stage = .registering body) (hs : s.server.step (.post body) = some server) :
      Stepped x s (.arrive i)
        { s.put i { c with stage := .registered body s.server.requests.length } with server }
  | served {a : Api.Register.Action} {server : Api.Register.State} (hs : s.server.step a = some server) :
      Stepped x s (.server a) { s with server }

theorem ends_true {server : Api.Register.State} (h : c.ends server = some true) :
    ∃ client, c.stage = .handled client true := by
  unfold ClientCall.ends at h
  split at h
  · cases h
  · cases h
  · rename_i client success hst
    exact ⟨client, hst.trans (by rw [Option.some.inj h])⟩
  · obtain ⟨status, -, h⟩ := Option.map_eq_some_iff.1 h
    cases h
  · cases h

theorem stepped_of_step {a : Action} (hs : x.step s a = some s') : Stepped x s a s' := by
  cases a with
  | call request k =>
    obtain ⟨device, hd, rfl⟩ := Option.map_eq_some_iff.1 hs
    split
    · exact .quiet hd
    · rename_i token ht
      exact .called hd ht
  | answer i clock o success =>
    obtain ⟨c, hc, hs⟩ := Option.bind_eq_some_iff.1 hs
    split at hs
    · rename_i hst
      exact Option.some.inj hs ▸ .answered hc hst
    · cases hs
  | registerSelf i keys =>
    obtain ⟨c, hc, hk⟩ := Option.bind_eq_some_iff.1 hs
    split at hk
    · rename_i _ hr
      exact Option.some.inj hk ▸ .told hc hr (fun h => by cases h)
    · rename_i hst hr
      exact Option.some.inj hk ▸ .registers hc hst hr
    · cases hk
  | arrive i =>
    obtain ⟨c, hc, hs⟩ := Option.bind_eq_some_iff.1 hs
    split at hs
    · rename_i body hst
      obtain ⟨server, hserver, rfl⟩ := Option.map_eq_some_iff.1 hs
      exact .arrived hc hst hserver
    · cases hs
  | finish i =>
    obtain ⟨c, hc, hs⟩ := Option.bind_eq_some_iff.1 hs
    split at hs
    · rename_i hr
      obtain ⟨success, he, rfl⟩ := Option.map_eq_some_iff.1 hs
      exact .told hc hr (fun h => ends_true (h ▸ he))
    · cases hs
  | fail i =>
    obtain ⟨c, hc, hs⟩ := Option.bind_eq_some_iff.1 hs
    split at hs
    · rename_i hr
      exact Option.some.inj hs ▸ .told hc hr (fun h => by cases h)
    · cases hs
  | server a =>
    obtain ⟨server, hserver, rfl⟩ := Option.map_eq_some_iff.1 hs
    exact .served hserver

/-- The call at `i`, before and after a step that puts one there. -/
theorem of_put {c' : ClientCall} {j : Nat} {e : ClientCall} (hc : s.calls[i]? = some c)
    (he : (s.put i c').calls[j]? = some e) : j = i ∧ e = c' ∨ s.calls[j]? = some e := by
  rw [State.put, Arrivals.getElem?_set s.calls i j c c' hc] at he
  split at he
  · rename_i hij
    exact .inl ⟨hij.symm, (Option.some.inj he).symm⟩
  · exact .inr he

/-! ## What the calls come from -/

/-- The call waits for its answer, or would if its task had not given up. -/
def State.Waits (s : State) (i : Nat) (c : ClientCall) : Prop :=
  ∃ result, s.calls[i]? = some { c with stage := .sent, result }

/-- The step at which the call is made. -/
def ApiClient.Makes (x : ApiClient) (i : Nat) (c : ClientCall) (s : State) (a : Action) : Prop :=
  s.calls.length = i ∧ ∃ k, a = .call c.request k ∧ c.time = s.device.time k ∧
    (s.device.provider.token x.deviceUuid k).2 = .ok c.token

/-- The step at which the call is answered. -/
def Answers (i : Nat) (c : ClientCall) (clock : Int) (o : Outcomes) (s : State) (a : Action) : Prop :=
  s.Waits i c ∧ ∃ success, a = .answer i clock o success

/-- The step at which the task of the call, told 418, has the keys of the TPM for its registration. -/
def ApiClient.Registers (x : ApiClient) (i : Nat) (c : ClientCall) (body : PostBody) (s : State) (a : Action) : Prop :=
  s.calls[i]? = some { c with stage := .refused .imATeapot, result := none } ∧
    ∃ endorsement signing, a = .registerSelf i (.ok (endorsement, signing)) ∧
      body = ⟨x.deviceUuid, x.serialNumber, endorsement, signing⟩

/-- The step at which the registration gets to the API, as request `r`. -/
def Posts (i : Nat) (c : ClientCall) (body : PostBody) (r : Nat) (s : State) (a : Action) : Prop :=
  s.server.requests.length = r ∧ a = .arrive i ∧
    ∃ result, s.calls[i]? = some { c with stage := .registering body, result }

/-- The body that a call posts or has posted. -/
def Stage.body? : Stage → Option PostBody
  | .registering body | .registered body _ => some body
  | _ => none

/-- The API did not know the device. -/
def Stage.unknown : Stage → Bool
  | .refused .imATeapot | .registering _ | .registered _ _ => true
  | _ => false

/-- **What a call owes to the run**: its token is what the provider gave when it was made; it was handled as the row that
had the device's uuid and a key that verifies its token when it was answered; it was answered with 418, and may have sent a
registration, because there was no such row then; any other status is 401, for one of the reasons of `Rejects`; a
registration has the device's uuid and serial number and the keys that the TPM gave when the task had read 418, and is the
request it arrived as; and the task is told a success only of a request that was handled. -/
structure Accounted (x : ApiClient) (start : State) (as : List Action) (i : Nat) (c : ClientCall) : Prop where
  made : Took x.step start (x.Makes i c) as
  handled : ∀ client success, c.stage = .handled client success → Took x.step start (fun s a =>
    (∃ clock o, Answers i c clock o s a) ∧ ∃ d, s.server.devices.getDeviceByUuid x.deviceUuid = some d ∧
      x.accepts d c.token = true ∧ client = ⟨d.id, d.groupId⟩) as
  unknown : c.stage.unknown = true → Took x.step start (fun s a =>
    (∃ clock o, Answers i c clock o s a) ∧ s.server.devices.getDeviceByUuid x.deviceUuid = none) as
  rejected : ∀ status, c.stage = .refused status → status = .imATeapot ∨ status = .unauthorized ∧
    Took x.step start (fun s a => ∃ clock o, Answers i c clock o s a ∧
      x.Rejects s.server.devices o (asSecs clock) c.token) as
  registering : ∀ body, c.stage.body? = some body → Took x.step start (x.Registers i c body) as
  registered : ∀ body r, c.stage = .registered body r → Took x.step start (Posts i c body r) as
  told : c.result = some true → ∃ client, c.stage = .handled client true

theorem Accounted.later {start : State} {as : List Action} (h : Accounted x start as i c) (bs : List Action) :
    Accounted x start (as ++ bs) i c where
  made := h.made.later bs
  handled := fun client success hst => (h.handled client success hst).later bs
  unknown := fun hst => (h.unknown hst).later bs
  rejected := fun status hst => (h.rejected status hst).imp_right (fun hno => ⟨hno.1, hno.2.later bs⟩)
  registering := fun body hst => (h.registering body hst).later bs
  registered := fun body r hst => (h.registered body r hst).later bs
  told := h.told

theorem accounted_sent {start : State} {as : List Action} (hmade : Took x.step start (x.Makes i c) as)
    (hst : c.stage = .sent) (hr : c.result = none) : Accounted x start as i c where
  made := hmade
  handled := fun client success h => by rw [hst] at h; cases h
  unknown := fun h => by rw [hst] at h; cases h
  rejected := fun status h => by rw [hst] at h; cases h
  registering := fun body h => by rw [hst] at h; cases h
  registered := fun body r h => by rw [hst] at h; cases h
  told := fun h => by rw [hr] at h; cases h

/-- The task of a call that is not handled has not been told a success. -/
theorem Accounted.not_told {start : State} {as : List Action} (h : Accounted x start as i c)
    (hst : ∀ client, c.stage ≠ .handled client true) : c.result ≠ some true := fun ht => by
  obtain ⟨client, hh⟩ := h.told ht
  exact hst client hh

/-- The tokens are the provider's, and every call is accounted for. -/
structure Sound (x : ApiClient) (start : State) (as : List Action) (s : State) : Prop where
  provider : Own x s.device.provider.currentToken
  tokens : ∀ (i : Nat) c, s.calls[i]? = some c → Own x c.token
  calls : ∀ (i : Nat) c, s.calls[i]? = some c → Accounted x start as i c

theorem waits_of_sent (hc : s.calls[i]? = some c) (hst : c.stage = .sent) (stage : Stage) (result : Option Bool) :
    s.Waits i { c with stage, result } :=
  ⟨c.result, hc.trans (by rw [← hst])⟩

/-- The answer is what the table shows at that moment. -/
theorem accounted_answered {start : State} {as : List Action} {clock : Int} (hr : run x.step start as = some s)
    (hc : s.calls[i]? = some c) (hst : c.stage = .sent) (hown : Own x c.token) (hacc : Accounted x start as i c)
    (success : Bool) : Accounted x start (as ++ [.answer i clock o success]) i { c with
      stage := .answered (x.authenticate s.server.devices o (asSecs clock) c.request c.token) success } := by
  have hnow : ∀ stage, Answers i { c with stage } clock o s (.answer i clock o success) :=
    fun stage => ⟨waits_of_sent hc hst _ _, success, rfl⟩
  have hmade := hacc.made.later [.answer i clock o success]
  have hnone : c.result ≠ some true := hacc.not_told (fun client h => by rw [hst] at h; cases h)
  generalize hau : x.authenticate s.server.devices o (asSecs clock) c.request c.token = answer
  cases answer with
  | ok client =>
    refine ⟨hmade, fun client' success' h => ?_, fun h => (by cases h), fun _ h => (by cases h), fun _ h => (by cases h),
      fun _ _ h => (by cases h), fun h => absurd h hnone⟩
    obtain ⟨rfl, -⟩ := Stage.handled.inj h
    exact .now hr ⟨⟨clock, o, hnow _⟩, hown.of_served hau⟩
  | error status =>
    refine ⟨hmade, fun _ _ h => (by cases h), fun h => ?_, fun status' h => ?_, fun _ h => (by cases h),
      fun _ _ h => (by cases h), fun h => absurd h hnone⟩
    · cases status with
      | imATeapot => exact .now hr ⟨⟨clock, o, hnow _⟩, hown.of_teapot hau⟩
      | created | badRequest | unauthorized | internalServerError => cases h
    · obtain rfl := Stage.refused.inj h
      exact (hown.of_refused hau).imp_right (fun hno => ⟨hno.1, .now hr ⟨clock, o, hnow _, hno.2⟩⟩)

theorem Sound.step {start : State} {as : List Action} {a : Action} (hr : run x.step start as = some s)
    (h : Sound x start as s) (hs : x.step s a = some s') : Sound x start (as ++ [a]) s' := by
  have keep : ∀ j e, s.calls[j]? = some e → Own x e.token ∧ Accounted x start (as ++ [a]) j e :=
    fun j e he => ⟨h.tokens j e he, (h.calls j e he).later [a]⟩
  -- a call is put in the place of one with its token
  have put : ∀ (i : Nat) (c c' : ClientCall) (server : Api.Register.State), s.calls[i]? = some c → c'.token = c.token →
      Accounted x start (as ++ [a]) i c' → Sound x start (as ++ [a]) { s.put i c' with server } := by
    intro i c c' server hc htok hacc
    refine ⟨h.provider, fun j e he => ?_, fun j e he => ?_⟩ <;> rcases of_put hc he with ⟨rfl, rfl⟩ | he
    · exact htok ▸ h.tokens j c hc
    · exact (keep j e he).1
    · exact hacc
    · exact (keep j e he).2
  cases stepped_of_step hs with
  | quiet hd => exact ⟨provider_of_call hd ▸ (own_token h.provider _).1, fun j e he => (keep j e he).1,
      fun j e he => (keep j e he).2⟩
  | @called request k device token hd ht =>
    refine ⟨provider_of_call hd ▸ (own_token h.provider _).1, fun j e he => ?_, fun j e he => ?_⟩ <;>
      rcases Arrivals.of_concat he with he | ⟨rfl, rfl⟩
    · exact (keep j e he).1
    · exact (own_token h.provider _).2 _ ht
    · exact (keep j e he).2
    · exact accounted_sent (.now hr ⟨rfl, k, rfl, rfl, ht⟩) rfl rfl
  | @answered i clock o success c hc hst =>
    exact put i c _ s.server hc rfl (accounted_answered hr hc hst (h.tokens i c hc) (h.calls i c hc) success)
  | @told _ i c success hc hnone hok =>
    have hacc := (keep i c hc).2
    exact put i c _ s.server hc rfl { hacc with told := fun ht => hok (Option.some.inj ht) }
  | @registers i c endorsement signing hc hst hnone =>
    have hacc := (keep i c hc).2
    have hnow : s.calls[i]? = some { c with stage := .refused .imATeapot, result := none } := by rw [hc, ← hst, ← hnone]
    refine put i c _ s.server hc rfl ⟨hacc.made, fun _ _ hh => (by cases hh), fun _ => hacc.unknown (hst ▸ rfl),
      fun _ hh => (by cases hh), fun body hbody => ?_, fun _ _ hh => (by cases hh),
      fun ht => absurd ht (hacc.not_told (fun _ hh => by rw [hst] at hh; cases hh))⟩
    exact .now hr ⟨hnow, endorsement, signing, rfl, (Option.some.inj hbody).symm⟩
  | @arrived i c body server hc hst =>
    have hacc := (keep i c hc).2
    refine put i c _ server hc rfl ⟨hacc.made, fun _ _ hh => (by cases hh), fun _ => hacc.unknown (hst ▸ rfl),
      fun _ hh => (by cases hh), fun body' hbody => hacc.registering body' (hst ▸ hbody), fun body' r hh => ?_,
      fun ht => absurd ht (hacc.not_told (fun _ hh => by rw [hst] at hh; cases hh))⟩
    obtain ⟨rfl, rfl⟩ := Stage.registered.inj hh
    exact .now hr ⟨rfl, rfl, c.result, by rw [hc, ← hst]⟩
  | served => exact ⟨h.provider, fun j e he => (keep j e he).1, fun j e he => (keep j e he).2⟩

/-- The provider caches the token signed last, and every call's token was fresh. -/
structure Fresh (x : ApiClient) (s : State) : Prop where
  cached : s.device.Cached x.deviceUuid
  tokens : ∀ (i : Nat) c, s.calls[i]? = some c → c.token.Fresh x.deviceUuid c.time

theorem fresh_start (x : ApiClient) (server : Api.Register.State) (clock : Int) : Fresh x (.start server clock) :=
  ⟨Device.cached_init _ _, fun i c hc => by cases hc⟩

theorem Fresh.step {a : Action} (h : Fresh x s)
    (hcov : ∀ request k, a = .call request k → s.device.Covered k) (hs : x.step s a = some s') : Fresh x s' := by
  have put : ∀ (i : Nat) (c c' : ClientCall), s.calls[i]? = some c → c'.token = c.token → c'.time = c.time →
      ∀ (j : Nat) e, (s.put i c').calls[j]? = some e → e.token.Fresh x.deviceUuid e.time := by
    intro i c c' hc htok htime j e he
    rcases of_put hc he with ⟨-, rfl⟩ | he
    · rw [htok, htime]
      exact h.tokens i c hc
    · exact h.tokens j e he
  cases stepped_of_step hs with
  | quiet hd => exact ⟨h.cached.call hd, h.tokens⟩
  | called hd ht =>
    refine ⟨h.cached.call hd, fun j e he => ?_⟩
    rcases Arrivals.of_concat he with he | ⟨-, rfl⟩
    · exact h.tokens j e he
    · exact (h.cached.fresh_iff hd).2 (hcov _ _ rfl) _ ht
  | answered hc hst => exact ⟨h.cached, put _ _ _ hc rfl rfl⟩
  | told hc hnone hok => exact ⟨h.cached, put _ _ _ hc rfl rfl⟩
  | registers hc hst hr => exact ⟨h.cached, put _ _ _ hc rfl rfl⟩
  | arrived hc hst hserver => exact ⟨h.cached, put _ _ _ hc rfl rfl⟩
  | served hserver => exact ⟨h.cached, h.tokens⟩

end

/-- A token's text is its expiry in decimals. -/
def expiryText : Token → String
  | .empty => ""
  | .signed _ claims _ => String.ofList (Nat.toDigits 10 claims.exp.toNat)

def decodeExpiry (token : String) : Option Value :=
  if token.toList = [] then none else some (payload "pi" (Nat.ofDigitChars 10 token.toList 0))

def inMinute (claims : Value) (now : Int) : Bool :=
  match claims.get "exp" with
  | some (.number (.int exp)) => decide (0 ≤ now ∧ now ≤ exp + 60)
  | _ => false

theorem inMinute_epoch (claims : Value) (now : Int) (h : inMinute claims now = true) : 0 ≤ now := by
  unfold inMinute at h
  split at h
  · exact (of_decide_eq_true h).1
  · cases h

theorem inMinute_unexpired (exp now : Int) (hnow : 0 ≤ now) (hle : now ≤ exp) : inMinute (payload "pi" exp) now = true :=
  decide_eq_true ⟨hnow, by omega⟩

theorem decodeExpiry_empty : decodeExpiry (expiryText .empty) = none := rfl

theorem decodeExpiry_signed (exp : Int) (signature : String) (hexp : 0 ≤ exp) :
    decodeExpiry (expiryText (.signed .rs256 ⟨"pi", exp, "device"⟩ signature)) = some (payload "pi" exp) := by
  unfold decodeExpiry expiryText
  rw [String.toList_ofList, if_neg Nat.toDigits_ne_nil, Nat.ofDigitChars_ten_toDigits, Int.toNat_of_nonneg hexp]

/-- A device whose tokens are written as the second they expire. -/
def oneClient : ApiClient where
  deviceUuid := "pi"
  serialNumber := "SN"
  jwt :=
    { Key := String
      insecureDecode := decodeExpiry
      fromRsaPem := some
      verifies := fun _ key algorithm => decide (key = "key" ∧ algorithm = .rs256)
      unexpired := inMinute
      epoch := inMinute_epoch }
  config := ⟨"sub", "name", "issuer"⟩
  text := expiryText
  unsigned := decodeExpiry_empty
  signed := decodeExpiry_signed
  unexpired := inMinute_unexpired

def oneCall : Jwt.Call := ⟨0, 0, .ok "signature"⟩

/-- **Every call of every run is accounted for**, whatever the others do and whichever messages are lost. -/
theorem call_accounted (x : ApiClient) (server : Api.Register.State) (clock : Int) (as : List Action) (s : State)
    (hr : run x.step (.start server clock) as = some s) (i : Nat) (c : ClientCall) (hc : s.calls[i]? = some c) :
    Accounted x (.start server clock) as i c := by
  have hsound : Sound x (.start server clock) as s :=
    Runs.run_past (I := Sound x (.start server clock))
      ⟨.unsigned, fun _ _ hc => (by cases hc), fun _ _ hc => (by cases hc)⟩ (fun _ _ _ _ h hi hs => hi.step h hs) hr
  exact hsound.calls i c hc

def servedOnce : List Action :=
  [.server (.other (.push .empty ⟨1, "pi", some "key", "SN", 1, none⟩ rfl List.not_mem_nil) [1] []),
    .call .getTargetApplicationConfigs oneCall, .answer 0 0 Api.allAnswered true]

theorem call_accounted_served : ∃ s c, run oneClient.step (.start (.start .empty [] []) 0) servedOnce = some s ∧
    s.calls[0]? = some c ∧ c.stage = .handled ⟨1, none⟩ true ∧
    Accounted oneClient (.start (.start .empty [] []) 0) servedOnce 0 c :=
  ⟨_, _, rfl, rfl, rfl, call_accounted oneClient (.start .empty [] []) 0 servedOnce _ rfl 0 _ rfl⟩

/-- **A call with a covered token that is answered in time gets what the table alone decides**: its row if the row has the
device's key, 401 if it has another, 418 without a row. -/
theorem answered_by_table (x : ApiClient) (server : Api.Register.State) (clock₀ : Int) (as : List Action) (s : State)
    (hr : run x.step (.start server clock₀) as = some s)
    (hcov : Along x.step (fun s a => ∀ request k, a = .call request k → s.device.Covered k) (.start server clock₀) as)
    (i : Nat) (c : ClientCall) (hc : s.calls[i]? = some c) (hst : c.stage = .sent) (clock : Int) (o : Outcomes)
    (success : Bool) (hin : InTime c.time clock) (ho : o.getDeviceByUuid = .ok ()) :
    x.step s (.answer i clock o success) =
      some (s.put i { c with stage := .answered (x.verdict s.server.devices c.token) success }) := by
  have hfresh := (hcov.invariant (fun _ _ _ hi hk hs => hi.step hk hs) (fresh_start x server clock₀) hr).tokens i c hc
  simp only [ApiClient.step, hc, Option.bind_some, hst, authenticate_fresh hfresh hin ho]

theorem answered_by_table_unknown : ∃ s c,
    run oneClient.step (.start (.start .empty [] []) 0) [.call .sendPing oneCall] = some s ∧ s.calls[0]? = some c ∧
    oneClient.step s (.answer 0 0 Api.allAnswered true) = some (s.put 0 { c with stage := .refused .imATeapot }) :=
  ⟨_, _, rfl, rfl, answered_by_table oneClient (.start .empty [] []) 0 [.call .sendPing oneCall] _ rfl
    ⟨fun _ _ h => by obtain ⟨rfl, rfl⟩ := Action.call.inj h; decide, fun _ _ => trivial⟩ 0 _ rfl rfl 0 Api.allAnswered true
    ⟨by decide, by decide, by decide, by decide⟩ rfl⟩

end Onboarding
end ZeroDowntime
