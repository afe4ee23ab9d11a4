import ZeroDowntime.ApiDevices
/-!
# ApiAuth — tokens, the JWT middleware and the layers of the router

A token names its kind in a claim nobody has verified yet; the branch that claim selects verifies the token with a key
of that kind and puts one identity into the request's extensions.  The routers are guarded by extractors that look for
one kind of identity each.  What `jsonwebtoken` decides is a parameter.
-/
namespace ZeroDowntime
namespace Api

/-! ## JSON -/

inductive Number
  | int (n : Int)
  | float (text : String)
  deriving DecidableEq, Repr

/-- A JSON text; the members of an object are in the order of the text and may repeat a key. -/
inductive Value
  | null
  | bool (b : Bool)
  | number (n : Number)
  | string (s : String)
  | array (items : List Value)
  | object (members : List (String × Value))
  deriving Repr

/-- The first integer past an `i64`, and past a `u64`. -/
def i64Limit : Int := 9223372036854775808

def u64Limit : Nat := 18446744073709551616

namespace Value

def named (members : List (String × Value)) (key : String) : List (String × Value) :=
  members.filter (fun m => decide (m.1 = key))

/-- `Value::get`: a repeated key has the value it is given last. -/
def get : Value → String → Option Value
  | .object members, key => (named members key).getLast?.map Prod.snd
  | _, _ => none

def asStr : Value → Option String
  | .string s => some s
  | _ => none

def asU64 : Value → Option Int
  | .number (.int n) => if 0 ≤ n ∧ n < u64Limit then some n else none
  | _ => none

def asI64 : Value → Option Int
  | .number (.int n) => if -i64Limit ≤ n ∧ n < i64Limit then some n else none
  | _ => none

/-- A field of a derived `Deserialize`: a missing or repeated key is an error. -/
def field (members : List (String × Value)) (key : String) : Option Value :=
  match named members key with
  | [m] => some m.2
  | _ => none

theorem get_of_field (members : List (String × Value)) (key : String) (v : Value) (h : field members key = some v) :
    (Value.object members).get key = some v := by
  unfold field at h
  split at h
  · rename_i m hm
    simpa [get, hm] using h
  · cases h

theorem asI64_bounds (v : Value) (n : Int) (h : v.asI64 = some n) : v = .number (.int n) ∧ n < i64Limit := by
  unfold asI64 at h
  split at h
  · split at h
    · obtain rfl := Option.some.inj h
      rename_i hb
      exact ⟨rfl, hb.2⟩
    · cases h
  · cases h

theorem asStr_eq_some (v : Value) (s : String) (h : v.asStr = some s) : v = .string s := by
  cases v with
  | string t => rw [Option.some.inj h]
  | null | bool | number | array | object => cases h

end Value

def extractClaim (claim : Value) (key : String) : Option String := (claim.get key).bind Value.asStr

def isDeviceToken (claims : Value) : Bool :=
  (((claims.get "role").bind Value.asStr).map (fun s => decide (s = "device"))).getD false

/-! ## `jsonwebtoken` -/

inductive Algorithm
  | rs256
  | rs512
  deriving DecidableEq, Repr

/-- The answers of the JWT library.  `verifies` is the check of the signature, under a key and the one algorithm
that is allowed; `unexpired` is the check of `exp` at a time, which panics on a clock before the epoch. -/
structure JsonWebToken where
  Key : Type
  insecureDecode : String → Option Value
  fromRsaPem : String → Option Key
  verifies : String → Key → Algorithm → Bool
  unexpired : Value → Int → Bool
  epoch : ∀ payload now, unexpired payload now = true → 0 ≤ now

/-- `decode::<T>`, with `T`'s reading of the payload. -/
def JsonWebToken.decode {T : Type} (j : JsonWebToken) (read : Value → Option T) (now : Int) (token : String) (key : j.Key)
    (algorithm : Algorithm) : Option T :=
  (j.insecureDecode token).bind (fun payload =>
    if j.verifies token key algorithm && j.unexpired payload now then read payload else none)

theorem JsonWebToken.decode_eq_some {T : Type} (j : JsonWebToken) (read : Value → Option T) (now : Int) (token : String)
    (key : j.Key) (algorithm : Algorithm) (t : T) : j.decode read now token key algorithm = some t ↔
      ∃ payload, j.insecureDecode token = some payload ∧ j.verifies token key algorithm = true ∧
        j.unexpired payload now = true ∧ read payload = some t := by
  unfold JsonWebToken.decode
  cases j.insecureDecode token with
  | none => simp
  | some payload =>
    by_cases hv : j.verifies token key algorithm = true <;> by_cases hu : j.unexpired payload now = true <;>
      simp [hv, hu]

/-! ## The two validations -/

structure JwtConfig where
  subjectClaim : String
  nameClaim : String
  publicKey : String
  deriving DecidableEq, Repr

/-- What a request meets: the configuration, the devices and the clock of the server. -/
structure Server where
  jwt : JsonWebToken
  config : JwtConfig
  devices : Devices
  now : Int

/-- How the statements of one request's middleware end. -/
structure Outcomes where
  getDeviceByUuid : Except DbErr Unit
  upsertUser : Except DbErr Unit
  setPgSessionUser : Except DbErr Unit

structure ClientDevice where
  id : Int
  groupId : Option Int
  deriving DecidableEq, Repr

inductive DeviceTokenError
  | jwt
  | deviceNotFound
  | missingPublicKey
  | databaseError
  deriving DecidableEq, Repr

structure DeviceToken.Claims where
  sub : String
  exp : Int
  role : String
  deriving DecidableEq, Repr

structure UserToken.Claims where
  subject : String
  name : String
  expiry : Int
  deriving DecidableEq, Repr

def maxTokenLifetime : Int := 300

/-- The subtraction of two `i64`. -/
def i64Sub (a b : Int) : Int := (a - b).bmod u64Limit

/-- The derived `Deserialize` of the device claims, which also reads an array. -/
def DeviceToken.Claims.read : Value → Option DeviceToken.Claims
  | .object members =>
    ((Value.field members "sub").bind Value.asStr).bind (fun sub =>
      ((Value.field members "exp").bind Value.asI64).bind (fun exp =>
        ((Value.field members "role").bind Value.asStr).map (fun role => ⟨sub, exp, role⟩)))
  | .array [sub, exp, role] =>
    sub.asStr.bind (fun sub => exp.asI64.bind (fun exp => role.asStr.map (fun role => ⟨sub, exp, role⟩)))
  | _ => none

/-- `replace("\\n", "\n")` -/
def unescapeNewlines : List Char → List Char
  | '\\' :: 'n' :: cs => '\n' :: unescapeNewlines cs
  | c :: cs => c :: unescapeNewlines cs
  | [] => []

def DeviceModel.pubkeyDecoded (pubkey : String) : String := String.ofList (unescapeNewlines pubkey.toList)

def DeviceToken.validateToken (s : Server) (o : Outcomes) (token : String) (claims : Value) :
    Except DeviceTokenError ClientDevice :=
  match extractClaim claims "sub" with
  | none => .error .jwt
  | some deviceUuid =>
    match o.getDeviceByUuid with
    | .error _ => .error .databaseError
    | .ok _ =>
      match s.devices.getDeviceByUuid deviceUuid with
      | none => .error .deviceNotFound
      | some device =>
        match device.publicKey with
        | none => .error .missingPublicKey
        | some pubkey =>
          match (s.jwt.fromRsaPem (DeviceModel.pubkeyDecoded pubkey)).bind (fun key =>
              s.jwt.decode DeviceToken.Claims.read s.now token key .rs256) with
          | none => .error .jwt
          | some verified =>
            if maxTokenLifetime < i64Sub (i64Sub verified.exp s.now) 10 then .error .jwt
            else .ok ⟨device.id, device.groupId⟩

def UserToken.validateToken (s : Server) (token : String) : Option UserToken.Claims :=
  ((s.jwt.fromRsaPem s.config.publicKey).bind (fun key => s.jwt.decode some s.now token key .rs512)).bind (fun payload =>
    (extractClaim payload s.config.subjectClaim).bind (fun subject =>
      (extractClaim payload s.config.nameClaim).bind (fun name =>
        ((payload.get "exp").bind Value.asU64).map (fun expiry => ⟨subject, name, expiry⟩))))

/-! ## The middleware -/

/-- A request as far as the layers look at it.  `authorization` is the header as `to_str` reads it. -/
structure Request where
  authorization : Option String
  client : Option ClientDevice
  user : Option UserToken.Claims
  deriving DecidableEq, Repr

/-- A request off the wire: nobody has put an identity into its extensions. -/
def Request.fresh (authorization : Option String) : Request := ⟨authorization, none, none⟩

def bearer : List Char := "Bearer ".toList

def stripBearer (header : String) : Option String :=
  if bearer.isPrefixOf header.toList then some (String.ofList (header.toList.drop bearer.length)) else none

def jwtMiddleware (s : Server) (o : Outcomes) (req : Request) : Except StatusCode Request :=
  match req.authorization.bind stripBearer with
  | none => .error .unauthorized
  | some token =>
    match s.jwt.insecureDecode token with
    | none => .error .unauthorized
    | some claims =>
      if isDeviceToken claims then
        match DeviceToken.validateToken s o token claims with
        | .ok client => .ok { req with client := some client }
        | .error .deviceNotFound => .error .imATeapot
        | .error _ => .error .unauthorized
      else
        match UserToken.validateToken s token with
        | none => .error .unauthorized
        | some user =>
          match o.upsertUser with
          | .error _ => .error .internalServerError
          | .ok _ =>
            match o.setPgSessionUser with
            | .error _ => .error .internalServerError
            | .ok _ => .ok { req with user := some user }

/-- `AuthDevice::from_request_parts`, as a layer and as the argument of a device handler. -/
def authDevice (req : Request) : Except StatusCode ClientDevice :=
  match req.client with
  | some client => .ok client
  | none => .error .unauthorized

/-- `AuthUser::from_request_parts` -/
def authUser (req : Request) : Except StatusCode Unit :=
  match req.user with
  | some _ => .ok ()
  | none => .error .unauthorized

/-! ## The routers -/

inductive Layer
  | jwtMiddleware
  | authUser
  | authDevice
  deriving DecidableEq, Repr

def Layer.call (s : Server) (o : Outcomes) : Layer → Request → Except StatusCode Request
  | .jwtMiddleware, req => Api.jwtMiddleware s o req
  | .authUser, req => (Api.authUser req).map (fun _ => req)
  | .authDevice, req => (Api.authDevice req).map (fun _ => req)

inductive Method
  | get
  | post
  | put
  | patch
  | delete
  deriving DecidableEq, Repr

/-- A handler and the layers around it, the outermost first. -/
structure Endpoint where
  method : Method
  path : List String
  layers : List Layer
  deriving DecidableEq, Repr

abbrev Router := List Endpoint

namespace Router

def route (r : Router) (path : List String) (methods : List Method) : Router :=
  r ++ methods.map (fun m => ⟨m, path, []⟩)

def merge (r r' : Router) : Router := r ++ r'

def routeLayer (r : Router) (l : Layer) : Router := r.map (fun e => { e with layers := l :: e.layers })

def nest (r : Router) (root : String) (r' : Router) : Router := r ++ r'.map (fun e => { e with path := root :: e.path })

def new : Router := []

end Router

open Router (new)

def applicationAssignments.routes : Router :=
  (new.route ["app-assignments"] [.get, .post]).route ["app-assignments", "{id}"] [.get, .put, .delete]

def applicationConfigs.routes : Router :=
  (new.route ["app-configs"] [.get, .post]).route ["app-configs", "{id}"] [.get, .put, .delete]

def applications.routes : Router :=
  (new.route ["applications"] [.get, .post]).route ["applications", "{id}"] [.get, .put, .delete]

def devices.routes : Router :=
  (((new.route ["devices", "summary"] [.get]).route ["devices", "{id}", "summary"] [.get]).route ["devices"]
    [.get, .post]).route ["devices", "{id}"] [.get, .put, .patch, .delete]

def groups.routes : Router :=
  (new.route ["groups"] [.get, .post]).route ["groups", "{id}"] [.get, .put, .delete]

def logs.routes : Router :=
  ((new.route ["logs", "devices"] [.get]).route ["logs", "applications"] [.get]).route ["logs", "stream"] [.get]

def osAssignments.routes : Router :=
  (new.route ["os-assignments"] [.get, .post]).route ["os-assignments", "{id}"] [.get, .put, .delete]

def osVersions.routes : Router :=
  (new.route ["os-versions"] [.get, .post]).route ["os-versions", "{id}"] [.get, .put, .delete]

def pendingDeviceRegistrations.routes : Router :=
  (new.route ["pending-device-registrations"] [.get, .post]).route ["pending-device-registrations", "{id}"] [.delete]

def pings.routes : Router := new.route ["pings"] [.get]

def reportedApplicationAssignments.routes : Router :=
  (new.route ["reported-app-assignments"] [.get]).route ["reported-app-assignments", "{id}"] [.get, .delete]

def reportedOsAssignments.routes : Router :=
  (new.route ["reported-os-assignments"] [.get]).route ["reported-os-assignments", "{id}"] [.get, .delete]

def tenants.routes : Router :=
  (new.route ["tenants"] [.get, .post]).route ["tenants", "{id}"] [.get, .put, .delete]

def auditLog.routes : Router :=
  ((new.route ["audit-logs"] [.get]).route ["audit-logs", "{table_name}", "{record_id}"] [.get]).route
    ["audit-logs", "by-device", "{id}"] [.get]

def device.router : Router :=
  ((((new.route ["apps"] [.get, .put]).route ["logs"] [.post]).route ["os"] [.get, .put]).route ["ping"]
    [.put]).routeLayer .authDevice

/-- The routers behind the barrier for users. -/
def userRouter : Router :=
  [applicationAssignments.routes, applicationConfigs.routes, applications.routes, devices.routes, groups.routes,
    logs.routes, osAssignments.routes, osVersions.routes, pendingDeviceRegistrations.routes, pings.routes,
    reportedApplicationAssignments.routes, reportedOsAssignments.routes, tenants.routes,
    auditLog.routes].foldl Router.merge new

/-- `register` is added behind the middleware, so no layer is around it. -/
def routes : Router :=
  (((userRouter.routeLayer .authUser).nest "device" device.router).routeLayer .jwtMiddleware).route ["register"] [.post]

def Endpoint.underDevice (e : Endpoint) : Bool := decide (e.path.head? = some "device")

def Endpoint.isRegister (e : Endpoint) : Bool := decide (e.path.head? = some "register")

/-- The request as the handler gets it, or the status a layer has answered with. -/
def handle (s : Server) (o : Outcomes) : List Layer → Request → Except StatusCode Request
  | [], req => .ok req
  | l :: ls, req =>
    match l.call s o req with
    | .error status => .error status
    | .ok req' => handle s o ls req'

/-! ## What a validated token has shown -/

theorem stripBearer_eq_some (header token : String) (h : stripBearer header = some token) :
    header = "Bearer " ++ token := by
  unfold stripBearer at h
  split at h
  · rename_i hp
    obtain ⟨rest, hrest⟩ := List.isPrefixOf_iff_prefix.1 hp
    obtain rfl := Option.some.inj h
    have hto : header = String.ofList (bearer ++ rest) := by rw [hrest, String.ofList_toList]
    rw [← hrest, List.drop_left, hto, String.ofList_append]
    rfl
  · cases h

theorem isDeviceToken_eq_true (claims : Value) :
    isDeviceToken claims = true ↔ claims.get "role" = some (.string "device") := by
  unfold isDeviceToken
  cases hr : claims.get "role" with
  | none => simp
  | some v => cases v <;> simp [Value.asStr]

theorem extractClaim_eq_some (claim : Value) (key v : String) (h : extractClaim claim key = some v) :
    claim.get key = some (.string v) := by
  obtain ⟨w, hw, hv⟩ := Option.bind_eq_some_iff.1 h
  rw [hw, Value.asStr_eq_some w v hv]

/-- Claims that are found by key come from an object, and `exp` is in it once. -/
theorem DeviceToken.Claims.read_exp (payload : Value) (c : DeviceToken.Claims) (hr : isDeviceToken payload = true)
    (h : DeviceToken.Claims.read payload = some c) :
    payload.get "exp" = some (.number (.int c.exp)) ∧ c.exp < i64Limit := by
  cases payload with
  | object members =>
    obtain ⟨sub, -, h⟩ := Option.bind_eq_some_iff.1 h
    obtain ⟨exp, hexp, h⟩ := Option.bind_eq_some_iff.1 h
    obtain ⟨role, -, rfl⟩ := Option.map_eq_some_iff.1 h
    obtain ⟨v, hv, hi⟩ := Option.bind_eq_some_iff.1 hexp
    obtain ⟨rfl, hlt⟩ := Value.asI64_bounds v exp hi
    exact ⟨Value.get_of_field members "exp" _ hv, hlt⟩
  | null | bool | number | string | array => cases hr

/-- Where the clock is not before the epoch, no `i64` lies so far ahead that the difference wraps. -/
theorem within_lifetime (exp now : Int) (hexp : exp < i64Limit) (hnow : 0 ≤ now)
    (h : ¬ maxTokenLifetime < i64Sub (i64Sub exp now) 10) : exp ≤ now + maxTokenLifetime + 10 := by
  unfold i64Limit at hexp
  by_cases hle : exp ≤ now
  · have : (0 : Int) ≤ maxTokenLifetime := by decide
    omega
  · have h1 : i64Sub exp now = exp - now :=
      Int.bmod_eq_of_le (by unfold u64Limit; omega) (by unfold u64Limit; omega)
    have h2 : i64Sub (exp - now) 10 = exp - now - 10 :=
      Int.bmod_eq_of_le (by unfold u64Limit; omega) (by unfold u64Limit; omega)
    rw [h1, h2] at h
    omega

/-- What a device token has to show before a handler sees it: the payload that was read from it and the key that
verified it belong to the device. -/
structure DeviceToken.Valid (s : Server) (token : String) (d : DeviceModel) (payload : Value) (key : s.jwt.Key) :
    Prop where
  decoded : s.jwt.insecureDecode token = some payload
  role : payload.get "role" = some (.string "device")
  sub : payload.get "sub" = some (.string d.uuid)
  registered : d ∈ s.devices.rows
  pubkey : (d.publicKey.map DeviceModel.pubkeyDecoded).bind s.jwt.fromRsaPem = some key
  verified : s.jwt.verifies token key .rs256 = true
  unexpired : s.jwt.unexpired payload s.now = true
  lifetime : ∃ exp, payload.get "exp" = some (.number (.int exp)) ∧ exp ≤ s.now + maxTokenLifetime + 10

structure UserToken.Valid (s : Server) (token : String) (payload : Value) (key : s.jwt.Key) : Prop where
  decoded : s.jwt.insecureDecode token = some payload
  role : payload.get "role" ≠ some (.string "device")
  pubkey : s.jwt.fromRsaPem s.config.publicKey = some key
  verified : s.jwt.verifies token key .rs512 = true
  unexpired : s.jwt.unexpired payload s.now = true

theorem DeviceToken.validateToken_eq_ok (s : Server) (o : Outcomes) (token : String) (claims : Value) (c : ClientDevice)
    (hd : s.jwt.insecureDecode token = some claims) (hr : isDeviceToken claims = true)
    (h : DeviceToken.validateToken s o token claims = .ok c) :
    ∃ d key, DeviceToken.Valid s token d claims key ∧ c = ⟨d.id, d.groupId⟩ := by
  unfold DeviceToken.validateToken at h
  cases hsub : extractClaim claims "sub" with
  | none => rw [hsub] at h; cases h
  | some uuid =>
    cases ho : o.getDeviceByUuid with
    | error e => rw [hsub, ho] at h; cases h
    | ok u =>
      cases hdev : s.devices.getDeviceByUuid uuid with
      | none => simp only [hsub, ho, hdev] at h; cases h
      | some d =>
        cases hpub : d.publicKey with
        | none => simp only [hsub, ho, hdev, hpub] at h; cases h
        | some pubkey =>
          simp only [hsub, ho, hdev, hpub] at h
          split at h
          · cases h
          · rename_i verified hv
            obtain ⟨key, hkey, hdec⟩ := Option.bind_eq_some_iff.1 hv
            obtain ⟨payload, hp, hver, hunexp, hread⟩ := (s.jwt.decode_eq_some _ _ _ _ _ _).1 hdec
            obtain rfl := Option.some.inj (hd.symm.trans hp)
            obtain ⟨hexp, hlt⟩ := DeviceToken.Claims.read_exp claims verified hr hread
            split at h
            · cases h
            · rename_i hlife
              obtain ⟨hmem, rfl⟩ := s.devices.getDeviceByUuid_eq_some uuid d hdev
              refine ⟨d, key, ⟨hd, (isDeviceToken_eq_true claims).1 hr, extractClaim_eq_some claims "sub" d.uuid hsub, hmem,
                ?_, hver, hunexp, verified.exp, hexp, ?_⟩, (Except.ok.inj h).symm⟩
              · rw [hpub]; exact hkey
              · exact within_lifetime verified.exp s.now hlt (s.jwt.epoch claims s.now hunexp) hlife

theorem UserToken.validateToken_eq_some (s : Server) (token : String) (claims : Value) (c : UserToken.Claims)
    (hd : s.jwt.insecureDecode token = some claims) (hr : isDeviceToken claims = false)
    (h : UserToken.validateToken s token = some c) : ∃ key, UserToken.Valid s token claims key := by
  obtain ⟨payload, h, -⟩ := Option.bind_eq_some_iff.1 h
  obtain ⟨key, hkey, hdec⟩ := Option.bind_eq_some_iff.1 h
  obtain ⟨payload', hp, hver, hunexp, -⟩ := (s.jwt.decode_eq_some _ _ _ _ _ _).1 hdec
  obtain rfl := Option.some.inj (hd.symm.trans hp)
  refine ⟨key, hd, fun hrole => ?_, hkey, hver, hunexp⟩
  rw [(isDeviceToken_eq_true claims).2 hrole] at hr
  cases hr

/-! ## Which layers an endpoint has -/

theorem layers_of_underDevice : ∀ e ∈ routes, e.underDevice = true → e.layers = [.jwtMiddleware, .authDevice] := by
  decide

theorem layers_of_user : ∀ e ∈ routes, e.underDevice = false → e.isRegister = false →
    e.layers = [.jwtMiddleware, .authUser] := by
  decide

theorem layers_of_register : ∀ e ∈ routes, e.isRegister = true → e.layers = [] := by
  decide

/-! ## Token separation -/

/-- The middleware lets a request through with the one identity its token has shown. -/
theorem jwtMiddleware_eq_ok (s : Server) (o : Outcomes) (authorization : Option String) (req : Request)
    (h : jwtMiddleware s o (.fresh authorization) = .ok req) : ∃ token payload,
      authorization = some ("Bearer " ++ token) ∧
      ((∃ d key, DeviceToken.Valid s token d payload key ∧ req = ⟨authorization, some ⟨d.id, d.groupId⟩, none⟩) ∨
        ∃ key claims, UserToken.Valid s token payload key ∧ req = ⟨authorization, none, some claims⟩) := by
  unfold jwtMiddleware at h
  cases ht : (Request.fresh authorization).authorization.bind stripBearer with
  | none => rw [ht] at h; cases h
  | some token =>
    obtain ⟨header, hh, hs⟩ := Option.bind_eq_some_iff.1 ht
    rw [ht] at h
    cases hd : s.jwt.insecureDecode token with
    | none => simp only [hd] at h; cases h
    | some claims =>
      refine ⟨token, claims, hh.trans (by rw [stripBearer_eq_some header token hs]), ?_⟩
      by_cases hr : isDeviceToken claims = true
      · simp only [hd, hr, if_true] at h
        split at h
        · rename_i c hc
          obtain ⟨d, key, hv, rfl⟩ := DeviceToken.validateToken_eq_ok s o token claims c hd hr hc
          exact .inl ⟨d, key, hv, (Except.ok.inj h).symm⟩
        · cases h
        · cases h
      · simp only [hd, hr] at h
        cases hv : UserToken.validateToken s token with
        | none => simp [hv] at h
        | some c =>
          simp only [hv, Bool.false_eq_true, if_false] at h
          split at h
          · cases h
          · split at h
            · cases h
            · obtain ⟨key, hkey⟩ :=
                UserToken.validateToken_eq_some s token claims c hd (Bool.eq_false_iff.2 hr) hv
              exact .inr ⟨key, c, hkey, (Except.ok.inj h).symm⟩

theorem handle_cons_eq_ok (s : Server) (o : Outcomes) (l : Layer) (ls : List Layer) (req req' : Request) :
    handle s o (l :: ls) req = .ok req' ↔ ∃ r, l.call s o req = .ok r ∧ handle s o ls r = .ok req' := by
  rw [handle]
  cases l.call s o req with
  | error e => simp
  | ok r => simp

/-- An extractor used as a layer passes the request on as it came. -/
theorem authDevice_call (s : Server) (o : Outcomes) (req req' : Request)
    (h : Layer.authDevice.call s o req = .ok req') : req' = req ∧ ∃ c, req.client = some c ∧ authDevice req = .ok c := by
  unfold Layer.call at h
  cases hc : req.client with
  | none => simp only [authDevice, hc] at h; cases h
  | some c =>
    simp only [authDevice, hc] at h
    exact ⟨(Except.ok.inj h).symm, c, rfl, by rw [authDevice, hc]⟩

theorem authUser_call (s : Server) (o : Outcomes) (req req' : Request)
    (h : Layer.authUser.call s o req = .ok req') : req' = req ∧ ∃ c, req.user = some c := by
  unfold Layer.call at h
  cases hc : req.user with
  | none => simp only [authUser, hc] at h; cases h
  | some c =>
    simp only [authUser, hc] at h
    exact ⟨(Except.ok.inj h).symm, c, rfl⟩

def Request.OneIdentity (req : Request) : Prop := req.client = none ∨ req.user = none

theorem oneIdentity_of_handle (s : Server) (o : Outcomes) (authorization : Option String) : ∀ e ∈ routes, ∀ ls,
    ls <+: e.layers → ∀ req, handle s o ls (.fresh authorization) = .ok req → req.OneIdentity := by
  have hjwt : ∀ req, jwtMiddleware s o (.fresh authorization) = .ok req → req.OneIdentity := by
    intro req h
    obtain ⟨-, -, -, ⟨d, key, -, rfl⟩ | ⟨key, c, -, rfl⟩⟩ := jwtMiddleware_eq_ok s o authorization req h
    · exact .inr rfl
    · exact .inl rfl
  have hbarrier : ∀ b : Layer, (∀ r r', b.call s o r = .ok r' → r' = r) → ∀ ls, ls <+: [.jwtMiddleware, b] → ∀ req,
      handle s o ls (.fresh authorization) = .ok req → req.OneIdentity := by
    intro b hb ls hls req h
    rcases List.prefix_cons_iff.1 hls with rfl | ⟨ls₁, rfl, h₁⟩
    · obtain rfl := Except.ok.inj h
      exact .inl rfl
    obtain ⟨r, hr, h⟩ := (handle_cons_eq_ok s o _ _ _ _).1 h
    rcases List.prefix_cons_iff.1 h₁ with rfl | ⟨ls₂, rfl, h₂⟩
    · obtain rfl := Except.ok.inj h
      exact hjwt r hr
    obtain ⟨r', hr', h⟩ := (handle_cons_eq_ok s o _ _ _ _).1 h
    obtain rfl := List.prefix_nil.1 h₂
    obtain rfl := Except.ok.inj h
    obtain rfl := hb r r' hr'
    exact hjwt _ hr
  intro e he ls hls
  cases hu : e.underDevice with
  | true =>
    rw [layers_of_underDevice e he hu] at hls
    exact hbarrier _ (fun r r' h => (authDevice_call s o r r' h).1) ls hls
  | false =>
    cases hreg : e.isRegister with
    | false =>
      rw [layers_of_user e he hu hreg] at hls
      exact hbarrier _ (fun r r' h => (authUser_call s o r r' h).1) ls hls
    | true =>
      rw [layers_of_register e he hreg] at hls
      rintro req h
      obtain rfl := List.prefix_nil.1 hls
      obtain rfl := Except.ok.inj h
      exact .inl rfl

/-- **A device's handler runs for a token of that device alone, a user's handler for a token of the configured issuer
that does not claim to be a device's, and no request carries both identities at any layer.** -/
theorem token_separation (s : Server) (o : Outcomes) (authorization : Option String) :
    (∀ e ∈ routes, e.underDevice = true → ∀ req, handle s o e.layers (.fresh authorization) = .ok req →
      ∃ token d payload key, authorization = some ("Bearer " ++ token) ∧ DeviceToken.Valid s token d payload key ∧
        authDevice req = .ok ⟨d.id, d.groupId⟩) ∧
    (∀ e ∈ routes, e.underDevice = false → e.isRegister = false → ∀ req,
      handle s o e.layers (.fresh authorization) = .ok req →
      ∃ token payload key, authorization = some ("Bearer " ++ token) ∧ UserToken.Valid s token payload key) ∧
    (∀ e ∈ routes, ∀ ls, ls <+: e.layers → ∀ req, handle s o ls (.fresh authorization) = .ok req →
      req.client = none ∨ req.user = none) := by
  refine ⟨?_, ?_, oneIdentity_of_handle s o authorization⟩
  · intro e he hd req h
    rw [layers_of_underDevice e he hd] at h
    obtain ⟨r, hr, h⟩ := (handle_cons_eq_ok s o _ _ _ _).1 h
    obtain ⟨r', hr', h⟩ := (handle_cons_eq_ok s o _ _ _ _).1 h
    obtain rfl := Except.ok.inj h
    obtain ⟨rfl, c, hc, hauth⟩ := authDevice_call s o r r' hr'
    obtain ⟨token, payload, htok, ⟨d, key, hv, rfl⟩ | ⟨key, u, -, rfl⟩⟩ := jwtMiddleware_eq_ok s o authorization _ hr
    · exact ⟨token, d, payload, key, htok, hv, rfl⟩
    · cases hc
  · intro e he hd hreg req h
    rw [layers_of_user e he hd hreg] at h
    obtain ⟨r, hr, h⟩ := (handle_cons_eq_ok s o _ _ _ _).1 h
    obtain ⟨r', hr', h⟩ := (handle_cons_eq_ok s o _ _ _ _).1 h
    obtain rfl := Except.ok.inj h
    obtain ⟨rfl, u, hu⟩ := authUser_call s o r r' hr'
    obtain ⟨token, payload, htok, ⟨d, key, -, rfl⟩ | ⟨key, -, hv, -⟩⟩ := jwtMiddleware_eq_ok s o authorization _ hr
    · cases hu
    · exact ⟨token, payload, key, htok, hv⟩

/-- A server with one registered device, for which the token `d` is signed; the issuer has signed `u`. -/
def oneDevice : Server where
  jwt :=
    { Key := String
      insecureDecode := fun token =>
        if token = "d" then
          some (.object [("sub", .string "pi"), ("exp", .number (.int 1300)), ("role", .string "device")])
        else if token = "u" then
          some (.object [("sub", .string "ada"), ("name", .string "Ada"), ("exp", .number (.int 1300))])
        else none
      fromRsaPem := some
      verifies := fun token key algorithm =>
        decide (token = "d" ∧ key = "k" ∧ algorithm = .rs256 ∨ token = "u" ∧ key = "issuer" ∧ algorithm = .rs512)
      unexpired := fun payload now =>
        decide (0 ≤ now) && ((payload.get "exp").bind Value.asI64).any (fun exp => decide (now ≤ exp + 60))
      epoch := fun _ _ h => of_decide_eq_true (Bool.and_eq_true_iff.1 h).1 }
  config := ⟨"sub", "name", "issuer"⟩
  devices := ⟨[⟨7, "pi", some "k", "SN", 1, some 3⟩], 8, by decide, by decide⟩
  now := 1000

def allAnswered : Outcomes := ⟨.ok (), .ok (), .ok ()⟩

theorem token_separation_served :
    (handle oneDevice allAnswered [.jwtMiddleware, .authDevice] (.fresh (some "Bearer d")) =
      .ok ⟨some "Bearer d", some ⟨7, some 3⟩, none⟩ ∧
      ∃ token d payload key, some "Bearer d" = some ("Bearer " ++ token) ∧
        DeviceToken.Valid oneDevice token d payload key ∧
        authDevice ⟨some "Bearer d", some ⟨7, some 3⟩, none⟩ = .ok ⟨d.id, d.groupId⟩) ∧
    (handle oneDevice allAnswered [.jwtMiddleware, .authUser] (.fresh (some "Bearer u")) =
      .ok ⟨some "Bearer u", none, some ⟨"ada", "Ada", 1300⟩⟩ ∧
      ∃ token payload key, some "Bearer u" = some ("Bearer " ++ token) ∧ UserToken.Valid oneDevice token payload key) :=
  have hd : handle oneDevice allAnswered [.jwtMiddleware, .authDevice] (.fresh (some "Bearer d")) =
      .ok ⟨some "Bearer d", some ⟨7, some 3⟩, none⟩ := by decide
  have hu : handle oneDevice allAnswered [.jwtMiddleware, .authUser] (.fresh (some "Bearer u")) =
      .ok ⟨some "Bearer u", none, some ⟨"ada", "Ada", 1300⟩⟩ := by decide
  ⟨⟨hd, (token_separation oneDevice allAnswered (some "Bearer d")).1
    ⟨.get, ["device", "apps"], [.jwtMiddleware, .authDevice]⟩ (by decide) (by decide) _ hd⟩,
    hu, (token_separation oneDevice allAnswered (some "Bearer u")).2.1
    ⟨.get, ["devices"], [.jwtMiddleware, .authUser]⟩ (by decide) (by decide) (by decide) _ hu⟩

end Api
end ZeroDowntime
