import ZeroDowntime.ApiAuth
import ZeroDowntime.Runs
/-!
# DeviceJwt — the token a device shows

`DeviceJwtProvider` keeps a token and the time it expires, and signs a new one when that time is near.  The new expiry is
recorded before the signing, which may fail: the token of old then passes for the new one (`token_fresh_iff`).
-/
namespace ZeroDowntime
namespace Jwt

open Api (Algorithm DeviceToken.Claims maxTokenLifetime i64Sub i64Limit u64Limit)
open Runs (run Along)

abbrev Error := String

/-! ## Clocks

A time counts the nanoseconds from the epoch; a token and the server count whole seconds. -/

def second : Int := 1000000000

def refreshBefore : Int := 30 * second

def asSecs (time : Int) : Int := time / second

/-! ## The provider -/

/-- The token before the first signing is the empty string; a signed one is the base64 of these. -/
inductive Token
  | empty
  | signed (algorithm : Algorithm) (claims : DeviceToken.Claims) (signature : String)
  deriving DecidableEq, Repr

structure DeviceJwtProvider where
  currentToken : Token
  expireTime : Int
  deriving DecidableEq, Repr

def DeviceJwtProvider.new : DeviceJwtProvider := ⟨.empty, 0⟩

/-- `signature` is what the TPM answers.  A time before the epoch has no duration since. -/
def createSignedJwt (deviceUuid : String) (expireTime : Int) (signature : Except Error String) : Except Error Token :=
  if expireTime < 0 then .error "second time provided was later than self"
  else
    match signature with
    | .error e => .error e
    | .ok s => .ok (.signed .rs256 ⟨deviceUuid, asSecs expireTime, "device"⟩ s)

/-- The clock is read to decide whether to refresh, and, if so, a second time. -/
structure Call where
  now : Int
  renewed : Int
  signature : Except Error String

def DeviceJwtProvider.due (p : DeviceJwtProvider) (now : Int) : Prop := p.expireTime < now + refreshBefore

instance (p : DeviceJwtProvider) (now : Int) : Decidable (p.due now) := inferInstanceAs (Decidable (_ < _))

def DeviceJwtProvider.token (p : DeviceJwtProvider) (deviceUuid : String) (c : Call) :
    DeviceJwtProvider × Except Error Token :=
  if p.due c.now then
    let expireTime := c.renewed + maxTokenLifetime * second
    match createSignedJwt deviceUuid expireTime c.signature with
    | .error e => ({ p with expireTime := expireTime }, .error e)
    | .ok t => (⟨t, expireTime⟩, .ok t)
  else (p, .ok p.currentToken)

/-! ## Calls one after the other -/

/-- The provider, the last reading of the clock, and the expiry that the last successful signing was for. -/
structure Device where
  provider : DeviceJwtProvider
  clock : Int
  signedUntil : Option Int

def Device.init (clock : Int) : Device := ⟨.new, clock, none⟩

/-- The last reading of the clock in the call. -/
def Device.time (d : Device) (c : Call) : Int := if d.provider.due c.now then c.renewed else c.now

/-- One call; the clock does not go back. -/
def Device.call (deviceUuid : String) (d : Device) (c : Call) : Option Device :=
  if d.clock ≤ c.now ∧ c.now ≤ c.renewed then
    some
      { provider := (d.provider.token deviceUuid c).1
        clock := d.time c
        signedUntil :=
          if d.provider.due c.now ∧ (d.provider.token deviceUuid c).2.isOk then
            some (d.provider.token deviceUuid c).1.expireTime
          else d.signedUntil }
  else none

/-- Expiring, to the second, between 30 and 300 seconds from now, and within the lifetime that a server allows whose clock
is at most ten seconds behind. -/
structure Timely (now exp : Int) : Prop where
  late : asSecs (now + refreshBefore) ≤ exp
  early : exp ≤ asSecs (now + maxTokenLifetime * second)
  accepted : ∀ server, now - 10 * second ≤ server → exp - asSecs server - 10 ≤ maxTokenLifetime

def Token.exp? : Token → Option Int
  | .empty => none
  | .signed _ claims _ => some claims.exp

/-- **Signed for the device, and timely.** -/
def Token.Fresh (deviceUuid : String) (now : Int) (t : Token) : Prop :=
  (∃ expireTime signature, createSignedJwt deviceUuid expireTime signature = .ok t) ∧
    ∃ exp, t.exp? = some exp ∧ Timely now exp

/-- The call is due to refresh, or the recorded expiry is that of the last successful signing; or that signing's expiry is in
the same second as thirty seconds from now. -/
def Device.Covered (d : Device) (c : Call) : Prop :=
  d.provider.due c.now ∨ d.signedUntil = some d.provider.expireTime ∨
    d.signedUntil.map asSecs = some (asSecs (c.now + refreshBefore))

instance (d : Device) (c : Call) : Decidable (d.Covered c) := inferInstanceAs (Decidable (_ ∨ _ ∨ _))

theorem asSecs_mono {a b : Int} (h : a ≤ b) : asSecs a ≤ asSecs b := Int.ediv_le_ediv (by decide) h

theorem asSecs_add (time secs : Int) : asSecs (time + secs * second) = asSecs time + secs :=
  Int.add_mul_ediv_right _ _ (by decide)

theorem createSignedJwt_eq_ok (deviceUuid : String) (expireTime : Int) (signature : Except Error String) (t : Token) :
    createSignedJwt deviceUuid expireTime signature = .ok t ↔ 0 ≤ expireTime ∧
      ∃ s, signature = .ok s ∧ t = .signed .rs256 ⟨deviceUuid, asSecs expireTime, "device"⟩ s := by
  unfold createSignedJwt
  split
  · rename_i hneg
    simp [Int.not_le.2 hneg]
  · rename_i hneg
    cases signature with
    | error e => simp
    | ok s => simp [Int.not_lt.1 hneg, eq_comm]

/-- An expiry within the lifetime is timely exactly if it is late enough. -/
theorem timely_iff {now expireTime : Int} (h : expireTime ≤ now + maxTokenLifetime * second) :
    Timely now (asSecs expireTime) ↔ asSecs (now + refreshBefore) ≤ asSecs expireTime := by
  refine ⟨Timely.late, fun hlate => ⟨hlate, asSecs_mono h, fun server hserver => ?_⟩⟩
  have hexp : asSecs expireTime ≤ asSecs now + maxTokenLifetime := asSecs_add now _ ▸ asSecs_mono h
  have hclock : asSecs now ≤ asSecs server + 10 := by
    rw [← asSecs_add]
    exact asSecs_mono (by omega)
  omega

/-- **The server's own check of the lifetime lets a timely expiry pass**, where the times fit an `i64`. -/
theorem Timely.passes {now exp server : Int} (h : Timely now exp) (hbehind : now - 10 * second ≤ server)
    (hexp : 0 ≤ exp ∧ exp < i64Limit) (hserver : 0 ≤ asSecs server ∧ asSecs server + 10 ≤ i64Limit) :
    ¬ maxTokenLifetime < i64Sub (i64Sub exp (asSecs server)) 10 := by
  have hacc := h.accepted server hbehind
  unfold i64Limit at hexp hserver
  have h1 : i64Sub exp (asSecs server) = exp - asSecs server :=
    Int.bmod_eq_of_le (by unfold u64Limit; omega) (by unfold u64Limit; omega)
  have h2 : i64Sub (exp - asSecs server) 10 = exp - asSecs server - 10 :=
    Int.bmod_eq_of_le (by unfold u64Limit; omega) (by unfold u64Limit; omega)
  rw [h1, h2]
  exact Int.not_lt.2 hacc

theorem fresh_iff {deviceUuid : String} {now expireTime : Int} {signature : Except Error String} {t : Token}
    (ht : createSignedJwt deviceUuid expireTime signature = .ok t) (h : expireTime ≤ now + maxTokenLifetime * second) :
    t.Fresh deviceUuid now ↔ asSecs (now + refreshBefore) ≤ asSecs expireTime := by
  obtain ⟨-, s, -, rfl⟩ := (createSignedJwt_eq_ok _ _ _ _).1 ht
  rw [← timely_iff h]
  constructor
  · rintro ⟨-, exp, hexp, htimely⟩
    obtain rfl := Option.some.inj hexp
    exact htimely
  · exact fun htimely => ⟨⟨_, _, ht⟩, _, rfl, htimely⟩

/-- A call that is not due, one that signs in vain, and one that signs. -/
theorem DeviceJwtProvider.token_cases (p : DeviceJwtProvider) (deviceUuid : String) (c : Call) :
    (¬ p.due c.now ∧ p.token deviceUuid c = (p, .ok p.currentToken)) ∨
    (p.due c.now ∧ ∃ e, p.token deviceUuid c
      = ({ p with expireTime := c.renewed + maxTokenLifetime * second }, .error e)) ∨
    (p.due c.now ∧ ∃ t, createSignedJwt deviceUuid (c.renewed + maxTokenLifetime * second) c.signature = .ok t ∧
      p.token deviceUuid c = (⟨t, c.renewed + maxTokenLifetime * second⟩, .ok t)) := by
  unfold DeviceJwtProvider.token
  by_cases hdue : p.due c.now
  · simp only [hdue, if_true, not_true_eq_false, false_and, false_or, true_and]
    cases createSignedJwt deviceUuid (c.renewed + maxTokenLifetime * second) c.signature with
    | error e => exact .inl ⟨e, rfl⟩
    | ok t => exact .inr ⟨t, rfl, rfl⟩
  · exact .inl ⟨hdue, if_neg hdue⟩

/-! ## What the calls keep -/

/-- The token is the one that was signed last; its expiry is the recorded one, or it has come due. -/
structure Device.Cached (deviceUuid : String) (d : Device) : Prop where
  unsigned : d.signedUntil = none → d.provider.currentToken = .empty
  signed : ∀ expireTime, d.signedUntil = some expireTime →
    (∃ signature, createSignedJwt deviceUuid expireTime signature = .ok d.provider.currentToken) ∧
    expireTime ≤ d.clock + maxTokenLifetime * second ∧
    (expireTime = d.provider.expireTime ∨ expireTime < d.clock + refreshBefore)

variable {deviceUuid : String} {d d' : Device} {c : Call}

theorem Device.clock_of_call (hs : d.call deviceUuid c = some d') : d.clock ≤ c.now ∧ c.now ≤ c.renewed := by
  unfold Device.call at hs
  split at hs
  · assumption
  · cases hs

theorem Device.call_cases (hs : d.call deviceUuid c = some d') :
    (¬ d.provider.due c.now ∧ d' = ⟨d.provider, c.now, d.signedUntil⟩) ∨
    (d.provider.due c.now ∧
      d' = ⟨{ d.provider with expireTime := c.renewed + maxTokenLifetime * second }, c.renewed, d.signedUntil⟩) ∨
    (d.provider.due c.now ∧ ∃ t, createSignedJwt deviceUuid (c.renewed + maxTokenLifetime * second) c.signature = .ok t ∧
      d' = ⟨⟨t, c.renewed + maxTokenLifetime * second⟩, c.renewed, some (c.renewed + maxTokenLifetime * second)⟩) := by
  rw [Device.call, if_pos (Device.clock_of_call hs)] at hs
  obtain rfl := Option.some.inj hs
  rcases d.provider.token_cases deviceUuid c with ⟨hdue, htok⟩ | ⟨hdue, e, htok⟩ | ⟨hdue, t, ht, htok⟩
  · exact .inl ⟨hdue, by simp [Device.time, htok, hdue]⟩
  · exact .inr (.inl ⟨hdue, by simp [Device.time, htok, hdue, Except.isOk, Except.toBool]⟩)
  · exact .inr (.inr ⟨hdue, t, ht, by simp [Device.time, htok, hdue, Except.isOk, Except.toBool]⟩)

theorem Device.cached_init (deviceUuid : String) (clock : Int) : (Device.init clock).Cached deviceUuid where
  unsigned := fun _ => rfl
  signed := fun _ h => nomatch h

/-- As long as nothing is signed, a recorded expiry may only give way to another when it is due. -/
theorem Device.Cached.keep (h : d.Cached deviceUuid) (hsigned : d'.signedUntil = d.signedUntil)
    (htoken : d'.provider.currentToken = d.provider.currentToken) (hclock : d.clock ≤ d'.clock)
    (hexpire : d'.provider.expireTime = d.provider.expireTime ∨ d.provider.due d'.clock) : d'.Cached deviceUuid where
  unsigned := by rw [hsigned, htoken]; exact h.unsigned
  signed := by
    rw [hsigned, htoken]
    intro expireTime hs
    obtain ⟨hcreated, hle, hold⟩ := h.signed expireTime hs
    refine ⟨hcreated, by omega, ?_⟩
    unfold DeviceJwtProvider.due at hexpire
    omega

theorem Device.Cached.call (h : d.Cached deviceUuid) (hs : d.call deviceUuid c = some d') : d'.Cached deviceUuid := by
  obtain ⟨hnow, hrenewed⟩ := Device.clock_of_call hs
  rcases Device.call_cases hs with ⟨-, rfl⟩ | ⟨hdue, rfl⟩ | ⟨-, t, ht, rfl⟩
  · exact h.keep rfl rfl hnow (.inl rfl)
  · refine h.keep rfl rfl (Int.le_trans hnow hrenewed) (.inr ?_)
    unfold DeviceJwtProvider.due at *
    exact Int.lt_of_lt_of_le hdue (Int.add_le_add_right hrenewed _)
  · refine ⟨(fun hn => nomatch hn), fun expireTime hs => ?_⟩
    obtain rfl := Option.some.inj hs
    exact ⟨⟨_, ht⟩, Int.le_refl _, .inl rfl⟩

/-! ## When the token is fresh -/

/-- **A token that is returned is fresh exactly if the call is covered.** -/
theorem Device.Cached.fresh_iff (h : d.Cached deviceUuid) (hs : d.call deviceUuid c = some d') :
    (∀ t, (d.provider.token deviceUuid c).2 = .ok t → t.Fresh deviceUuid (d.time c)) ↔ d.Covered c := by
  obtain ⟨hnow, hrenewed⟩ := Device.clock_of_call hs
  rcases d.provider.token_cases deviceUuid c with ⟨hdue, htok⟩ | ⟨hdue, e, htok⟩ | ⟨hdue, t, ht, htok⟩
  · simp only [htok, Device.time, hdue, if_false, Except.ok.injEq, forall_eq', Device.Covered, false_or]
    have hlate : c.now + refreshBefore ≤ d.provider.expireTime := Int.not_lt.1 hdue
    cases hsig : d.signedUntil with
    | none =>
      rw [h.unsigned hsig]
      refine iff_of_false (fun hfresh => ?_) (by simp)
      obtain ⟨-, exp, hexp, -⟩ := hfresh
      cases hexp
    | some expireTime =>
      obtain ⟨⟨signature, ht⟩, hle, hold⟩ := h.signed expireTime hsig
      rw [Jwt.fresh_iff ht (by omega)]
      simp only [Option.some.injEq, Option.map_some]
      constructor
      · intro hfresh
        refine hold.imp_right fun hpast => Int.le_antisymm ?_ hfresh
        exact asSecs_mono (by omega)
      · rintro (rfl | hsame)
        · exact asSecs_mono hlate
        · exact Int.le_of_eq hsame.symm
  · rw [htok]
    exact iff_of_true (fun _ ht => nomatch ht) (.inl hdue)
  · refine iff_of_true (fun t' ht' => ?_) (.inl hdue)
    rw [htok] at ht'
    obtain rfl := Except.ok.inj ht'
    rw [Device.time, if_pos hdue, Jwt.fresh_iff ht (Int.le_refl _)]
    exact asSecs_mono (Int.add_le_add_left (by decide) _)

/-- **Every token returned is fresh, exactly if every call is covered**: it refreshes, or the recorded expiry is that of the
last successful signing, or that signing's expiry is in the same second as thirty seconds from now. -/
theorem token_fresh_iff (deviceUuid : String) (clock : Int) (calls : List Call) (d : Device)
    (hrun : run (Device.call deviceUuid) (.init clock) calls = some d) :
    Along (Device.call deviceUuid) (fun d c => ∀ t, (d.provider.token deviceUuid c).2 = .ok t →
      t.Fresh deviceUuid (d.time c)) (.init clock) calls ↔
    Along (Device.call deviceUuid) Device.Covered (.init clock) calls :=
  Runs.along_congr (fun _ _ _ h hs => h.call hs) (fun _ _ _ h hs => h.fresh_iff hs) (Device.cached_init deviceUuid clock)
    hrun

def signs (secs : Int) : Call := ⟨secs * second, secs * second, .ok "signature"⟩

def signsNot (secs : Int) : Call := ⟨secs * second, secs * second, .error "TPM is busy"⟩

theorem token_fresh_signing : ∃ d, run (Device.call "device") (.init 0) [signs 1000, signs 1200, signs 1271] = some d ∧
    Along (Device.call "device") (fun d c => ∀ t, (d.provider.token "device" c).2 = .ok t →
      t.Fresh "device" (d.time c)) (.init 0) [signs 1000, signs 1200, signs 1271] :=
  ⟨_, rfl, (token_fresh_iff "device" 0 _ _ rfl).2 (by decide)⟩

/-- **After a signing that failed the next call returns the empty token**, and four and a half minutes later still. -/
theorem failed_signing_returns_empty : ∃ d, run (Device.call "device") (.init 0) [signsNot 1000] = some d ∧
    (d.provider.token "device" (signs 1001)).2 = .ok .empty ∧ (d.provider.token "device" (signs 1270)).2 = .ok .empty ∧
    ¬ Token.Fresh "device" (d.time (signs 1001)) .empty :=
  ⟨_, rfl, rfl, rfl, fun ⟨_, _, hexp, _⟩ => nomatch hexp⟩

end Jwt
end ZeroDowntime
