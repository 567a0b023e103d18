import ProjectVault.Delegation.Verify

/-!
The burn of an accepted assertion: the input rules of the replay store
(`delegation-replay-store`) and the stage that answers the request (`delegation-stages`).
-/

namespace Delegation

open Js

/-! ### The store -/

structure DelegationBurnInput where
  orgId : Units
  jti : Units
  kid : Units
  assertionExpiresAtSeconds : ℚ

/-- `delegation burn input: <field> <rule>`. -/
structure DelegationBurnInputError where
  field : String
  rule : String
  deriving DecidableEq

def delegationBurnSkewSeconds : ℤ := 30

/-- Lifetime, skew and tolerance. -/
def maxExpAheadSeconds : ℤ := 60 + delegationBurnSkewSeconds + 5

def maxKeyBytes : ℕ := 128

/-- `/[\u0000-\u001f\u007f-\u009f]/.test(value)`. -/
def hasControlCharacter (s : Units) : Bool :=
  s.any fun c => c ≤ 0x1F || (0x7F ≤ c && c ≤ 0x9F)

def assertKey (field : String) (value : Units) : Except DelegationBurnInputError Unit :=
  if byteLength value < 1 ∨ byteLength value > maxKeyBytes then
    .error ⟨field, "must be 1..128 UTF-8 bytes"⟩
  else if hasControlCharacter value then .error ⟨field, "must not contain control characters"⟩
  else if hasLoneSurrogate value then
    .error ⟨field, "must be well-formed UTF-16 (no lone surrogate)"⟩
  else .ok ()

def isHexUnit (c : UInt16) : Bool :=
  (UInt16.ofNat '0'.toNat ≤ c && c ≤ UInt16.ofNat '9'.toNat) ||
    (UInt16.ofNat 'a'.toNat ≤ c && c ≤ UInt16.ofNat 'f'.toNat) ||
    (UInt16.ofNat 'A'.toNat ≤ c && c ≤ UInt16.ofNat 'F'.toNat)

/-- `/^[0-9a-f]{8}-[0-9a-f]{4}-[0-9a-f]{4}-[0-9a-f]{4}-[0-9a-f]{12}$/i`. -/
def isUuid (s : Units) : Bool :=
  (s.splitOn (UInt16.ofNat '-'.toNat)).map List.length == [8, 4, 4, 4, 12] &&
    s.all fun c => isHexUnit c || c == UInt16.ofNat '-'.toNat

/-- A rule of the input, reported when it is broken. -/
def require (holds : Bool) (field rule : String) : Except DelegationBurnInputError Unit :=
  if holds then .ok () else .error ⟨field, rule⟩

def assertInput (input : DelegationBurnInput) (nowSeconds : ℤ) :
    Except DelegationBurnInputError Unit := do
  require (isUuid input.orgId) "orgId" "must be a UUID"
  assertKey "jti" input.jti
  assertKey "kid" input.kid
  let exp := input.assertionExpiresAtSeconds
  require (isSafeInteger exp && 1 ≤ exp) "assertionExpiresAtSeconds"
    "must be a positive integer of epoch seconds"
  require (exp ≤ toDouble (nowSeconds + maxExpAheadSeconds)) "assertionExpiresAtSeconds"
    "must be at most 95 s ahead of now"

/-- The fields of a database error that the classifier reads. -/
structure PgErrorFields where
  code : Option String
  constraintName : Option String

inductive DelegationBurnOutcome where
  | burned
  | replayed
  | storeUnavailable (sqlState : Option String) (timedOut : Bool)
  deriving DecidableEq

def driverErrnoCodes : List String :=
  ["EPIPE", "ECONNRESET", "ECONNREFUSED", "ECONNABORTED", "ETIMEDOUT", "ENOTFOUND", "EAI_AGAIN",
    "EHOSTUNREACH", "ENETUNREACH"]

def isRealSqlState (code : String) : Bool :=
  code.length == 5 && (code.toList.all fun c => c.isDigit || ('A' ≤ c && c ≤ 'Z')) &&
    code.toList.any Char.isDigit && code ∉ driverErrnoCodes

def classifyDelegationBurnError (e : PgErrorFields) : DelegationBurnOutcome :=
  let sqlState := e.code.filter isRealSqlState
  if sqlState = some "23505" ∧ (e.constraintName = none ∨
      e.constraintName = some "delegation_assertion_jti_org_id_jti_pk") then .replayed
  else .storeUnavailable sqlState false

/-- `Math.floor(now() / 1000)`. -/
def TimeValue.nowSeconds (t : TimeValue) : ℤ := ⌊t.seconds⌋

/-- The burn at a clock reading, its transaction committing or failing with `run`. -/
def burnDelegationAssertion (input : DelegationBurnInput) (now : TimeValue)
    (run : Except PgErrorFields Unit) : Except DelegationBurnInputError DelegationBurnOutcome := do
  assertInput input now.nowSeconds
  match run with
  | .ok () => return .burned
  | .error e => return classifyDelegationBurnError e

/-! ### The stage -/

/-- How the burn stage answers: the request goes on, or it is refused. -/
inductive BurnAnswer where
  | admitted
  | delegationReplayed
  | replayStoreUnavailable
  | internalError
  deriving DecidableEq

/-- `burn(request, reply, routeKey, claims, orgId)`; the deadline may end the wait for the store
before it has settled. -/
def burnStage (claims : DelegationVerifiedClaims) (orgId : Units) (now : TimeValue)
    (run : Except PgErrorFields Unit) (deadline : Bool) : BurnAnswer :=
  match burnDelegationAssertion ⟨orgId, claims.jti, claims.kid, claims.expiresAt⟩ now run with
  | .error _ => .internalError
  | .ok outcome =>
    match if deadline then .storeUnavailable none true else outcome with
    | .burned => .admitted
    | .replayed => .delegationReplayed
    | .storeUnavailable _ _ => .replayStoreUnavailable

/-! ### The rules of the store -/

/-- A key the store can keep apart from every other: no control character and no lone
surrogate. -/
def isStoreKey (s : Units) : Bool := !hasControlCharacter s && !hasLoneSurrogate s

/-- The tokens whose claims pass the rules of the store: `jti` and the key id are store keys, the
key id is at most 128 bytes long, and `exp` is a positive safe integer. -/
structure Burnable {Key : Type} (rt : JwsRuntime Key) (token : Units) : Prop where
  jti : ∀ members jti, tokenPayload rt token = some members →
    ownProperty members (units "jti") = some (.str jti) → isStoreKey jti = true
  kid : ∀ kid, tokenKid rt token = some kid →
    byteLength kid ≤ maxKeyBytes ∧ isStoreKey kid = true
  exp : ∀ members exp, tokenPayload rt token = some members →
    ownProperty members (units "exp") = some (.num (.finite exp)) →
      isSafeInteger exp = true ∧ 1 ≤ exp

lemma assertKey_eq_ok_iff {field : String} {value : Units} :
    assertKey field value = .ok () ↔
      (1 ≤ byteLength value ∧ byteLength value ≤ maxKeyBytes) ∧ isStoreKey value = true := by
  rw [assertKey, isStoreKey]
  split_ifs with hbytes hcontrol hsurrogate
  · simp only [false_iff]
    omega
  · simp [hcontrol]
  · simp [hsurrogate]
  · simp only [true_iff]
    exact ⟨by omega, by simp [hcontrol, hsurrogate]⟩

lemma require_eq_ok_iff {holds : Bool} {field rule : String} {u : Unit} :
    require holds field rule = .ok u ↔ holds = true := by
  rw [require]
  split_ifs with h <;> simp [h]

lemma assertInput_eq_ok_iff {input : DelegationBurnInput} {nowSeconds : ℤ} :
    assertInput input nowSeconds = .ok () ↔
      isUuid input.orgId = true ∧ assertKey "jti" input.jti = .ok () ∧
      assertKey "kid" input.kid = .ok () ∧
      (isSafeInteger input.assertionExpiresAtSeconds = true ∧
        1 ≤ input.assertionExpiresAtSeconds) ∧
      input.assertionExpiresAtSeconds ≤ toDouble (nowSeconds + maxExpAheadSeconds) := by
  simp only [assertInput, bind_eq_ok, require_eq_ok_iff, Bool.and_eq_true, decide_eq_true_eq,
    Unique.exists_iff, PUnit.default_eq_unit]

/-- The store answers whenever its input passes the rules. -/
lemma burn_ok_iff {input : DelegationBurnInput} {now : TimeValue}
    {run : Except PgErrorFields Unit} :
    (∃ outcome, burnDelegationAssertion input now run = .ok outcome) ↔
      assertInput input now.nowSeconds = .ok () := by
  unfold burnDelegationAssertion
  cases hinput : assertInput input now.nowSeconds with
  | error e => simp [bind, Except.bind]
  | ok _ => cases run <;> simp [bind, Except.bind, pure, Except.pure]

/-- The stage reports an internal error exactly when the store throws. -/
lemma burnStage_internalError_iff {claims : DelegationVerifiedClaims} {orgId : Units}
    {now : TimeValue} {run : Except PgErrorFields Unit} {deadline : Bool} :
    burnStage claims orgId now run deadline ≠ .internalError ↔
      ∃ outcome, burnDelegationAssertion ⟨orgId, claims.jti, claims.kid, claims.expiresAt⟩ now
        run = .ok outcome := by
  unfold burnStage
  split
  · rename_i e herror
    simp [herror]
  · rename_i outcome hok
    simp only [hok, Except.ok.injEq, exists_eq', iff_true]
    split <;> simp

/-- The acceptance window implies the bound of the store on the expiry. -/
lemma Accepted.expiresAt_le {Key : Type} {rt : JwsRuntime Key} {now : TimeValue} {token : Units}
    {claims : DelegationVerifiedClaims} (h : Accepted rt now token claims) :
    claims.expiresAt ≤ toDouble (now.nowSeconds + maxExpAheadSeconds) := by
  obtain ⟨hlower, hupper⟩ := now.floorSeconds_bounds
  have hfloor : now.floorSeconds ≤ now.nowSeconds := Int.le_floor.2 now.seconds_bounds.1
  have hfloor' : now.nowSeconds ≤ now.floorSeconds + 1 :=
    Int.floor_le_iff.2 (by have := now.seconds_bounds.2; push_cast at this ⊢; linarith)
  have hlt := h.expiresAt_lt
  have hsafe : ((now.nowSeconds + maxExpAheadSeconds : ℤ) : ℚ) ≤
      toDouble (now.nowSeconds + maxExpAheadSeconds) := by
    have hmax : maxExpAheadSeconds = 95 := rfl
    refine le_toDouble (by omega) (by omega) ?_
    push_cast
    exact le_rfl
  have hmax : (maxExpAheadSeconds : ℚ) = 95 := by norm_num [maxExpAheadSeconds,
    delegationBurnSkewSeconds]
  have hcast : (now.floorSeconds : ℚ) ≤ now.nowSeconds := by exact_mod_cast hfloor
  push_cast at hsafe hlt
  linarith

/-- **An accepted assertion and the rules of the store**: whatever its store does, an accepted
assertion of a served organization is burned, replayed or refused for want of a store, and never
answered with an internal error, exactly when its token is burnable. -/
theorem burn_answered_iff {Key : Type} (rt : JwsRuntime Key) (deps : DelegationVerifierDeps)
    (token : Units) (claims : DelegationVerifiedClaims) (orgId : Units)
    (haccepted : verifyDelegationAssertion rt deps token = .ok claims)
    (horg : isUuid orgId = true) (run : Except PgErrorFields Unit) (deadline : Bool) :
    ((∃ outcome, burnDelegationAssertion ⟨orgId, claims.jti, claims.kid, claims.expiresAt⟩
        deps.now run = .ok outcome) ∧
      burnStage claims orgId deps.now run deadline ≠ .internalError) ↔ Burnable rt token := by
  have h := Accepted.of_verified haccepted
  obtain ⟨members, hmembers, hjti, hexp⟩ := h.payload
  rw [burnStage_internalError_iff, and_self, burn_ok_iff, assertInput_eq_ok_iff,
    assertKey_eq_ok_iff, assertKey_eq_ok_iff]
  constructor
  · rintro ⟨-, ⟨-, hkey⟩, ⟨⟨-, hbytes⟩, hkid⟩, hpos, -⟩
    refine ⟨?_, ?_, ?_⟩
    · intro members' jti hmembers' hjti'
      rw [hmembers] at hmembers'
      cases hmembers'
      rw [hjti] at hjti'
      cases hjti'
      exact hkey
    · intro kid hkid'
      rw [h.kid] at hkid'
      cases hkid'
      exact ⟨hbytes, hkid⟩
    · intro members' exp hmembers' hexp'
      rw [hmembers] at hmembers'
      cases hmembers'
      rw [hexp] at hexp'
      cases hexp'
      exact hpos
  · intro hburnable
    have hkid := hburnable.kid claims.kid h.kid
    exact ⟨horg, ⟨h.jtiBytes, hburnable.jti members claims.jti hmembers hjti⟩,
      ⟨⟨h.kidBytes, hkid.1⟩, hkid.2⟩, hburnable.exp members claims.expiresAt hmembers hexp,
      h.expiresAt_le⟩

/-! ### Two tokens -/

/-- The header part of the tokens: `typ`, `alg` and the key id `cm-1`. -/
def sampleHeader : Units :=
  units "eyJ0eXAiOiJwdi1kZWxlZ2F0aW9uK2p3dCIsImFsZyI6" ++
  units "IkVkRFNBIiwia2lkIjoiY20tMSJ9"

/-- The payload part that spells the jti `a\nb`. -/
def newlinePayload : Units :=
  units "eyJ2ZXIiOjEsImlzcyI6ImNtIiwiYXVkIjoicHZkOnB2" ++
  units "LTEiLCJqdGkiOiJhXG5iIiwib3JnIjoib3JnLTEiLCJh" ++
  units "Y3QiOnsicHJ2IjoiY20iLCJzdWIiOiJ1LTEifSwib3Ai" ++
  units "OiJHRVQgL3giLCJic2giOiI0N0RFUXBqOEhCU2EtX1RJ" ++
  units "bVctNUpDZXVRZVJrbTVOTXBKV1pHM2hTdUZVIiwiaWF0" ++
  units "IjoxNzYwMDAwMDAwLCJleHAiOjE3NjAwMDAwNjB9"

/-- The payload part that spells the jti `a-b`. -/
def hyphenPayload : Units :=
  units "eyJ2ZXIiOjEsImlzcyI6ImNtIiwiYXVkIjoicHZkOnB2" ++
  units "LTEiLCJqdGkiOiJhLWIiLCJvcmciOiJvcmctMSIsImFj" ++
  units "dCI6eyJwcnYiOiJjbSIsInN1YiI6InUtMSJ9LCJvcCI6" ++
  units "IkdFVCAveCIsImJzaCI6IjQ3REVRcGo4SEJTYS1fVElt" ++
  units "Vy01SkNldVFlUmttNU5NcEpXWkczaFN1RlUiLCJpYXQi" ++
  units "OjE3NjAwMDAwMDAsImV4cCI6MTc2MDAwMDA2MH0"

def newlineSignature : Units :=
  units "pOC8b58HuJAHvdzAZm7Xhna4_Is9IwxuOVnWz5KPSBm8" ++
  units "yFfiYe4dyLioCBrWKG7N8fsP62_b886pdptFF2nJAA"

def hyphenSignature : Units :=
  units "1dq-NAKZ2-Kos_v3IuugnFOAKfKMMrTiCv33PxdNdUkE" ++
  units "8ujjLJuT2ltNmKL9zHKgul_rHgCl-y2cIbi8y8WEDw"

/-- The payload of the tokens, but for its jti. -/
def samplePayload (jti : Units) : Value :=
  .obj [(units "ver", .num (.finite 1)),
    (units "iss", .str (units "cm")),
    (units "aud", .str (units "pvd:pv-1")), (units "jti", .str jti),
    (units "org", .str (units "org-1")),
    (units "act", .obj [(units "prv", .str (units "cm")), (units "sub", .str (units "u-1"))]),
    (units "op", .str (units "GET /x")),
    (units "bsh", .str (units "47DEQpj8HBSa-_TImW-5JCeuQeRkm5NMpJWZG3hSuFU")),
    (units "iat", .num (.finite 1760000000)), (units "exp", .num (.finite 1760000060))]

/-- The runtime on the two tokens and their key. -/
def sampleRuntime : JwsRuntime Unit where
  parseJson part :=
    if part = sampleHeader then
      some (.obj [(units "typ", .str (units "pv-delegation+jwt")),
        (units "alg", .str (units "EdDSA")), (units "kid", .str (units "cm-1"))])
    else if part = newlinePayload then some (samplePayload (units "a\nb"))
    else if part = hyphenPayload then some (samplePayload (units "a-b"))
    else none
  ed25519Key _ := some ()
  verifyFn _ input signature :=
    (input == sampleHeader ++ units "." ++ newlinePayload && signature == newlineSignature) ||
      (input == sampleHeader ++ units "." ++ hyphenPayload && signature == hyphenSignature)

/-- The verifier ten seconds after the tokens were issued. -/
def sampleDeps : DelegationVerifierDeps where
  now := ⟨1760000010000, by norm_num, by norm_num⟩
  keys := [⟨units "cm-1", units "MCowBQYDK2VwAyEA6kpsY+KcUgq+9VB7Ey7F+ZVHdq6+vnuSQh7qaRRG0iw="⟩]
  instanceId := some (units "pv-1")
  issuer := units "cm"

def token (payload signature : Units) : Units :=
  sampleHeader ++ units "." ++ payload ++ units "." ++ signature

def sampleOrg : Units := units "0b51a1fc-0f0c-4a60-9a3f-6f8f6f0a9a11"

def sampleClaims (jti : Units) : DelegationVerifiedClaims :=
  ⟨units "cm-1", units "cm", units "pvd:pv-1", 1760000000, 1760000060,
    jti, units "org-1", units "cm", units "u-1", units "GET /x",
    units "47DEQpj8HBSa-_TImW-5JCeuQeRkm5NMpJWZG3hSuFU", none⟩

theorem burn_newlineJti :
    verifyDelegationAssertion sampleRuntime sampleDeps (token newlinePayload newlineSignature) =
      .ok (sampleClaims (units "a\nb")) ∧ isUuid sampleOrg = true ∧
    burnDelegationAssertion ⟨sampleOrg, units "a\nb", units "cm-1", 1760000060⟩ sampleDeps.now
      (.ok ()) = .error ⟨"jti", "must not contain control characters"⟩ ∧
    burnStage (sampleClaims (units "a\nb")) sampleOrg sampleDeps.now (.ok ()) false =
      .internalError := by
  decide +kernel

theorem burn_answered_hyphenJti :
    ((∃ outcome, burnDelegationAssertion
        ⟨sampleOrg, units "a-b", units "cm-1", 1760000060⟩ sampleDeps.now (.ok ()) = .ok outcome) ∧
      burnStage (sampleClaims (units "a-b")) sampleOrg sampleDeps.now (.ok ()) false ≠
        .internalError) ↔ Burnable sampleRuntime (token hyphenPayload hyphenSignature) :=
  burn_answered_iff sampleRuntime sampleDeps (token hyphenPayload hyphenSignature)
    (sampleClaims (units "a-b")) sampleOrg (by decide +kernel) (by decide +kernel) (.ok ()) false

end Delegation
