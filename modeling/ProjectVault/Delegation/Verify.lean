import ProjectVault.Delegation.Jws
import ProjectVault.Js.Runtime

/-!
The verifier of service-delegated actor assertions (`delegation-verify`).
-/

namespace Delegation

open Js

variable {rt : JwsRuntime Key} {payload : List (Units × Value)}

inductive DelegationRejectReason where
  | notConfigured | oversized | malformed | unexpectedAlg | unknownKid | signatureInvalid
  | malformedClaim | missingClaim | expired | notYetValid | clockSkew | audienceMismatch
  deriving DecidableEq

structure DelegationVerifiedClaims where
  kid : Units
  issuer : Units
  audience : Units
  issuedAt : ℚ
  expiresAt : ℚ
  jti : Units
  org : Units
  provider : Units
  subject : Units
  operation : Units
  bodyHash : Units
  occurredAt : Option ℚ
  deriving DecidableEq

/-- A time value: the milliseconds a clock can read. -/
structure TimeValue where
  ms : ℤ
  lower : -8640000000000000 ≤ ms
  upper : ms ≤ 8640000000000000

/-- `now() / 1000`. -/
def TimeValue.seconds (t : TimeValue) : ℚ := toDouble (t.ms / 1000)

structure DelegationVerifierDeps where
  now : TimeValue
  keys : List VerifyKeySetEntry
  instanceId : Option Units
  issuer : Units

def maxAssertionBytes : ℕ := 8 * 1024
def maxKidLength : ℕ := 128
def maxStringClaimBytes : ℕ := 256
def maxIdClaimBytes : ℕ := 128
def clockSkewToleranceSeconds : ℚ := 30
def maxLifetimeSeconds : ℚ := 60
def maxOccurrenceAheadOfIssueSeconds : ℚ := 30

/-- `/^[A-Za-z0-9_-]{43}$/`. -/
def isBodyHash (s : Units) : Bool :=
  s.length == 43 && s.all fun c =>
    (UInt16.ofNat 'A'.toNat ≤ c && c ≤ UInt16.ofNat 'Z'.toNat) ||
      (UInt16.ofNat 'a'.toNat ≤ c && c ≤ UInt16.ofNat 'z'.toNat) ||
      (UInt16.ofNat '0'.toNat ≤ c && c ≤ UInt16.ofNat '9'.toNat) ||
      c == UInt16.ofNat '_'.toNat || c == UInt16.ofNat '-'.toNat

def coreReason : JwsCoreReason → DelegationRejectReason
  | .oversized => .oversized
  | .malformed => .malformed
  | .unexpectedAlg => .unexpectedAlg
  | .unknownKid => .unknownKid
  | .signatureInvalid => .signatureInvalid

/-! ### The shape of a payload -/

/-- `str(payload, key, maxBytes)`. -/
def strClaim (payload : List (Units × Value)) (key : Units) (maxBytes : ℕ) :
    Except DelegationRejectReason Units :=
  match readStringClaim payload key maxBytes with
  | .ok value => .ok value
  | .error .missing => .error .missingClaim
  | .error .malformed => .error .malformedClaim

def checkVersion (payload : List (Units × Value)) : Except DelegationRejectReason Unit :=
  let ver := ownProperty payload (units "ver")
  if isAbsent ver then .error .missingClaim
  else
    match ver with
    | some (.num (.finite 1)) => .ok ()
    | _ => .error .malformedClaim

def checkActor (payload : List (Units × Value)) :
    Except DelegationRejectReason (Units × Units) :=
  let act := ownProperty payload (units "act")
  if isAbsent act then .error .missingClaim
  else
    match act.bind plainObject with
    | none => .error .malformedClaim
    | some members => do
        let provider ← strClaim members (units "prv") maxStringClaimBytes
        let subject ← strClaim members (units "sub") maxStringClaimBytes
        return (provider, subject)

def checkBodyHash (payload : List (Units × Value)) : Except DelegationRejectReason Units := do
  let bsh ← strClaim payload (units "bsh") maxStringClaimBytes
  if isBodyHash bsh then return bsh else throw .malformedClaim

/-- The times of issue and expiry, finite and at most the maximal lifetime apart. -/
def checkTimes (payload : List (Units × Value)) : Except DelegationRejectReason (ℚ × ℚ) :=
  let iat := ownProperty payload (units "iat")
  let exp := ownProperty payload (units "exp")
  if isAbsent iat || isAbsent exp then .error .missingClaim
  else
    match iat, exp with
    | some (.num (.finite iat)), some (.num (.finite exp)) =>
      let lifetime := toDouble (exp - iat)
      if lifetime ≤ 0 ∨ lifetime > maxLifetimeSeconds then .error .malformedClaim
      else .ok (iat, exp)
    | _, _ => .error .malformedClaim

/-- `Number.isSafeInteger`. -/
def isSafeInteger (q : ℚ) : Bool := q.den == 1 && q.num.natAbs ≤ 2 ^ 53 - 1

def checkOccurrence (payload : List (Units × Value)) (iat : ℚ) :
    Except DelegationRejectReason (Option ℚ) :=
  match ownProperty payload (units "occ") with
  | none => .ok none
  | some .null => .ok none
  | some (.num (.finite occ)) =>
    if isSafeInteger occ = false ∨ occ ≤ 0 then .error .malformedClaim
    else if occ > toDouble (iat + maxOccurrenceAheadOfIssueSeconds) then .error .malformedClaim
    else .ok (some occ)
  | some _ => .error .malformedClaim

def checkWindow (iat exp nowSeconds : ℚ) : Option DelegationRejectReason :=
  if iat > toDouble (nowSeconds + clockSkewToleranceSeconds) then some .clockSkew
  else if toDouble (exp + clockSkewToleranceSeconds) < nowSeconds then some .expired
  else none

structure Scalars where
  issuer : Units
  audience : Units
  jti : Units
  org : Units

def checkScalars (payload : List (Units × Value)) (issuerExpected : Units) :
    Except DelegationRejectReason Scalars := do
  let issuer ← strClaim payload (units "iss") maxStringClaimBytes
  if issuer ≠ issuerExpected then throw .malformedClaim
  let audience ← strClaim payload (units "aud") maxStringClaimBytes
  let jti ← strClaim payload (units "jti") maxIdClaimBytes
  let org ← strClaim payload (units "org") maxIdClaimBytes
  return ⟨issuer, audience, jti, org⟩

/-- `checkShape(payload, issuer)`, as the claims without their key id. -/
def checkShape (payload : List (Units × Value)) (issuer kid : Units) :
    Except DelegationRejectReason DelegationVerifiedClaims := do
  checkVersion payload
  let scalars ← checkScalars payload issuer
  let actor ← checkActor payload
  let operation ← strClaim payload (units "op") maxStringClaimBytes
  let bodyHash ← checkBodyHash payload
  let times ← checkTimes payload
  let occ ← checkOccurrence payload times.1
  return ⟨kid, scalars.issuer, scalars.audience, times.1, times.2, scalars.jti, scalars.org,
    actor.1, actor.2, operation, bodyHash, occ⟩

/-! ### The verifier -/

variable {Key : Type}

/-- A rejection, with the key id once the signature has been verified. -/
structure Rejection where
  reason : DelegationRejectReason
  kid : Option Units
  deriving DecidableEq

def verifyDelegationAssertion (rt : JwsRuntime Key) (deps : DelegationVerifierDeps)
    (token : Units) : Except Rejection DelegationVerifiedClaims :=
  match deps.instanceId with
  | none => .error ⟨.notConfigured, none⟩
  | some instanceId =>
    if deps.keys = [] ∨ instanceId = [] then .error ⟨.notConfigured, none⟩
    else
      match verifyEdDsaJws rt deps.keys token
          ⟨units "pv-delegation+jwt", maxAssertionBytes, maxKidLength⟩ with
      | .error reason => .error ⟨coreReason reason, none⟩
      | .ok (kid, payload) =>
        match plainObject payload with
        | none => .error ⟨.malformed, none⟩
        | some members =>
          match checkShape members deps.issuer kid with
          | .error reason => .error ⟨reason, some kid⟩
          | .ok claims =>
            match checkWindow claims.issuedAt claims.expiresAt deps.now.seconds with
            | some reason => .error ⟨reason, some kid⟩
            | none =>
              if claims.audience ≠ units "pvd:" ++ instanceId then
                .error ⟨.audienceMismatch, some kid⟩
              else .ok claims

/-! ### What acceptance implies -/

lemma strClaim_ok {key value : Units} {maxBytes : ℕ} (h : strClaim payload key maxBytes = .ok value)
    :
    ownProperty payload key = some (.str value) ∧ 1 ≤ byteLength value ∧
      byteLength value ≤ maxBytes := by
  unfold strClaim at h
  split at h
  · rename_i v hread
    cases h
    exact readStringClaim_ok hread
  · cases h
  · cases h

lemma checkTimes_ok {times : ℚ × ℚ} (h : checkTimes payload = .ok times) :
    ownProperty payload (units "exp") = some (.num (.finite times.2)) ∧
      toDouble (times.2 - times.1) ≤ maxLifetimeSeconds := by
  simp only [checkTimes] at h
  split_ifs at h
  split at h
  · rename_i iat exp _ hexp
    split_ifs at h with hlifetime
    cases h
    rw [not_or, not_lt] at hlifetime
    exact ⟨hexp, hlifetime.2⟩
  · cases h

lemma checkScalars_ok {issuer : Units} {scalars : Scalars}
    (h : checkScalars payload issuer = .ok scalars) :
    ownProperty payload (units "jti") = some (.str scalars.jti) ∧
      1 ≤ byteLength scalars.jti ∧ byteLength scalars.jti ≤ maxIdClaimBytes := by
  unfold checkScalars at h
  obtain ⟨iss, -, h⟩ := bind_eq_ok.1 h
  split at h
  · cases h
  obtain ⟨aud, -, h⟩ := bind_eq_ok.1 h
  obtain ⟨jti, hjti, h⟩ := bind_eq_ok.1 h
  obtain ⟨org, -, h⟩ := bind_eq_ok.1 h
  cases h
  exact strClaim_ok hjti

variable {claims : DelegationVerifiedClaims}

/-- A payload of the right shape: the claims the store relies on are its own. -/
lemma checkShape_ok {issuer kid : Units} (h : checkShape payload issuer kid = .ok claims) :
    claims.kid = kid ∧
      ownProperty payload (units "jti") = some (.str claims.jti) ∧
      (1 ≤ byteLength claims.jti ∧ byteLength claims.jti ≤ maxIdClaimBytes) ∧
      ownProperty payload (units "exp") = some (.num (.finite claims.expiresAt)) ∧
      toDouble (claims.expiresAt - claims.issuedAt) ≤ maxLifetimeSeconds := by
  unfold checkShape at h
  obtain ⟨_, -, h⟩ := bind_eq_ok.1 h
  obtain ⟨scalars, hscalars, h⟩ := bind_eq_ok.1 h
  obtain ⟨actor, -, h⟩ := bind_eq_ok.1 h
  obtain ⟨operation, -, h⟩ := bind_eq_ok.1 h
  obtain ⟨bodyHash, -, h⟩ := bind_eq_ok.1 h
  obtain ⟨times, htimes, h⟩ := bind_eq_ok.1 h
  obtain ⟨occ, -, h⟩ := bind_eq_ok.1 h
  cases h
  obtain ⟨hjti, hbytes⟩ := checkScalars_ok hscalars
  exact ⟨rfl, hjti, hbytes, checkTimes_ok htimes⟩

/-- What an accepted token is known to carry. -/
structure Accepted (rt : JwsRuntime Key) (now : TimeValue) (token : Units)
    (claims : DelegationVerifiedClaims) : Prop where
  payload : ∃ members, tokenPayload rt token = some members ∧
    ownProperty members (units "jti") = some (.str claims.jti) ∧
    ownProperty members (units "exp") = some (.num (.finite claims.expiresAt))
  kid : tokenKid rt token = some claims.kid
  kidBytes : 1 ≤ byteLength claims.kid
  jtiBytes : 1 ≤ byteLength claims.jti ∧ byteLength claims.jti ≤ maxIdClaimBytes
  lifetime : toDouble (claims.expiresAt - claims.issuedAt) ≤ maxLifetimeSeconds
  issued : claims.issuedAt ≤ toDouble (now.seconds + clockSkewToleranceSeconds)
  unexpired : now.seconds ≤ toDouble (claims.expiresAt + clockSkewToleranceSeconds)

/-- The checks an accepted token has passed. -/
lemma verifyDelegationAssertion_ok {deps : DelegationVerifierDeps} {token : Units}
    (h : verifyDelegationAssertion rt deps token = .ok claims) :
    ∃ kid payload members,
      verifyEdDsaJws rt deps.keys token
        ⟨units "pv-delegation+jwt", maxAssertionBytes, maxKidLength⟩ = .ok (kid, payload) ∧
      plainObject payload = some members ∧
      checkShape members deps.issuer kid = .ok claims ∧
      checkWindow claims.issuedAt claims.expiresAt deps.now.seconds = none := by
  unfold verifyDelegationAssertion at h
  split at h
  · cases h
  split_ifs at h
  split at h
  · cases h
  rename_i kid payload hjws
  split at h
  · cases h
  rename_i members hmembers
  split at h
  · cases h
  rename_i claims' hshape
  split at h
  · cases h
  rename_i hwindow
  split_ifs at h
  cases h
  exact ⟨kid, payload, members, hjws, hmembers, hshape, hwindow⟩

lemma Accepted.of_verified {deps : DelegationVerifierDeps} {token : Units}
    (h : verifyDelegationAssertion rt deps token = .ok claims) :
    Accepted rt deps.now token claims := by
  obtain ⟨kid, payload, members, hjws, hmembers, hshape, hwindow⟩ :=
    verifyDelegationAssertion_ok h
  obtain ⟨hkid, hkidBytes, hpayload⟩ := verifyEdDsaJws_ok hjws
  obtain ⟨rfl, hjti, hbytes, hexp, hlifetime⟩ := checkShape_ok hshape
  unfold checkWindow at hwindow
  split at hwindow
  · cases hwindow
  rename_i hissued
  split_ifs at hwindow with hunexpired
  exact ⟨⟨members, hpayload.trans hmembers, hjti, hexp⟩, hkid, hkidBytes, hbytes, hlifetime,
    not_lt.1 hissued, not_lt.1 hunexpired⟩

/-- The organization of the claims is the one the payload names. -/
lemma checkShape_org {issuer kid : Units} (h : checkShape payload issuer kid = .ok claims) :
    ownProperty payload (units "org") = some (.str claims.org) := by
  unfold checkShape at h
  obtain ⟨_, -, h⟩ := bind_eq_ok.1 h
  obtain ⟨scalars, hscalars, h⟩ := bind_eq_ok.1 h
  obtain ⟨actor, -, h⟩ := bind_eq_ok.1 h
  obtain ⟨operation, -, h⟩ := bind_eq_ok.1 h
  obtain ⟨bodyHash, -, h⟩ := bind_eq_ok.1 h
  obtain ⟨times, -, h⟩ := bind_eq_ok.1 h
  obtain ⟨occ, -, h⟩ := bind_eq_ok.1 h
  cases h
  unfold checkScalars at hscalars
  obtain ⟨iss, -, h⟩ := bind_eq_ok.1 hscalars
  split at h
  · cases h
  obtain ⟨aud, -, h⟩ := bind_eq_ok.1 h
  obtain ⟨jti, -, h⟩ := bind_eq_ok.1 h
  obtain ⟨org, horg, h⟩ := bind_eq_ok.1 h
  cases h
  exact (strClaim_ok horg).1

/-! ### The bound on the expiry -/

/-- The whole seconds of a clock, in the range a double counts exactly. -/
def TimeValue.floorSeconds (t : TimeValue) : ℤ := t.ms / 1000

lemma TimeValue.floorSeconds_bounds (t : TimeValue) :
    -8640000000001 ≤ t.floorSeconds ∧ t.floorSeconds ≤ 8640000000000 := by
  have hlower := t.lower
  have hupper := t.upper
  rw [TimeValue.floorSeconds]
  omega

lemma TimeValue.seconds_bounds (t : TimeValue) :
    (t.floorSeconds : ℚ) ≤ t.seconds ∧ t.seconds ≤ (t.floorSeconds + 1 : ℤ) := by
  obtain ⟨hlower, hupper⟩ := t.floorSeconds_bounds
  have hdiv : t.floorSeconds * 1000 ≤ t.ms ∧ t.ms ≤ (t.floorSeconds + 1) * 1000 := by
    rw [TimeValue.floorSeconds]
    omega
  have hlow : (t.floorSeconds : ℚ) * 1000 ≤ t.ms := by exact_mod_cast hdiv.1
  have hhigh : (t.ms : ℚ) ≤ ((t.floorSeconds + 1 : ℤ) : ℚ) * 1000 := by exact_mod_cast hdiv.2
  constructor
  · refine le_toDouble (by omega) (by omega) ?_
    rw [le_div_iff₀ (by norm_num)]
    exact hlow
  · refine toDouble_le (by omega) (by omega) ?_
    rw [div_le_iff₀ (by norm_num)]
    exact hhigh

/-- An accepted token expires at most 92 seconds after the second it is accepted in. -/
lemma Accepted.expiresAt_lt {now : TimeValue} {token : Units} (h : Accepted rt now token claims) :
    claims.expiresAt < (now.floorSeconds + 92 : ℤ) := by
  obtain ⟨hlower, hupper⟩ := now.floorSeconds_bounds
  have hissued : claims.issuedAt ≤ (now.floorSeconds + 31 : ℤ) := by
    refine h.issued.trans (toDouble_le (by omega) (by omega) ?_)
    have hnow := now.seconds_bounds.2
    rw [clockSkewToleranceSeconds]
    push_cast at hnow ⊢
    linarith
  have hlifetime : claims.expiresAt - claims.issuedAt < (61 : ℤ) := by
    by_contra hge
    have hround := le_toDouble (k := 61) (by norm_num) (by norm_num) (not_lt.1 hge)
    have hmax := h.lifetime
    rw [maxLifetimeSeconds] at hmax
    push_cast at hround
    linarith
  push_cast at hissued hlifetime ⊢
  linarith

end Delegation
