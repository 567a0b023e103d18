import ProjectVault.Delegation.Verify

/-!
The verifier of handoff tokens (`handoff-verify`).
-/

namespace Delegation

open Js

inductive HandoffRejectReason where
  | malformedClaim | claimsOversized | unexpectedAlg | unknownKid | signatureInvalid
  | missingClaim | clockSkew | notYetValid | expired | audienceMismatch | unknownAssurance
  deriving DecidableEq

structure HandoffVerifiedClaims where
  jti : Units
  workosUserId : Units
  providerName : Units
  organizationId : Units
  instanceId : Units
  tier : Units
  capabilities : List Units
  quotas : Option (List (Units × ℚ))
  claimsVersion : ℚ
  amr : Option (List Units)
  nonce : Option Units
  unknownClaimsVersion : Bool
  deriving DecidableEq

structure HandoffVerifierDeps where
  now : TimeValue
  keys : List VerifyKeySetEntry
  issuer : Option Units
  instanceId : Option Units

def maxHandoffTokenBytes : ℕ := 16 * 1024
def maxCapabilitiesPayloadBytes : ℕ := 8 * 1024
def maxCapabilitiesCount : ℕ := 64
def maxTokenLifetimeSeconds : ℚ := 60

def allowedAmrValues : List Units :=
  [units "pwd", units "otp", units "mfa", units "webauthn", units "sso"]

/-- `/^[A-Za-z0-9_-]{16,128}$/`. -/
def isNonce (s : Units) : Bool :=
  16 ≤ s.length && s.length ≤ 128 && s.all fun c =>
    (UInt16.ofNat 'A'.toNat ≤ c && c ≤ UInt16.ofNat 'Z'.toNat) ||
      (UInt16.ofNat 'a'.toNat ≤ c && c ≤ UInt16.ofNat 'z'.toNat) ||
      (UInt16.ofNat '0'.toNat ≤ c && c ≤ UInt16.ofNat '9'.toNat) ||
      c == UInt16.ofNat '_'.toNat || c == UInt16.ofNat '-'.toNat

/-- `CORE_REASON_TO_HANDOFF`. -/
def coreReasonToHandoff : JwsCoreReason → HandoffRejectReason
  | .oversized => .claimsOversized
  | .malformed => .malformedClaim
  | .unexpectedAlg => .unexpectedAlg
  | .unknownKid => .unknownKid
  | .signatureInvalid => .signatureInvalid

/-! ### The payload -/

def requireString (payload : List (Units × Value)) (key : Units) (maxBytes : ℕ) :
    Except HandoffRejectReason Units :=
  match readStringClaim payload key maxBytes with
  | .ok value => .ok value
  | .error .missing => .error .missingClaim
  | .error .malformed => .error .malformedClaim

/-- The loop over the capabilities, with the bytes counted so far. -/
def readCapabilities : List Value → ℕ → Except HandoffRejectReason (List Units)
  | [], totalBytes =>
    if totalBytes > maxCapabilitiesPayloadBytes then .error .claimsOversized else .ok []
  | .str item :: rest, totalBytes =>
    if byteLength item > maxStringClaimBytes then .error .malformedClaim
    else
      match readCapabilities rest (totalBytes + byteLength item) with
      | .ok items => .ok (item :: items)
      | .error reason => .error reason
  | _ :: _, _ => .error .malformedClaim

def validateCapabilities (payload : List (Units × Value)) :
    Except HandoffRejectReason (List Units) :=
  match ownProperty payload (units "capabilities") with
  | none => .error .missingClaim
  | some (.arr raw) =>
    if raw.length > maxCapabilitiesCount then .error .malformedClaim
    else readCapabilities raw 0
  | some _ => .error .malformedClaim

/-- `Object.entries(raw)`, in some order: the last member of each name. -/
def objectEntries (ms : List (Units × Value)) : List (Units × Value) :=
  (ms.map Prod.fst).dedup.filterMap fun key => (ownProperty ms key).map fun value => (key, value)

def readQuota : Units × Value → Except HandoffRejectReason (Units × ℚ)
  | (key, .num (.finite value)) =>
    if value < 0 then .error .malformedClaim else .ok (key, value)
  | _ => .error .malformedClaim

def validateQuotas (payload : List (Units × Value)) :
    Except HandoffRejectReason (Option (List (Units × ℚ))) :=
  match ownProperty payload (units "quotas") with
  | none => .ok none
  | some (.obj raw) =>
    if (objectEntries raw).length > maxCapabilitiesCount then .error .malformedClaim
    else do
      let quotas ← (objectEntries raw).mapM readQuota
      return some quotas
  | some _ => .error .malformedClaim

def readAmr : Value → Except HandoffRejectReason Units
  | .str item => if item ∈ allowedAmrValues then .ok item else .error .unknownAssurance
  | _ => .error .malformedClaim

def validateAmr (payload : List (Units × Value)) :
    Except HandoffRejectReason (Option (List Units)) :=
  match ownProperty payload (units "amr") with
  | none => .ok none
  | some (.arr raw) =>
    if raw.length > 8 then .error .malformedClaim
    else do
      let amr ← raw.mapM readAmr
      return some amr
  | some _ => .error .malformedClaim

def validateNonce (payload : List (Units × Value)) :
    Except HandoffRejectReason (Option Units) :=
  match ownProperty payload (units "nonce") with
  | none => .ok none
  | some (.str raw) => if isNonce raw then .ok (some raw) else .error .malformedClaim
  | some _ => .error .malformedClaim

/-- `validateTimeClaims(iat, nbf, exp)` on finite numbers. -/
def validateTimeClaims (iat : ℚ) (nbf : Option ℚ) (exp nowSeconds : ℚ) :
    Option HandoffRejectReason :=
  let lifetime := toDouble (exp - iat)
  if lifetime ≤ 0 ∨ lifetime > maxTokenLifetimeSeconds then some .malformedClaim
  else if iat > toDouble (nowSeconds + clockSkewToleranceSeconds) then some .clockSkew
  else if nbf.getD iat > toDouble (nowSeconds + clockSkewToleranceSeconds) then
    some .notYetValid
  else if toDouble (exp + clockSkewToleranceSeconds) < nowSeconds then some .expired
  else none

def validateTimeFields (payload : List (Units × Value)) (nowSeconds : ℚ) :
    Option HandoffRejectReason :=
  match ownProperty payload (units "iat"), ownProperty payload (units "exp") with
  | some (.num (.finite iat)), some (.num (.finite exp)) =>
    match ownProperty payload (units "nbf") with
    | none => validateTimeClaims iat none exp nowSeconds
    | some (.num (.finite nbf)) => validateTimeClaims iat (some nbf) exp nowSeconds
    | some _ => some .malformedClaim
  | none, _ => some .missingClaim
  | _, none => some .missingClaim
  | _, _ => some .malformedClaim

def validateClaimsVersion (payload : List (Units × Value)) : Except HandoffRejectReason ℚ :=
  match ownProperty payload (units "claimsVersion") with
  | none => .error .missingClaim
  | some (.num (.finite raw)) =>
    if raw.den ≠ 1 ∨ raw < 1 then .error .malformedClaim else .ok raw
  | some _ => .error .malformedClaim

structure RequiredStrings where
  aud : Units
  workosUserId : Units
  providerName : Units
  organizationId : Units
  instanceId : Units
  tier : Units
  jti : Units

def validateRequiredStrings (payload : List (Units × Value)) (issuer : Option Units) :
    Except HandoffRejectReason RequiredStrings := do
  let iss ← requireString payload (units "iss") maxStringClaimBytes
  if issuer ≠ some iss then throw .malformedClaim
  let aud ← requireString payload (units "aud") maxStringClaimBytes
  let workosUserId ← requireString payload (units "workosUserId") maxStringClaimBytes
  let providerName ← requireString payload (units "providerName") maxStringClaimBytes
  let organizationId ← requireString payload (units "organizationId") maxKidLength
  let instanceId ← requireString payload (units "instanceId") maxStringClaimBytes
  let tier ← requireString payload (units "tier") maxKidLength
  let jti ← requireString payload (units "jti") maxKidLength
  return ⟨aud, workosUserId, providerName, organizationId, instanceId, tier, jti⟩

def validateAudience (aud instanceId : Units) (configured : Option Units) :
    Option HandoffRejectReason :=
  if configured = some instanceId ∧ aud = units "pv:" ++ instanceId then none
  else some .audienceMismatch

def validatePayload (payload : Value) (deps : HandoffVerifierDeps) :
    Except HandoffRejectReason HandoffVerifiedClaims :=
  match plainObject payload with
  | none => .error .malformedClaim
  | some members => do
      let strings ← validateRequiredStrings members deps.issuer
      let capabilities ← validateCapabilities members
      let quotas ← validateQuotas members
      let amr ← validateAmr members
      let claimsVersion ← validateClaimsVersion members
      let nonce ← validateNonce members
      match validateTimeFields members deps.now.seconds with
      | some reason => throw reason
      | none =>
        match validateAudience strings.aud strings.instanceId deps.instanceId with
        | some reason => throw reason
        | none =>
          return ⟨strings.jti, strings.workosUserId, strings.providerName,
            strings.organizationId, strings.instanceId, strings.tier, capabilities, quotas,
            claimsVersion, amr, nonce, claimsVersion ≠ 1⟩

def verifyHandoffToken {Key : Type} (rt : JwsRuntime Key) (deps : HandoffVerifierDeps)
    (token : Units) : Except HandoffRejectReason HandoffVerifiedClaims :=
  match verifyEdDsaJws rt deps.keys token ⟨units "JWT", maxHandoffTokenBytes, maxKidLength⟩ with
  | .error reason => .error (coreReasonToHandoff reason)
  | .ok (_, payload) => validatePayload payload deps

/-! ### The nonce of a token -/

lemma validateNonce_ok {payload : List (Units × Value)} {nonce : Option Units}
    (h : validateNonce payload = .ok nonce) :
    ownProperty payload (units "nonce") = nonce.map .str := by
  unfold validateNonce at h
  split at h
  · rename_i hown
    cases h
    exact hown
  · rename_i raw hown
    split_ifs at h
    cases h
    exact hown
  · cases h

/-- The nonce of accepted claims is the one the payload carries. -/
lemma handoff_nonce_eq {Key : Type} {rt : JwsRuntime Key} {deps : HandoffVerifierDeps}
    {token : Units} {claims : HandoffVerifiedClaims}
    (h : verifyHandoffToken rt deps token = .ok claims) :
    ∃ members, tokenPayload rt token = some members ∧
      ownProperty members (units "nonce") = claims.nonce.map .str := by
  unfold verifyHandoffToken at h
  split at h
  · cases h
  rename_i kid payload hjws
  unfold validatePayload at h
  split at h
  · cases h
  rename_i members hmembers
  obtain ⟨strings, -, h⟩ := bind_eq_ok.1 h
  obtain ⟨capabilities, -, h⟩ := bind_eq_ok.1 h
  obtain ⟨quotas, -, h⟩ := bind_eq_ok.1 h
  obtain ⟨amr, -, h⟩ := bind_eq_ok.1 h
  obtain ⟨claimsVersion, -, h⟩ := bind_eq_ok.1 h
  obtain ⟨nonce, hnonce, h⟩ := bind_eq_ok.1 h
  split at h
  · cases h
  split at h
  · cases h
  cases h
  exact ⟨members, (verifyEdDsaJws_ok hjws).2.2.trans hmembers, validateNonce_ok hnonce⟩

/-- Two acceptances of one token agree on its nonce. -/
lemma nonce_eq_of_verified {Key : Type} {rt : JwsRuntime Key} {deps deps' : HandoffVerifierDeps}
    {token : Units} {claims claims' : HandoffVerifiedClaims}
    (h : verifyHandoffToken rt deps token = .ok claims)
    (h' : verifyHandoffToken rt deps' token = .ok claims') : claims.nonce = claims'.nonce := by
  obtain ⟨members, hmembers, hnonce⟩ := handoff_nonce_eq h
  obtain ⟨members', hmembers', hnonce'⟩ := handoff_nonce_eq h'
  rw [hmembers] at hmembers'
  cases hmembers'
  exact Option.map_injective (fun _ _ heq => Value.str.inj heq) (hnonce.symm.trans hnonce')

end Delegation
