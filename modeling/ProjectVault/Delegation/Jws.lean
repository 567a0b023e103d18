import ProjectVault.Js.Units
import ProjectVault.Js.Double

/-!
The core of the EdDSA token verifiers (`eddsa-jws-core`).
-/

namespace Delegation

open Js

/-! ### Parsed values -/

/-- A number a JSON text can spell: one that is out of range becomes an infinity. -/
inductive Number where
  | finite (q : ℚ)
  | infinite (negative : Bool)

/-- The values `JSON.parse` returns. -/
inductive Value where
  | null
  | bool (b : Bool)
  | num (n : Number)
  | str (s : Units)
  | arr (xs : List Value)
  | obj (ms : List (Units × Value))

/-- An own property of an object, the last member of its name. -/
def ownProperty (ms : List (Units × Value)) (key : Units) : Option Value :=
  (ms.reverse.find? fun m => m.1 = key).map Prod.snd

/-- `value === undefined || value === null`. -/
def isAbsent : Option Value → Bool
  | none => true
  | some .null => true
  | some _ => false

/-- The members of a value that is an object and not an array. -/
def plainObject : Value → Option (List (Units × Value))
  | .obj ms => some ms
  | _ => none

inductive ClaimIssue where
  | missing | malformed

def readStringClaim (payload : List (Units × Value)) (key : Units) (maxBytes : ℕ) :
    Except ClaimIssue Units :=
  match ownProperty payload key with
  | none => .error .missing
  | some .null => .error .missing
  | some (.str value) =>
    if value.length = 0 ∨ byteLength value > maxBytes then .error .malformed else .ok value
  | some _ => .error .malformed

lemma readStringClaim_ok {payload : List (Units × Value)} {key value : Units} {maxBytes : ℕ}
    (h : readStringClaim payload key maxBytes = .ok value) :
    ownProperty payload key = some (.str value) ∧ 1 ≤ byteLength value ∧
      byteLength value ≤ maxBytes := by
  unfold readStringClaim at h
  split at h
  · cases h
  · cases h
  · rename_i v hown
    split_ifs at h with hbounds
    cases h
    rw [not_or, Nat.not_lt] at hbounds
    refine ⟨hown, byteLength_pos ?_, hbounds.2⟩
    rintro rfl
    exact hbounds.1 rfl
  · cases h

/-! ### Tokens -/

inductive JwsCoreReason where
  | oversized | malformed | unexpectedAlg | unknownKid | signatureInvalid

/-- A configured verification key. -/
structure VerifyKeySetEntry where
  kid : Units
  publicKeyPem : Units

/-- The runtime of the verifier: the decoder of a token part (`JSON.parse` of its base64url
bytes), the Ed25519 public keys of PEM texts, and `crypto.verify`. -/
structure JwsRuntime (Key : Type) where
  parseJson : Units → Option Value
  ed25519Key : Units → Option Key
  verifyFn : Key → Units → Units → Bool

variable {Key : Type}

structure JwsProfile where
  expectedTyp : Units
  maxTokenBytes : ℕ
  maxKidLength : ℕ

/-- `resolveEd25519Key(keys, kid)`. -/
def resolveEd25519Key (rt : JwsRuntime Key) (keys : List VerifyKeySetEntry) (kid : Units) :
    Option Key :=
  (keys.find? fun k => k.kid = kid).bind fun entry => rt.ed25519Key entry.publicKeyPem

/-- The header checks: `typ`, `enc`, `alg`, `kid`. -/
def checkHeader (rt : JwsRuntime Key) (headerPart : Units) (profile : JwsProfile) :
    Except JwsCoreReason Units :=
  match (rt.parseJson headerPart).bind plainObject with
  | none => .error .malformed
  | some header =>
    match ownProperty header (units "typ") with
    | some (.str typ) =>
      if typ ≠ profile.expectedTyp then .error .malformed
      else if (ownProperty header (units "enc")).isSome then .error .malformed
      else
        match ownProperty header (units "alg") with
        | some (.str alg) =>
          if alg ≠ units "EdDSA" then .error .unexpectedAlg
          else
            match ownProperty header (units "kid") with
            | some (.str kid) =>
              if kid.length < 1 ∨ kid.length > profile.maxKidLength then
                .error .unknownKid
              else .ok kid
            | _ => .error .unknownKid
        | _ => .error .unexpectedAlg
    | _ => .error .malformed

/-- `token.split('.')` when it has three parts. -/
def tokenParts (token : Units) : Option (Units × Units × Units) :=
  match token.splitOn (UInt16.ofNat '.'.toNat) with
  | [header, payload, signature] => some (header, payload, signature)
  | _ => none

/-- `verifyEdDsaJws(token, profile)`: the key id and the payload. -/
def verifyEdDsaJws (rt : JwsRuntime Key) (keys : List VerifyKeySetEntry) (token : Units)
    (profile : JwsProfile) : Except JwsCoreReason (Units × Value) :=
  if byteLength token > profile.maxTokenBytes then .error .oversized
  else
    match tokenParts token with
    | none => .error .malformed
    | some (headerPart, payloadPart, signaturePart) =>
      match checkHeader rt headerPart profile with
      | .error reason => .error reason
      | .ok kid =>
        match resolveEd25519Key rt keys kid with
        | none => .error .unknownKid
        | some key =>
          if rt.verifyFn key (headerPart ++ units "." ++ payloadPart) signaturePart = false
          then .error .signatureInvalid
          else
            match rt.parseJson payloadPart with
            | none => .error .malformed
            | some payload => .ok (kid, payload)

/-- The payload a token carries, verified or not. -/
def tokenPayload (rt : JwsRuntime Key) (token : Units) : Option (List (Units × Value)) := do
  let (_, payloadPart, _) ← tokenParts token
  let payload ← rt.parseJson payloadPart
  plainObject payload

/-- The key id a token names, configured or not. -/
def tokenKid (rt : JwsRuntime Key) (token : Units) : Option Units := do
  let (headerPart, _, _) ← tokenParts token
  let header ← rt.parseJson headerPart
  let members ← plainObject header
  match ownProperty members (units "kid") with
  | some (.str kid) => some kid
  | _ => none

lemma checkHeader_ok {rt : JwsRuntime Key} {headerPart kid : Units} {profile : JwsProfile}
    (h : checkHeader rt headerPart profile = .ok kid) :
    ∃ header, (rt.parseJson headerPart).bind plainObject = some header ∧
      ownProperty header (units "kid") = some (.str kid) ∧ 1 ≤ byteLength kid := by
  unfold checkHeader at h
  split at h
  · cases h
  rename_i header hheader
  refine ⟨header, hheader, ?_⟩
  split at h
  case h_2 => cases h
  split at h
  · cases h
  split_ifs at h
  split at h
  case h_2 => cases h
  split_ifs at h
  split at h
  case h_2 => cases h
  rename_i kid' hkid
  split_ifs at h with hlength
  cases h
  refine ⟨hkid, byteLength_pos ?_⟩
  rintro rfl
  exact hlength (.inl Nat.one_pos)

/-- A verified token names its key id and carries its payload. -/
lemma verifyEdDsaJws_ok {rt : JwsRuntime Key} {keys : List VerifyKeySetEntry} {token kid : Units}
    {profile : JwsProfile} {payload : Value}
    (h : verifyEdDsaJws rt keys token profile = .ok (kid, payload)) :
    tokenKid rt token = some kid ∧ 1 ≤ byteLength kid ∧
      tokenPayload rt token = plainObject payload := by
  unfold verifyEdDsaJws at h
  split_ifs at h
  split at h
  · cases h
  rename_i headerPart payloadPart signaturePart hparts
  split at h
  · cases h
  rename_i kid' hheader
  split at h
  · cases h
  split_ifs at h
  split at h
  · cases h
  rename_i payload' hpayload
  cases h
  obtain ⟨header, hbind, hkid, hbytes⟩ := checkHeader_ok hheader
  obtain ⟨value, hvalue, hplain⟩ := Option.bind_eq_some_iff.1 hbind
  refine ⟨?_, hbytes, ?_⟩
  · simp [tokenKid, hparts, hvalue, hplain, hkid]
  · simp [tokenPayload, hparts, hpayload]

end Delegation
