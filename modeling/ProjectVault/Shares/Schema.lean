import ProjectVault.Credentials.Schema

/-!
Credential shares (`packages/db/src/schema/credential-shares.ts`) and the scope of
a share.
-/

namespace ProjectVault.Shares

/-! ### Rows -/

/-- The values of `credential_shares.status`. -/
inductive ShareStatus where
  | active | viewed | revoked | expired | superseded
  deriving DecidableEq

/-- The values of `credential_shares.recipient_type`. -/
inductive RecipientType where
  | user | external
  deriving DecidableEq

/-- The columns `field_key` and `attribute_keys`, with their checks:
`credential_shares_field_key_attribute_keys_check` and
`credential_shares_attribute_keys_not_empty_check`. -/
structure ShareScope where
  fieldKey : Option String
  attributeKeys : Option (List String)
  not_both : ¬ (fieldKey.isSome = true ∧ attributeKeys.isSome = true)
  not_empty : attributeKeys ≠ some []
  deriving DecidableEq

/-- A row of `credential_shares`. -/
structure CredentialShare where
  id : ℕ
  orgId : ℕ
  credentialId : ℕ
  scope : ShareScope
  sharedBy : ℕ
  actingUserId : Option ℕ
  recipientType : RecipientType
  recipientUserId : Option ℕ
  tokenHash : ℕ
  singleUse : Bool
  createdAt : ℕ
  expiresAt : ℕ
  revokedAt : Option ℕ
  supersededAt : Option ℕ
  firstViewedAt : Option ℕ
  viewCount : ℕ
  status : ShareStatus
  revealAttemptCount : ℕ
  verificationRequired : Bool
  verificationCodeHash : Option ℕ
  verificationCodeExpiresAt : Option ℕ
  verificationAttemptCount : ℕ
  verificationSendCount : ℕ
  verificationSentAt : Option ℕ
  verificationProofHash : Option ℕ
  verifiedAt : Option ℕ
  lockedAt : Option ℕ
  deriving DecidableEq

namespace CredentialShare

/-- `field_key`. -/
def fieldKey (s : CredentialShare) : Option String := s.scope.fieldKey

/-- `attribute_keys`. -/
def attributeKeys (s : CredentialShare) : Option (List String) := s.scope.attributeKeys

/-- `effectiveSharerOf`: the acting human of a host-created share, else the sharer. -/
def effectiveSharer (s : CredentialShare) : ℕ := s.actingUserId.getD s.sharedBy

/-- Outstanding: `status IN ('active', 'viewed')`. -/
def isOutstanding (s : CredentialShare) : Bool := s.status ∈ [.active, .viewed]

end CredentialShare

/-- `effectiveAttributeKeysForShare`: `attribute_keys` wins, then the legacy
`field_key`; neither is a share of the whole resource. -/
def effectiveAttributeKeysForShare (scope : ShareScope) : Option (List String) :=
  match scope.attributeKeys with
  | some (k :: ks) => some (k :: ks)
  | _ =>
    match scope.fieldKey with
    | some key => if key = "" then none else some [key]
    | none => none

/-! ### Superseding -/

/-- The parameters of `supersedeOutstandingSharesForRotation`. -/
structure SupersedeParams where
  orgId : ℕ
  credentialId : ℕ
  targetFields : Option (List String)
  deriving DecidableEq

/-- The condition on `field_key` of a field-scoped rotation. -/
def supersedeFieldScope (targetFields : Option (List String)) (fieldKey : Option String) :
    Bool :=
  match targetFields with
  | none => true
  | some targets =>
    match fieldKey with
    | none => true
    | some key => key ∈ targets

/-- The `WHERE` of `supersedeOutstandingSharesForRotation`. -/
def supersedeWhere (params : SupersedeParams) (s : CredentialShare) : Bool :=
  s.orgId = params.orgId && s.credentialId = params.credentialId && s.isOutstanding &&
    supersedeFieldScope params.targetFields s.fieldKey

/-- The `SET` of `supersedeOutstandingSharesForRotation`. -/
def CredentialShare.superseded (now : ℕ) (s : CredentialShare) : CredentialShare :=
  { s with status := .superseded, supersededAt := some now }

/-- `supersedeOutstandingSharesForRotation`: the table afterwards and the rows
returned. -/
def supersedeOutstandingSharesForRotation (now : ℕ) (params : SupersedeParams)
    (shares : List CredentialShare) : List CredentialShare × List CredentialShare :=
  (Db.updateWhere (supersedeWhere params) (CredentialShare.superseded now) shares,
    (shares.filter (supersedeWhere params)).map (CredentialShare.superseded now))

/-! ### The scope a rotation touches -/

/-- The keys of a share meet the targets of a rotation; the whole resource meets
every rotation, and a whole-secret rotation every share. -/
def Touches (targetFields : Option (List String)) (scope : ShareScope) : Prop :=
  ∀ keys targets, effectiveAttributeKeysForShare scope = some keys → targetFields = some targets →
    ∃ key ∈ keys, key ∈ targets

/-- A rotation closes exactly the outstanding shares of its credential that it
touches, and leaves every other row as it is. -/
def SupersedesTouched (now : ℕ) (params : SupersedeParams) (shares : List CredentialShare) : Prop :=
  List.Forall₂ (fun s s' =>
      (s.orgId = params.orgId ∧ s.credentialId = params.credentialId ∧ s.isOutstanding = true ∧
          Touches params.targetFields s.scope → s' = s.superseded now) ∧
        (¬ (s.orgId = params.orgId ∧ s.credentialId = params.credentialId ∧
          s.isOutstanding = true ∧ Touches params.targetFields s.scope) → s' = s))
    shares (supersedeOutstandingSharesForRotation now params shares).1

/-- The update sees the scope of the share: `attribute_keys`, which it does not
read, meets the targets, and `field_key` is not blank. -/
def ScopeSeen (targetFields : Option (List String)) (scope : ShareScope) : Prop :=
  ∀ targets, targetFields = some targets →
    (∀ keys, scope.attributeKeys = some keys → ∃ key ∈ keys, key ∈ targets) ∧
      (scope.fieldKey = some "" → "" ∈ targets)

lemma CredentialShare.superseded_ne {now : ℕ} {s : CredentialShare}
    (h : s.isOutstanding = true) : s.superseded now ≠ s := by
  intro heq
  have hst : s.status = .superseded := by
    rw [← heq]
    rfl
  simp [CredentialShare.isOutstanding, hst] at h

/-- On an outstanding share the update decides as the scope says, exactly when it
sees the scope. -/
lemma supersedeFieldScope_iff_touches (targetFields : Option (List String))
    (scope : ShareScope) :
    (supersedeFieldScope targetFields scope.fieldKey = true ↔ Touches targetFields scope) ↔
      ScopeSeen targetFields scope := by
  obtain ⟨fieldKey, attributeKeys, hboth, hempty⟩ := scope
  cases targetFields with
  | none => simp [supersedeFieldScope, Touches, ScopeSeen]
  | some targets =>
    simp only [supersedeFieldScope, Touches, ScopeSeen, effectiveAttributeKeysForShare,
      Option.some.injEq, forall_eq']
    cases attributeKeys with
    | none =>
      cases fieldKey with
      | none => simp
      | some key =>
        by_cases hkey : key = ""
        · simp [hkey]
        · simp [hkey]
    | some keys =>
      cases fieldKey with
      | some key => exact absurd ⟨rfl, rfl⟩ hboth
      | none =>
        cases keys with
        | nil => exact absurd rfl hempty
        | cons k ks => simp

/-- **Supersede scope**: a promoted rotation closes exactly the outstanding shares
it touches if and only if its update sees the scope of every outstanding share of
the credential. -/
theorem supersede_scope_iff (now : ℕ) (params : SupersedeParams) (shares : List CredentialShare) :
    SupersedesTouched now params shares ↔
      ∀ s ∈ shares, s.orgId = params.orgId → s.credentialId = params.credentialId →
        s.isOutstanding = true → ScopeSeen params.targetFields s.scope := by
  rw [SupersedesTouched, supersedeOutstandingSharesForRotation, Db.updateWhere,
    List.forall₂_map_right_iff, List.forall₂_same]
  refine forall₂_congr fun s _ => ?_
  by_cases horg : s.orgId = params.orgId
  · by_cases hcred : s.credentialId = params.credentialId
    · by_cases hout : s.isOutstanding = true
      · have hne : s.superseded now ≠ s := CredentialShare.superseded_ne hout
        have hseen := supersedeFieldScope_iff_touches params.targetFields s.scope
        simp only [supersedeWhere, horg, hcred, hout, decide_true, Bool.true_and, true_and,
          forall_const, ← hseen]
        change (_ ∧ _) ↔ (supersedeFieldScope params.targetFields s.fieldKey = true ↔ _)
        cases hscope : supersedeFieldScope params.targetFields s.fieldKey with
        | true => simp [hne]
        | false => simp [hne.symm]
      · simp [supersedeWhere, hout]
    · simp [supersedeWhere, hcred]
  · simp [supersedeWhere, horg]

/-- An active share of one field of credential `1`, named in `attributeKeys`. -/
def passwordShare : CredentialShare where
  id := 1
  orgId := 1
  credentialId := 1
  scope := ⟨none, some ["password"], by decide, by decide⟩
  sharedBy := 1
  actingUserId := none
  recipientType := .user
  recipientUserId := some 2
  tokenHash := 1
  singleUse := true
  createdAt := 0
  expiresAt := 100
  revokedAt := none
  supersededAt := none
  firstViewedAt := none
  viewCount := 0
  status := .active
  revealAttemptCount := 0
  verificationRequired := false
  verificationCodeHash := none
  verificationCodeExpiresAt := none
  verificationAttemptCount := 0
  verificationSendCount := 0
  verificationSentAt := none
  verificationProofHash := none
  verifiedAt := none
  lockedAt := none

/-- A rotation of another field closes the share all the same. -/
theorem untouched_share_superseded :
    ¬ SupersedesTouched 5 ⟨1, 1, some ["username"]⟩ [passwordShare] := by
  intro h
  obtain ⟨hmoved, -⟩ : passwordShare.superseded 5 = passwordShare ∧ True := by
    cases h with
    | cons hrow _ =>
      refine ⟨hrow.2 ?_, trivial⟩
      rintro ⟨-, -, -, htouch⟩
      have := htouch ["password"] ["username"] rfl rfl
      simp at this
  exact absurd (congrArg CredentialShare.status hmoved) (by decide)

end ProjectVault.Shares
