import ProjectVault.Recovery.Tokens
import ProjectVault.Js.Runtime

/-!
TOTP enrollments: enrolling with a session and re-enrolling through a recovery link (`mfa`,
`recovery`).
-/

namespace Recovery

variable {tokenHash : String}

inductive EnrollmentStatus where
  | pending | confirmed
  deriving DecidableEq

variable {Secret : Type}

/-- A row of `mfa_enrollments`, with the recovery token that staged it, if one did. -/
structure MfaEnrollment (Secret : Type) where
  id : ℕ
  userId : ℕ
  secret : Secret
  status : EnrollmentStatus
  confirmedAt : Option ℤ
  stagedBy : Option ℕ

structure UserRow where
  mfaEnrolledAt : Option ℤ
  deriving DecidableEq

/-- A code that was used: its user, its counter and its digits. -/
structure TotpUse where
  userId : ℕ
  counter : ℤ
  token : String
  deriving DecidableEq

structure MfaDb (Secret : Type) where
  now : ℤ
  users : ℕ → Option UserRow
  enrollments : List (MfaEnrollment Secret)
  usedCodes : List TotpUse
  tokens : List RecoveryToken
  nextId : ℕ

inductive MfaError where
  | userNotFound | mfaAlreadyEnrolled | mfaEnrollmentConflict | mfaEnrollmentNotStarted
  | invalidTotp
  /-- a second confirmed row: the transaction is aborted -/
  | uniqueViolation

inductive RecoveryError where
  | status (e : RecoveryTokenStatusError)
  | alreadyUsed | tokenNotFound | mfaNotStaged | invalidTotpCode | mfaEnrollmentConflict

/-! ### Codes -/

/-- The codes of a secret (`TOTP.validate`): the distance of a token from the counter of a time,
and the length of a period in seconds. -/
structure TotpRuntime (Secret : Type) where
  validate : Secret → String → ℤ → Option ℤ
  periodSeconds : ℤ

/-- The characters of `\s`. -/
def isSpace (c : Char) : Bool :=
  c.toNat ∈ [0x09, 0x0A, 0x0B, 0x0C, 0x0D, 0x20, 0xA0, 0x1680, 0x2028, 0x2029, 0x202F, 0x205F,
    0x3000, 0xFEFF] || (0x2000 ≤ c.toNat && c.toNat ≤ 0x200A)

/-- `token.replace(/\s/g, '')`. -/
def normalizeTotp (token : String) : String := String.ofList (token.toList.filter fun c => !isSpace c)

/-- `validateTotpCode(secret, token)`: the counter of a valid code. -/
def validateTotpCode (rt : TotpRuntime Secret) (secret : Secret) (token : String)
    (timestamp : ℤ) : Option ℤ :=
  let normalized := normalizeTotp token
  if normalized.length = 6 ∧ (normalized.toList.all Char.isDigit) = true then
    (rt.validate secret normalized timestamp).map fun delta =>
      timestamp / 1000 / rt.periodSeconds + delta
  else none

inductive TotpResult where
  | valid | invalidCode | replayedCode

/-! ### Operations on the tables -/

namespace MfaDb

/-- The rows of a user with a status. -/
def withStatus (db : MfaDb Secret) (userId : ℕ) (status : EnrollmentStatus) :
    List (MfaEnrollment Secret) :=
  db.enrollments.filter fun r => r.userId = userId ∧ r.status = status

def deleteEnrollments (db : MfaDb Secret) (userId : ℕ) (status : EnrollmentStatus) :
    MfaDb Secret :=
  { db with
    enrollments := db.enrollments.filter fun r => ¬ (r.userId = userId ∧ r.status = status) }

/-- `deletePendingEnrollmentForUser`. -/
def deletePendingEnrollmentForUser (db : MfaDb Secret) (userId : ℕ) : MfaDb Secret :=
  db.deleteEnrollments userId .pending

/-- Insert a pending row, unless the user has one. -/
def insertPending (db : MfaDb Secret) (userId : ℕ) (secret : Secret) (stagedBy : Option ℕ) :
    Option (MfaDb Secret) :=
  if db.withStatus userId .pending ≠ [] then none
  else
    some { db with
      enrollments := ⟨db.nextId, userId, secret, .pending, none, stagedBy⟩ :: db.enrollments
      nextId := db.nextId + 1 }

/-- Confirm the row of an id. -/
def confirm (db : MfaDb Secret) (id : ℕ) : MfaDb Secret :=
  { db with
    enrollments := db.enrollments.map fun r =>
      if r.id = id then { r with status := .confirmed, confirmedAt := some db.now } else r }

def setEnrolledAt (db : MfaDb Secret) (userId : ℕ) : MfaDb Secret :=
  { db with
    users := Function.update db.users userId
      ((db.users userId).map fun _ => ⟨some db.now⟩) }

/-- `loadPendingEnrollmentForUpdate`: some row of the user, the one of the id `pick`; the database
may choose any of them. -/
def loadPendingEnrollmentForUpdate (db : MfaDb Secret) (userId pick : ℕ) :
    Option (MfaEnrollment Secret) :=
  db.enrollments.find? fun r => r.userId = userId ∧ r.id = pick

/-- The rows `pick` may name: one of the user's, or none when there is none. -/
def mayPick (db : MfaDb Secret) (userId pick : ℕ) : Bool :=
  (db.loadPendingEnrollmentForUpdate userId pick).isSome ||
    db.enrollments.all fun r => r.userId ≠ userId

end MfaDb

/-- `validateEnrollmentTotp`. -/
def validateEnrollmentTotp (rt : TotpRuntime Secret) (db : MfaDb Secret) (userId : ℕ)
    (enrollment : MfaEnrollment Secret) (totp : String) (deletePendingOnInvalid : Bool) :
    TotpResult × MfaDb Secret :=
  match validateTotpCode rt enrollment.secret (normalizeTotp totp) db.now with
  | none =>
    (.invalidCode, if deletePendingOnInvalid then db.deletePendingEnrollmentForUser userId else db)
  | some counter =>
    let use : TotpUse := ⟨userId, counter, normalizeTotp totp⟩
    if use ∈ db.usedCodes then (.replayedCode, db)
    else (.valid, { db with usedCodes := use :: db.usedCodes })

/-! ### With a session -/

def enrollMfa (db : MfaDb Secret) (userId : ℕ) (secret : Secret) :
    Except MfaError (MfaDb Secret) :=
  match db.users userId with
  | none => .error .userNotFound
  | some user =>
    if user.mfaEnrolledAt.isSome then .error .mfaAlreadyEnrolled
    else
      match (db.deletePendingEnrollmentForUser userId).insertPending userId secret none with
      | none => .error .mfaEnrollmentConflict
      | some db' => .ok db'

/-- The result of `verifyEnrollment` and the database it leaves: an invalid code commits the
deletion of the pending row. -/
def verifyEnrollment (rt : TotpRuntime Secret) (db : MfaDb Secret) (userId : ℕ) (totp : String)
    (pick : ℕ) : Except MfaError Unit × MfaDb Secret :=
  match db.loadPendingEnrollmentForUpdate userId pick with
  | none => (.error .mfaEnrollmentNotStarted, db)
  | some enrollment =>
    if enrollment.status ≠ .pending then (.error .invalidTotp, db)
    else
      match validateEnrollmentTotp rt db userId enrollment totp true with
      | (.valid, db') =>
        if db'.withStatus userId .confirmed ≠ [] then (.error .uniqueViolation, db)
        else (.ok (), (db'.confirm enrollment.id).setEnrolledAt userId)
      | (_, db') => (.error .invalidTotp, db')

/-! ### Through a link -/

/-- The check of a link before any transaction. -/
def checkedToken (db : MfaDb Secret) (tokenHash : String) :
    Except RecoveryError RecoveryToken :=
  let found := findRecoveryTokenByHash db.tokens tokenHash
  match validateRecoveryTokenStatus db.now found, found with
  | some e, _ => .error (.status e)
  | none, some token => .ok token
  | none, none => .error (.status .notFound)

def startRecoveryMfa (db : MfaDb Secret) (tokenHash : String) (secret : Secret) :
    Except RecoveryError (MfaDb Secret) := do
  let record ← checkedToken db tokenHash
  match db.users record.userId with
  | none => throw .tokenNotFound
  | some _ =>
    match (db.deletePendingEnrollmentForUser record.userId).insertPending record.userId secret
        (some record.id) with
    | none => throw .mfaEnrollmentConflict
    | some db' => return db'

/-- `claimRecoveryToken`. -/
def claimRecoveryToken (db : MfaDb Secret) (id : ℕ) : Option (MfaDb Secret) :=
  if db.tokens.any fun r => r.id = id ∧ r.live db.now = true then
    some { db with
      tokens := updateTokens db.tokens [id] fun r => { r with usedAt := some db.now } }
  else none

def verifyStagedTotpOrFail (rt : TotpRuntime Secret) (db : MfaDb Secret) (userId : ℕ)
    (totpCode : String) (pick : ℕ) : Except RecoveryError (ℕ × MfaDb Secret) :=
  match db.loadPendingEnrollmentForUpdate userId pick with
  | none => .error .mfaNotStaged
  | some enrollment =>
    match validateEnrollmentTotp rt db userId enrollment totpCode false with
    | (.valid, db') => .ok (enrollment.id, db')
    | _ => .error .invalidTotpCode

def promoteStagedEnrollment (db : MfaDb Secret) (userId enrollmentId : ℕ) : MfaDb Secret :=
  ((db.deleteEnrollments userId .confirmed).confirm enrollmentId).setEnrolledAt userId

def completeAccountRecovery (rt : TotpRuntime Secret) (db : MfaDb Secret) (tokenHash : String)
    (totpCode : Option String) (pick : ℕ) : Except RecoveryError (MfaDb Secret) := do
  let record ← checkedToken db tokenHash
  match claimRecoveryToken db record.id with
  | none => throw .alreadyUsed
  | some db₁ =>
    if (db₁.users record.userId).isNone then throw .tokenNotFound
    else
      match totpCode with
      | none => return db₁
      | some code => do
          let (enrollmentId, db₂) ← verifyStagedTotpOrFail rt db₁ record.userId code pick
          return promoteStagedEnrollment db₂ record.userId enrollmentId

/-! ### Runs -/

inductive MfaLabel (Secret : Type) where
  | tick (t : ℤ)
  | register (userId : ℕ)
  | requestLink (userId : ℕ) (tokenHash : String)
  | enroll (userId : ℕ) (secret : Secret)
  | verify (userId : ℕ) (totp : String) (pick : ℕ)
  | startRecovery (tokenHash : String) (secret : Secret)
  | complete (tokenHash : String) (totpCode : Option String) (pick : ℕ)
  /-- the revocation of a session, or the pruner -/
  | dropPending (userId : ℕ)

/-- The user of a link, for the choice of the row. -/
def linkUser (db : MfaDb Secret) (tokenHash : String) : Option ℕ :=
  (findRecoveryTokenByHash db.tokens tokenHash).map RecoveryToken.userId

def mfaStep (rt : TotpRuntime Secret) (db : MfaDb Secret) : MfaLabel Secret →
    Option (MfaDb Secret)
  | .tick t => if db.now ≤ t then some { db with now := t } else none
  | .register userId =>
    if (db.users userId).isSome then none
    else some { db with users := Function.update db.users userId (some ⟨none⟩) }
  | .requestLink userId tokenHash =>
    if (db.users userId).isNone ∨ (findRecoveryTokenByHash db.tokens tokenHash).isSome then none
    else
      let live := db.tokens.filter fun r => r.userId = userId ∧ r.live db.now = true
      some { db with
        tokens := ⟨db.nextId, userId, tokenHash, db.now + recoveryTokenTtlMs, none, none⟩ ::
          updateTokens db.tokens (live.map RecoveryToken.id)
            fun r => { r with supersededAt := some db.now }
        nextId := db.nextId + 1 }
  | .enroll userId secret =>
    match enrollMfa db userId secret with
    | .ok db' => some db'
    | .error _ => some db
  | .verify userId totp pick =>
    if db.mayPick userId pick then some (verifyEnrollment rt db userId totp pick).2 else none
  | .startRecovery tokenHash secret =>
    match startRecoveryMfa db tokenHash secret with
    | .ok db' => some db'
    | .error _ => some db
  | .complete tokenHash totpCode pick =>
    if (linkUser db tokenHash).any fun userId => !db.mayPick userId pick then none
    else
      match completeAccountRecovery rt db tokenHash totpCode pick with
      | .ok db' => some db'
      | .error _ => some db
  | .dropPending userId => some (db.deletePendingEnrollmentForUser userId)

/-- The system, from empty tables. -/
def mfaSystem (rt : TotpRuntime Secret) : Run.System (MfaDb Secret) (MfaLabel Secret) where
  init := ⟨0, fun _ => none, [], [], [], 0⟩
  step := mfaStep rt

/-- When the row that a completion reads accepts its code, the row is pending and the link has
staged it. -/
def StagedRead (rt : TotpRuntime Secret) (db : MfaDb Secret) : MfaLabel Secret → Prop
  | .complete tokenHash (some code) pick =>
    ∀ token ∈ findRecoveryTokenByHash db.tokens tokenHash,
      ∀ row ∈ db.loadPendingEnrollmentForUpdate token.userId pick,
        (validateTotpCode rt row.secret (normalizeTotp code) db.now).isSome →
          row.status = .pending ∧ row.stagedBy = some token.id
  | _ => True

/-! ### The invariant -/

structure EnrollmentInv (db : MfaDb Secret) : Prop where
  nodup : (db.enrollments.map MfaEnrollment.id).Nodup
  bound : ∀ r ∈ db.enrollments, r.id < db.nextId
  owner : ∀ r ∈ db.enrollments, (db.users r.userId).isSome
  confirmed : ∀ userId, (db.withStatus userId .confirmed).length ≤ 1
  enrolled : ∀ userId user, db.users userId = some user →
    (user.mfaEnrolledAt.isSome ↔ db.withStatus userId .confirmed ≠ [])

variable {rt : TotpRuntime Secret} {db db' : MfaDb Secret} {userId : ℕ}
variable {r : MfaEnrollment Secret}

lemma mem_withStatus {status : EnrollmentStatus} :
    r ∈ db.withStatus userId status ↔
      r ∈ db.enrollments ∧ r.userId = userId ∧ r.status = status := by
  rw [MfaDb.withStatus, List.mem_filter, decide_eq_true_iff]

lemma mem_of_load {pick : ℕ} {row : MfaEnrollment Secret}
    (h : db.loadPendingEnrollmentForUpdate userId pick = some row) :
    row ∈ db.enrollments ∧ row.userId = userId := by
  have hrow := List.find?_some h
  rw [decide_eq_true_iff] at hrow
  exact ⟨List.mem_of_find?_eq_some h, hrow.1⟩

/-- One row has the id of a row. -/
lemma filter_id_eq {l : List (MfaEnrollment Secret)} (hnodup : (l.map MfaEnrollment.id).Nodup)
    (hr : r ∈ l) :
    (l.filter fun x => x.id = r.id) = [r] := by
  induction l with
  | nil => exact absurd hr List.not_mem_nil
  | cons x l ih =>
    rw [List.map_cons, List.nodup_cons] at hnodup
    rcases List.mem_cons.1 hr with rfl | hr
    · rw [List.filter_cons_of_pos (by simp), List.cons.injEq]
      refine ⟨rfl, List.filter_eq_nil_iff.2 fun y hy => ?_⟩
      rw [decide_eq_true_iff]
      exact fun heq => hnodup.1 (heq ▸ List.mem_map_of_mem hy)
    · have hne : x.id ≠ r.id := fun heq => hnodup.1 (heq ▸ List.mem_map_of_mem hr)
      rw [List.filter_cons_of_neg (by simpa using hne)]
      exact ih hnodup.2 hr

/-- The row that a confirmation writes. -/
def MfaEnrollment.confirmedAs (r : MfaEnrollment Secret) (now : ℤ) : MfaEnrollment Secret :=
  { r with status := .confirmed, confirmedAt := some now }

lemma confirm_enrollments (db : MfaDb Secret) (id : ℕ) : (db.confirm id).enrollments =
    db.enrollments.map fun r => if r.id = id then r.confirmedAs db.now else r := rfl

/-- The only confirmed row of its user is the one just confirmed. -/
lemma withStatus_confirm_self (hnodup : (db.enrollments.map MfaEnrollment.id).Nodup)
    (hr : r ∈ db.enrollments) (hnone : db.withStatus r.userId .confirmed = []) :
    (db.confirm r.id).withStatus r.userId .confirmed = [r.confirmedAs db.now] := by
  have hfilter : db.enrollments.filter ((fun x : MfaEnrollment Secret =>
      decide (x.userId = r.userId ∧ x.status = .confirmed)) ∘ fun x =>
        if x.id = r.id then x.confirmedAs db.now else x) = [r] := by
    rw [← filter_id_eq hnodup hr]
    refine List.filter_congr fun x hx => ?_
    rw [Function.comp_apply, decide_eq_decide]
    split
    · rename_i hid
      obtain rfl := List.inj_on_of_nodup_map hnodup hx hr hid
      exact ⟨fun _ => rfl, fun _ => ⟨rfl, rfl⟩⟩
    · rename_i hid
      refine iff_of_false (fun hconfirmed => ?_) hid
      have hmem := mem_withStatus.2 ⟨hx, hconfirmed⟩
      rw [hnone] at hmem
      exact absurd hmem List.not_mem_nil
  rw [MfaDb.withStatus, confirm_enrollments, List.filter_map, hfilter, List.map_singleton,
    if_pos rfl]

lemma withStatus_confirm_of_ne (hnodup : (db.enrollments.map MfaEnrollment.id).Nodup)
    (hr : r ∈ db.enrollments) (hne : r.userId ≠ userId) :
    (db.confirm r.id).withStatus userId .confirmed = db.withStatus userId .confirmed := by
  rw [MfaDb.withStatus, MfaDb.withStatus, confirm_enrollments, List.filter_map]
  have hfilter : db.enrollments.filter ((fun x : MfaEnrollment Secret =>
      decide (x.userId = userId ∧ x.status = .confirmed)) ∘ fun x =>
        if x.id = r.id then x.confirmedAs db.now else x) =
      db.enrollments.filter fun x => x.userId = userId ∧ x.status = .confirmed := by
    refine List.filter_congr fun x hx => ?_
    rw [Function.comp_apply, decide_eq_decide]
    split
    · rename_i hid
      obtain rfl := List.inj_on_of_nodup_map hnodup hx hr hid
      exact iff_of_false (fun h => hne h.1) fun h => hne h.1
    · rfl
  rw [hfilter]
  conv_rhs => rw [← List.map_id (db.enrollments.filter _)]
  refine List.map_congr_left fun x hx => ?_
  have hx' := (List.mem_filter.1 hx)
  rw [decide_eq_true_iff] at hx'
  rw [if_neg, id]
  intro hid
  obtain rfl := List.inj_on_of_nodup_map hnodup hx'.1 hr hid
  exact hne hx'.2.1

/-! ### What the operations keep -/

/-- The invariant reads the users and the rows. -/
lemma EnrollmentInv.congr (h : EnrollmentInv db) (husers : db'.users = db.users)
    (hrows : db'.enrollments = db.enrollments) (hnext : db.nextId ≤ db'.nextId) :
    EnrollmentInv db' where
  nodup := hrows ▸ h.nodup
  bound r hr := (h.bound r (hrows ▸ hr)).trans_le hnext
  owner r hr := husers ▸ h.owner r (hrows ▸ hr)
  confirmed userId := by
    rw [MfaDb.withStatus, hrows]
    exact h.confirmed userId
  enrolled userId user huser := by
    rw [MfaDb.withStatus, hrows]
    exact h.enrolled userId user (husers ▸ huser)

lemma EnrollmentInv.deletePending (h : EnrollmentInv db) (userId : ℕ) :
    EnrollmentInv (db.deletePendingEnrollmentForUser userId) := by
  have hconfirmed : ∀ v, (db.deletePendingEnrollmentForUser userId).withStatus v .confirmed =
      db.withStatus v .confirmed := by
    intro v
    rw [MfaDb.withStatus, MfaDb.withStatus, MfaDb.deletePendingEnrollmentForUser,
      MfaDb.deleteEnrollments, List.filter_filter]
    refine List.filter_congr fun r _ => ?_
    cases hstatus : r.status <;> simp
  refine ⟨h.nodup.sublist (List.filter_sublist.map _), ?_, ?_, ?_, ?_⟩
  · exact fun r hr => h.bound r (List.mem_of_mem_filter hr)
  · exact fun r hr => h.owner r (List.mem_of_mem_filter hr)
  · intro v
    rw [hconfirmed]
    exact h.confirmed v
  · intro v user huser
    rw [hconfirmed]
    exact h.enrolled v user huser

lemma EnrollmentInv.insertPending {secret : Secret} {stagedBy : Option ℕ} (h : EnrollmentInv db)
    (huser : (db.users userId).isSome) (hinsert : db.insertPending userId secret stagedBy = some db') :
    EnrollmentInv db' := by
  unfold MfaDb.insertPending at hinsert
  split_ifs at hinsert
  cases hinsert
  have hconfirmed : ∀ v, (MfaDb.withStatus { db with
      enrollments := ⟨db.nextId, userId, secret, .pending, none, stagedBy⟩ :: db.enrollments
      nextId := db.nextId + 1 } v .confirmed) = db.withStatus v .confirmed := by
    intro v
    rw [MfaDb.withStatus, MfaDb.withStatus, List.filter_cons_of_neg (by simp)]
  refine ⟨?_, ?_, ?_, ?_, ?_⟩
  · refine List.nodup_cons.2 ⟨fun hmem => ?_, h.nodup⟩
    obtain ⟨r, hr, hid⟩ := List.mem_map.1 hmem
    exact (h.bound r hr).ne hid
  · intro r hr
    rcases List.mem_cons.1 hr with rfl | hr
    · exact Nat.lt_succ_self _
    · exact (h.bound r hr).trans (Nat.lt_succ_self _)
  · intro r hr
    rcases List.mem_cons.1 hr with rfl | hr
    · exact huser
    · exact h.owner r hr
  · intro v
    rw [hconfirmed]
    exact h.confirmed v
  · intro v user hv
    rw [hconfirmed]
    exact h.enrolled v user hv

/-- **A promotion**: the row of a user without a confirmed one becomes the confirmed one, and the
user is enrolled. The other users are as they were in `db₀`. -/
lemma EnrollmentInv.promote {db₀ : MfaDb Secret} (h : EnrollmentInv db₀)
    (hnodup : (db.enrollments.map MfaEnrollment.id).Nodup)
    (hsub : ∀ x ∈ db.enrollments, x ∈ db₀.enrollments) (husers : db.users = db₀.users)
    (hnext : db₀.nextId ≤ db.nextId) (hr : r ∈ db.enrollments)
    (hnone : db.withStatus r.userId .confirmed = [])
    (hothers : ∀ v, v ≠ r.userId → db.withStatus v .confirmed = db₀.withStatus v .confirmed) :
    EnrollmentInv ((db.confirm r.id).setEnrolledAt r.userId) := by
  have hstatus : ∀ v, ((db.confirm r.id).setEnrolledAt r.userId).withStatus v .confirmed =
      (db.confirm r.id).withStatus v .confirmed := fun _ => rfl
  have hids : (db.confirm r.id).enrollments.map MfaEnrollment.id =
      db.enrollments.map MfaEnrollment.id := by
    rw [confirm_enrollments, List.map_map]
    refine List.map_congr_left fun x _ => ?_
    rw [Function.comp_apply]
    split <;> rfl
  have hrow : ∀ x ∈ (db.confirm r.id).enrollments, ∃ y ∈ db.enrollments,
      x.id = y.id ∧ x.userId = y.userId := by
    intro x hx
    obtain ⟨y, hy, rfl⟩ := List.mem_map.1 hx
    refine ⟨y, hy, ?_⟩
    split <;> exact ⟨rfl, rfl⟩
  have husers' : ∀ v, (((db.confirm r.id).setEnrolledAt r.userId).users v).isSome =
      (db₀.users v).isSome := by
    intro v
    rw [MfaDb.setEnrolledAt, ← husers]
    by_cases hv : v = r.userId
    · subst hv
      simp [MfaDb.confirm]
    · simp [Function.update_of_ne hv, MfaDb.confirm]
  refine ⟨?_, ?_, ?_, ?_, ?_⟩
  · change ((db.confirm r.id).enrollments.map MfaEnrollment.id).Nodup
    rw [hids]
    exact hnodup
  · intro x hx
    obtain ⟨y, hy, hid, -⟩ := hrow x hx
    rw [hid]
    exact (h.bound y (hsub y hy)).trans_le hnext
  · intro x hx
    obtain ⟨y, hy, -, huser⟩ := hrow x hx
    rw [husers', huser]
    exact h.owner y (hsub y hy)
  · intro v
    rw [hstatus]
    by_cases hv : v = r.userId
    · rw [hv, withStatus_confirm_self hnodup hr hnone]
      exact le_rfl
    · rw [withStatus_confirm_of_ne hnodup hr (Ne.symm hv), hothers v hv]
      exact h.confirmed v
  · intro v user huser
    rw [hstatus]
    by_cases hv : v = r.userId
    · rw [hv, withStatus_confirm_self hnodup hr hnone]
      subst hv
      rw [MfaDb.setEnrolledAt] at huser
      simp only [Function.update_self, Option.map_eq_some_iff] at huser
      obtain ⟨old, -, rfl⟩ := huser
      simp
    · rw [withStatus_confirm_of_ne hnodup hr (Ne.symm hv), hothers v hv]
      refine h.enrolled v user ?_
      rw [MfaDb.setEnrolledAt] at huser
      simp only [Function.update_of_ne hv] at huser
      rwa [← husers]

/-- The three ends of a check: the code is used, or it is refused with or without the pending row. -/
lemma validateEnrollmentTotp_cases (rt : TotpRuntime Secret) (db : MfaDb Secret) (userId : ℕ)
    (r : MfaEnrollment Secret) (totp : String) (drop : Bool) :
    (∃ usedCodes, validateEnrollmentTotp rt db userId r totp drop =
        (.valid, { db with usedCodes }) ∧
      (validateTotpCode rt r.secret (normalizeTotp totp) db.now).isSome) ∨
    (∃ result, result ≠ .valid ∧
      (validateEnrollmentTotp rt db userId r totp drop = (result, db) ∨
        validateEnrollmentTotp rt db userId r totp drop =
          (result, db.deletePendingEnrollmentForUser userId))) := by
  unfold validateEnrollmentTotp
  cases hcode : validateTotpCode rt r.secret (normalizeTotp totp) db.now with
  | none =>
    refine .inr ⟨.invalidCode, nofun, ?_⟩
    cases drop with
    | true => exact .inr rfl
    | false => exact .inl rfl
  | some counter =>
    simp only
    split
    · exact .inr ⟨.replayedCode, nofun, .inl rfl⟩
    · exact .inl ⟨_, rfl, rfl⟩

lemma EnrollmentInv.enroll {secret : Secret} (h : EnrollmentInv db)
    (hok : enrollMfa db userId secret = .ok db') : EnrollmentInv db' := by
  unfold enrollMfa at hok
  split at hok
  · cases hok
  rename_i user huser
  split_ifs at hok
  split at hok
  · cases hok
  rename_i db₁ hinsert
  cases hok
  exact (h.deletePending userId).insertPending
    (show (db.users userId).isSome by rw [huser]; rfl) hinsert

lemma EnrollmentInv.verify (h : EnrollmentInv db) (userId : ℕ) (totp : String) (pick : ℕ) :
    EnrollmentInv (verifyEnrollment rt db userId totp pick).2 := by
  unfold verifyEnrollment
  split
  · exact h
  rename_i row hload
  obtain ⟨hrow, rfl⟩ := mem_of_load hload
  split
  · exact h
  rcases validateEnrollmentTotp_cases rt db row.userId row totp true with
    ⟨usedCodes, hcheck, -⟩ | ⟨result, hne, hcheck | hcheck⟩
  · rw [hcheck]
    simp only
    split
    · exact h
    · rename_i hnone
      rw [not_not] at hnone
      have hused : (({ db with usedCodes } : MfaDb Secret).enrollments.map
          MfaEnrollment.id).Nodup := h.nodup
      exact h.promote hused (fun x hx => hx) rfl le_rfl hrow hnone fun _ _ => rfl
  · rw [hcheck]
    cases result with
    | valid => exact absurd rfl hne
    | invalidCode => exact h
    | replayedCode => exact h
  · rw [hcheck]
    cases result with
    | valid => exact absurd rfl hne
    | invalidCode => exact h.deletePending _
    | replayedCode => exact h.deletePending _

lemma checkedToken_ok {record : RecoveryToken} (h : checkedToken db tokenHash = .ok record) :
    findRecoveryTokenByHash db.tokens tokenHash = some record := by
  simp only [checkedToken] at h
  split at h
  · cases h
  · rename_i hfound
    cases h
    exact hfound
  · cases h

lemma EnrollmentInv.startRecovery {secret : Secret} (h : EnrollmentInv db)
    (hok : startRecoveryMfa db tokenHash secret = .ok db') : EnrollmentInv db' := by
  unfold startRecoveryMfa at hok
  obtain ⟨record, -, hok⟩ := Js.bind_eq_ok.1 hok
  split at hok
  · cases hok
  rename_i user huser
  split at hok
  · cases hok
  rename_i db₁ hinsert
  cases hok
  exact (h.deletePending record.userId).insertPending
    (show (db.users record.userId).isSome by rw [huser]; rfl) hinsert

lemma claimRecoveryToken_eq {id : ℕ} (h : claimRecoveryToken db id = some db') :
    ∃ tokens, db' = { db with tokens } := by
  unfold claimRecoveryToken at h
  split_ifs at h
  exact ⟨_, (Option.some.inj h).symm⟩

/-- **What a completion does**: without a code it uses the link; with one it promotes the row it
has read, whose secret accepts the code. -/
lemma completeAccountRecovery_ok {totpCode : Option String} {pick : ℕ}
    (h : completeAccountRecovery rt db tokenHash totpCode pick = .ok db') :
    ∃ record tokens, findRecoveryTokenByHash db.tokens tokenHash = some record ∧
      ((totpCode = none ∧ db' = { db with tokens }) ∨
        ∃ code row usedCodes, totpCode = some code ∧
          db.loadPendingEnrollmentForUpdate record.userId pick = some row ∧
          (validateTotpCode rt row.secret (normalizeTotp code) db.now).isSome ∧
          db' = promoteStagedEnrollment { db with tokens, usedCodes } record.userId row.id) := by
  unfold completeAccountRecovery at h
  obtain ⟨record, hchecked, h⟩ := Js.bind_eq_ok.1 h
  have hfound := checkedToken_ok hchecked
  split at h
  · cases h
  rename_i db₁ hclaim
  obtain ⟨tokens, rfl⟩ := claimRecoveryToken_eq hclaim
  split_ifs at h
  cases totpCode with
  | none =>
    cases h
    exact ⟨record, tokens, hfound, .inl ⟨rfl, rfl⟩⟩
  | some code =>
    obtain ⟨⟨enrollmentId, db₂⟩, hverify, h⟩ := Js.bind_eq_ok.1 h
    cases h
    unfold verifyStagedTotpOrFail at hverify
    split at hverify
    · cases hverify
    rename_i row hload
    rcases validateEnrollmentTotp_cases rt { db with tokens } record.userId row code false with
      ⟨usedCodes, hcheck, hcode⟩ | ⟨result, hne, hcheck | hcheck⟩
    · rw [hcheck] at hverify
      cases hverify
      exact ⟨record, tokens, hfound, .inr ⟨code, row, usedCodes, rfl, hload, hcode, rfl⟩⟩
    · rw [hcheck] at hverify
      cases result with
      | valid => exact absurd rfl hne
      | invalidCode => cases hverify
      | replayedCode => cases hverify
    · rw [hcheck] at hverify
      cases result with
      | valid => exact absurd rfl hne
      | invalidCode => cases hverify
      | replayedCode => cases hverify

/-- The promotion of a pending row by a completion. -/
lemma EnrollmentInv.complete {row : MfaEnrollment Secret} {tokens : List RecoveryToken}
    {usedCodes : List TotpUse} (h : EnrollmentInv db) (hrow : row ∈ db.enrollments)
    (hpending : row.status = .pending) :
    EnrollmentInv (promoteStagedEnrollment { db with tokens, usedCodes } row.userId row.id) ∧
      (promoteStagedEnrollment { db with tokens, usedCodes } row.userId row.id).withStatus
        row.userId .confirmed = [row.confirmedAs db.now] := by
  let db₁ : MfaDb Secret :=
    MfaDb.deleteEnrollments { db with tokens, usedCodes } row.userId .confirmed
  have hnodup : (db₁.enrollments.map MfaEnrollment.id).Nodup :=
    h.nodup.sublist (List.filter_sublist.map _)
  have hmem : row ∈ db₁.enrollments :=
    List.mem_filter.2 ⟨hrow, by simp [hpending]⟩
  have hnone : db₁.withStatus row.userId .confirmed = [] := by
    refine List.eq_nil_iff_forall_not_mem.2 fun x hx => ?_
    obtain ⟨hx, huser, hstatus⟩ := mem_withStatus.1 hx
    have hkept := (List.mem_filter.1 hx).2
    simp [huser, hstatus] at hkept
  have hothers : ∀ v, v ≠ row.userId →
      db₁.withStatus v .confirmed = db.withStatus v .confirmed := by
    intro v hv
    rw [MfaDb.withStatus, MfaDb.withStatus]
    change List.filter _ (List.filter _ _) = _
    rw [List.filter_filter]
    refine List.filter_congr fun x _ => ?_
    by_cases huser : x.userId = v
    · simp [huser, hv]
    · simp [huser]
  exact ⟨h.promote hnodup (fun x hx => List.mem_of_mem_filter hx) rfl le_rfl hmem hnone hothers,
    withStatus_confirm_self hnodup hmem hnone⟩

/-- **One step with a staged read**: it keeps the invariant. -/
lemma EnrollmentInv.step {a : MfaLabel Secret} (h : EnrollmentInv db) (hstaged : StagedRead rt db a)
    (hstep : mfaStep rt db a = some db') : EnrollmentInv db' := by
  cases a with
  | tick t =>
    simp only [mfaStep] at hstep
    split_ifs at hstep
    cases hstep
    exact h.congr rfl rfl le_rfl
  | register userId =>
    simp only [mfaStep] at hstep
    split_ifs at hstep with hnew
    cases hstep
    rw [Option.not_isSome_iff_eq_none] at hnew
    refine ⟨h.nodup, h.bound, fun r hr => ?_, h.confirmed, fun v user hv => ?_⟩
    · have hne : r.userId ≠ userId := by
        intro heq
        have howner := h.owner r hr
        rw [heq, hnew] at howner
        cases howner
      simp only [Function.update_of_ne hne]
      exact h.owner r hr
    · by_cases hv' : v = userId
      · subst hv'
        simp only [Function.update_self] at hv
        cases hv
        refine iff_of_false nofun (fun hne => ?_)
        -- a row of the new user would have an owner
        obtain ⟨r, hr⟩ := List.exists_mem_of_ne_nil _ hne
        obtain ⟨hr, huser, -⟩ := mem_withStatus.1 hr
        have howner := h.owner r hr
        rw [huser, hnew] at howner
        cases howner
      · simp only [Function.update_of_ne hv'] at hv
        exact h.enrolled v user hv
  | requestLink userId tokenHash =>
    simp only [mfaStep] at hstep
    split_ifs at hstep
    cases hstep
    exact h.congr rfl rfl (Nat.le_succ _)
  | enroll userId secret =>
    simp only [mfaStep] at hstep
    split at hstep
    · rename_i hok
      cases hstep
      exact h.enroll hok
    · cases hstep
      exact h
  | verify userId totp pick =>
    simp only [mfaStep] at hstep
    split_ifs at hstep
    cases hstep
    exact h.verify userId totp pick
  | startRecovery tokenHash secret =>
    simp only [mfaStep] at hstep
    split at hstep
    · rename_i hok
      cases hstep
      exact h.startRecovery hok
    · cases hstep
      exact h
  | complete tokenHash totpCode pick =>
    simp only [mfaStep] at hstep
    split_ifs at hstep
    split at hstep
    · rename_i hok
      cases hstep
      obtain ⟨record, tokens, hfound, ⟨-, rfl⟩ | ⟨code, row, usedCodes, rfl, hload, hcode, rfl⟩⟩ :=
        completeAccountRecovery_ok hok
      · exact h.congr rfl rfl le_rfl
      · obtain ⟨hrow, huser⟩ := mem_of_load hload
        rw [← huser]
        exact (h.complete hrow (hstaged record hfound row hload hcode).1).1
    · cases hstep
      exact h
  | dropPending userId =>
    cases hstep
    exact h.deletePending userId

lemma enrollmentInv_init :
    EnrollmentInv (⟨0, fun _ => none, [], [], [], 0⟩ : MfaDb Secret) where
  nodup := List.nodup_nil
  bound _ hr := by simp at hr
  owner _ hr := by simp at hr
  confirmed _ := by simp [MfaDb.withStatus]
  enrolled _ _ huser := nomatch huser

lemma enrollmentInv_of_reaches (h : (mfaSystem rt).Reaches (StagedRead rt) db) :
    EnrollmentInv db :=
  Run.System.Reaches.invariant (P := EnrollmentInv) enrollmentInv_init
    (fun _ _ _ hinv hstaged hstep => hinv.step hstaged hstep) h

/-! ### The main result -/

/-- A completion with a code has verified it against the row the link has staged, and the secret of
that row is the one confirmed secret of the user afterwards. -/
def PromotesStaged (rt : TotpRuntime Secret) (db db' : MfaDb Secret) (tokenHash code : String)
    (pick : ℕ) : Prop :=
  ∃ token row, findRecoveryTokenByHash db.tokens tokenHash = some token ∧
    db.loadPendingEnrollmentForUpdate token.userId pick = some row ∧
    (validateTotpCode rt row.secret (normalizeTotp code) db.now).isSome ∧
    row.status = .pending ∧ row.stagedBy = some token.id ∧
    (db'.withStatus token.userId .confirmed).map MfaEnrollment.secret = [row.secret]

/-- **Enrollment**: in runs whose completions read the row their link has staged, a user is enrolled
exactly when exactly one row is confirmed, and a completion with a code promotes the staged
secret that verified it. -/
theorem mfa_enrollment_invariant {Secret : Type} (rt : TotpRuntime Secret) (db : MfaDb Secret)
    (h : (mfaSystem rt).Reaches (StagedRead rt) db) :
    (∀ userId user, db.users userId = some user →
      (user.mfaEnrolledAt.isSome ↔ (db.withStatus userId .confirmed).length = 1)) ∧
    ∀ (db' : MfaDb Secret) (tokenHash code : String) (pick : ℕ),
      StagedRead rt db (.complete tokenHash (some code) pick) →
      completeAccountRecovery rt db tokenHash (some code) pick = .ok db' →
        PromotesStaged rt db db' tokenHash code pick := by
  have hinv := enrollmentInv_of_reaches h
  refine ⟨?_, ?_⟩
  · intro userId user huser
    rw [hinv.enrolled userId user huser, ← List.length_pos_iff]
    have hle := hinv.confirmed userId
    omega
  · intro db' tokenHash code pick hstaged hok
    obtain ⟨record, tokens, hfound, ⟨hnone, -⟩ | ⟨code', row, usedCodes, heq, hload, hcode, rfl⟩⟩ :=
      completeAccountRecovery_ok hok
    · cases hnone
    cases heq
    obtain ⟨hpending, hlink⟩ := hstaged record hfound row hload hcode
    obtain ⟨hrow, huser⟩ := mem_of_load hload
    refine ⟨record, row, hfound, hload, hcode, hpending, hlink, ?_⟩
    rw [← huser, (hinv.complete hrow hpending).2]
    rfl

/-! ### Two runs -/

def firstSecret : String := "GEZDGNBVGY3TQOJQGEZDGNBVGY3TQOJQ"
def stagedSecret : String := "GA4TQNZWGU2DGMRRGA4TQNZWGU2DGMRR"

/-- The codes of the two secrets at the times of the runs. -/
def sampleCodes : TotpRuntime String where
  validate secret token timestamp :=
    if (secret, token, timestamp / 30000) ∈
        [(firstSecret, "755224", 0), (firstSecret, "359152", 2), (stagedSecret, "372703", 2)] then
      some 0
    else none
  periodSeconds := 30

/-- A user enrolls and, a minute later, redeems a recovery link with a code of the enrolled
device. -/
def recoveryOfEnrolled : List (MfaLabel String) :=
  [.register 7, .enroll 7 firstSecret, .verify 7 "755224" 0, .tick 60000, .requestLink 7 "a"]

theorem recovery_withoutStaging : ∃ db, (mfaSystem sampleCodes).Reaches (fun _ _ => True) db ∧
    ¬ ∀ userId user, db.users userId = some user →
      (user.mfaEnrolledAt.isSome ↔ (db.withStatus userId .confirmed).length = 1) := by
  obtain ⟨db, hexec, huser, hrows⟩ := (mfaSystem sampleCodes).exists_of_exec (fun _ _ => True)
    (mfaSystem sampleCodes).init
    (recoveryOfEnrolled ++ [.complete "a" (some "359152") 0])
    (fun db => db.users 7 = some ⟨some 60000⟩ ∧ (db.withStatus 7 .confirmed).length = 0)
    (by decide +kernel)
  refine ⟨db, Run.System.steps_of_exec hexec, fun hall => ?_⟩
  have hone := (hall 7 _ huser).1 rfl
  rw [hrows] at hone
  cases hone

instance (rt : TotpRuntime Secret) (db : MfaDb Secret) (a : MfaLabel Secret) :
    Decidable (StagedRead rt db a) := by
  unfold StagedRead
  split <;> infer_instance

/-- The same user stages a new device before redeeming the link. -/
theorem mfa_enrollment_invariant_staged :
    ∃ db, (mfaSystem sampleCodes).Reaches (StagedRead sampleCodes) db ∧
      (∀ userId user, db.users userId = some user →
        (user.mfaEnrolledAt.isSome ↔ (db.withStatus userId .confirmed).length = 1)) ∧
      ∃ db', completeAccountRecovery sampleCodes db "a" (some "372703") 2 = .ok db' ∧
        PromotesStaged sampleCodes db db' "a" "372703" 2 := by
  obtain ⟨db, hexec, hstaged, hok⟩ := (mfaSystem sampleCodes).exists_of_exec
    (StagedRead sampleCodes) (mfaSystem sampleCodes).init
    (recoveryOfEnrolled ++ [.startRecovery "a" stagedSecret])
    (fun db => StagedRead sampleCodes db (.complete "a" (some "372703") 2) ∧
      (completeAccountRecovery sampleCodes db "a" (some "372703") 2).toOption.isSome = true)
    (by decide +kernel)
  have hreach := Run.System.steps_of_exec hexec
  have hmain := mfa_enrollment_invariant sampleCodes db hreach
  cases hcomplete : completeAccountRecovery sampleCodes db "a" (some "372703") 2 with
  | error e =>
    rw [hcomplete] at hok
    cases hok
  | ok db' => exact ⟨db, hreach, hmain.1, db', hcomplete, hmain.2 db' "a" "372703" 2 hstaged hcomplete⟩

end Recovery
