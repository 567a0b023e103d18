import ProjectVault.Recovery.Mfa

/-!
What a failed login leaves behind: the recovery code path and the one-time-password path (`mfa`,
`mfa-login`).
-/

namespace Recovery

/-! ### Rows -/

/-- A row of `users` with its row of `user_identity_tokens`, if there is one. -/
structure LoginUser where
  id : ℕ
  email : String
  passwordHash : Option String
  mfaEnrolledAt : Option ℤ
  identityTokenId : Option ℕ
  deriving DecidableEq

/-- A row of `mfa_recovery_codes`. -/
structure RecoveryCode where
  id : ℕ
  userId : ℕ
  codeHash : String
  usedAt : Option ℤ
  deriving DecidableEq

/-- A row of `org_memberships`. -/
structure LoginMembership where
  userId : ℕ
  orgId : ℕ
  status : String
  deriving DecidableEq

/-- A row of `pending_mfa_sessions`. -/
structure PendingMfaSession where
  tokenHash : String
  userId : ℕ
  orgId : ℕ
  ipAddress : Option String
  attemptCount : ℕ
  expiresAt : ℤ
  deriving DecidableEq

/-- A row of `sessions`. -/
structure LoginSession where
  id : ℕ
  userId : ℕ
  orgId : ℕ
  revokedAt : Option ℤ
  deriving DecidableEq

/-- A row of `audit_log_entries`; the payload is its one entry. -/
structure LoginAudit where
  orgId : ℕ
  actorTokenId : Option ℕ
  eventType : String
  payload : String × String
  deriving DecidableEq

/-- `FailedAuthReason`. -/
inductive FailedAuthReason where
  | invalidCredentials | invalidTotp | invalidRecoveryCode | expiredRecoveryCode
  deriving DecidableEq

/-- A row of `failed_auth_attempts`. -/
structure FailedAuthAttempt where
  userId : Option ℕ
  ipAddress : String
  attemptedEmail : String
  reason : FailedAuthReason
  deriving DecidableEq

/-- The tables of a login; the organizations in the order of their creation. -/
structure LoginDb where
  users : List LoginUser
  organizations : List ℕ
  memberships : List LoginMembership
  recoveryCodes : List RecoveryCode
  pendingMfaSessions : List PendingMfaSession
  sessions : List LoginSession
  auditLogEntries : List LoginAudit
  failedAuthAttempts : List FailedAuthAttempt
  deriving DecidableEq

def loginFailedEvent : String := "LOGIN_FAILED"
def mfaRecoveryUsedEvent : String := "MFA_RECOVERY_USED"
def mfaLoginVerifiedEvent : String := "MFA_LOGIN_VERIFIED"

inductive LoginError where
  | validationError (message : String)
  | invalidCredentials | invalidTotp | mfaTokenExpired
  /-- a refusal of the audit writer, or a failure of the session writes -/
  | refused
  deriving DecidableEq

/-- What a login takes from its platform and from the modules it calls. -/
structure LoginEnv where
  rt : Js.Runtime
  /-- `normalize('NFKC')` -/
  nfkc : String → String
  /-- `bcrypt.compare` -/
  compare : String → String → Bool
  /-- `verifyUserPassword`; it may throw -/
  verifyUserPassword : String → String → Option Bool
  dummyPasswordHash : String
  failedAuthRecordEnabled : Bool
  mfaLoginMaxAttempts : ℕ
  /-- the gates of the audit writer refuse the entry -/
  refusesAudit : LoginDb → LoginAudit → Bool
  /-- `createLoginSessionInTx` -/
  createLoginSession : LoginDb → ℕ → ℕ → Except LoginError LoginDb

/-- `RequestMeta`. -/
structure LoginMeta where
  ipAddress : Option String

variable (env : LoginEnv)

/-! ### Reads -/

/-- `normalizeEmail`. -/
def LoginEnv.normalizeEmail (input : String) : Except LoginError String :=
  let normalized := env.nfkc (env.rt.toLowerCase (Js.trim input))
  if normalized ≠ "" ∧ (normalized.toList.all fun c => 0x21 ≤ c.toNat && c.toNat ≤ 0x7E) = true then
    .ok normalized
  else .error (.validationError "Email must contain ASCII characters only")

/-- `normalizeRecoveryCode`. -/
def LoginEnv.normalizeRecoveryCode (code : String) : String :=
  String.ofList ((env.rt.toUpperCase code).toList.filter fun c => !(isSpace c || c == '-'))

/-- `NORMALIZED_RECOVERY_CODE`: ten characters of the alphabet. -/
def isNormalizedRecoveryCode (code : String) : Bool :=
  code.toList.length = 10 && code.toList.all fun c =>
    ('A' ≤ c && c ≤ 'H') || ('J' ≤ c && c ≤ 'K') || c == 'M' || c == 'N' || ('P' ≤ c && c ≤ 'Z') ||
      ('2' ≤ c && c ≤ '9')

/-- `findRecoveryUser`. -/
def LoginDb.findRecoveryUser (db : LoginDb) (email : String) : Option LoginUser :=
  db.users.find? fun u => u.email = email

/-- `activeOrgForUser`. -/
def LoginDb.activeOrgForUser (db : LoginDb) (userId : ℕ) : Option ℕ :=
  db.organizations.find? fun orgId =>
    db.memberships.any fun m => m.orgId = orgId ∧ m.userId = userId ∧ m.status = "active"

/-- `passwordMatches`. -/
def LoginEnv.passwordMatches (password : String) (hash : Option String) : Bool :=
  (env.verifyUserPassword password (hash.getD env.dummyPasswordHash)).getD false

/-- The unused codes of a user. -/
def LoginDb.unusedRecoveryCodes (db : LoginDb) (userId : ℕ) : List RecoveryCode :=
  db.recoveryCodes.filter fun r => r.userId = userId ∧ r.usedAt = none

/-- `findMatchingRecoveryCode`: the last of the codes that match. -/
def LoginEnv.findMatchingRecoveryCode (db : LoginDb) (userId : ℕ) (code : String) : Option ℕ :=
  ((db.unusedRecoveryCodes userId).filter fun r =>
    env.compare (env.normalizeRecoveryCode code) r.codeHash).getLast?.map RecoveryCode.id

/-- `SELECT … FOR UPDATE` on the matched code, unused. -/
def LoginDb.lockRecoveryCode (db : LoginDb) (id : ℕ) : Option RecoveryCode :=
  db.recoveryCodes.find? fun r => r.id = id ∧ r.usedAt = none

/-! ### Transactions -/

/-- An open transaction. -/
structure LoginTx where
  /-- the rows its statements see, its own writes among them -/
  view : LoginDb
  /-- the rows the other sessions have committed -/
  others : LoginDb
  /-- what `recordFailedAuthAttempt` inserts over a connection of its own -/
  attempts : List FailedAuthAttempt

/-- What a request answers, and the rows committed then; `others` are the rows had it written
nothing. -/
structure LoginAnswer (α : Type) where
  result : Except LoginError α
  db : LoginDb
  others : LoginDb

def LoginDb.addAttempts (db : LoginDb) (attempts : List FailedAuthAttempt) : LoginDb :=
  { db with failedAuthAttempts := db.failedAuthAttempts ++ attempts }

/-- `getDb().transaction`: its writes are committed when the callback returns, and dropped when it
throws. -/
def transaction {α : Type} (db : LoginDb) (callback : LoginTx → Except LoginError α × LoginTx) :
    LoginAnswer α :=
  match callback ⟨db, db, []⟩ with
  | (.ok a, tx) => ⟨.ok a, tx.view.addAttempts tx.attempts, tx.others⟩
  | (.error e, tx) => ⟨.error e, tx.others.addAttempts tx.attempts, tx.others⟩

/-- What other sessions commit while a transaction that has written nothing waits. -/
def LoginTx.waits (tx : LoginTx) (elsewhere : LoginDb → LoginDb) : LoginTx :=
  { tx with view := elsewhere tx.view, others := elsewhere tx.others }

/-- `recordFailedAuthAttempt`. -/
def LoginTx.recordFailedAuthAttempt (tx : LoginTx) (attempt : FailedAuthAttempt) : LoginTx :=
  if env.failedAuthRecordEnabled then { tx with attempts := tx.attempts ++ [attempt] } else tx

/-- `writeHumanAuditEntry`. -/
def LoginDb.writeHumanAuditEntry (db : LoginDb) (entry : LoginAudit) : Except LoginError LoginDb :=
  if env.refusesAudit db entry then .error .refused
  else .ok { db with auditLogEntries := db.auditLogEntries ++ [entry] }

/-- A best-effort audit write: a refusal is logged and ignored. -/
def LoginDb.tryWriteAudit (db : LoginDb) (entry : LoginAudit) : LoginDb :=
  match db.writeHumanAuditEntry env entry with
  | .ok db' => db'
  | .error _ => db

/-! ### Login with a recovery code -/

/-- `tryWriteFailedRecoverAudit`; a subject without an organization is not written. -/
def LoginDb.tryWriteFailedRecoverAudit (db : LoginDb) :
    Option (Option ℕ × Option ℕ) → LoginDb
  | some (some orgId, identityTokenId) =>
    db.tryWriteAudit env ⟨orgId, identityTokenId, loginFailedEvent, ("method", "recovery_code")⟩
  | _ => db

/-- `RecoverBody`. -/
structure RecoverInput where
  email : String
  password : String
  recoveryCode : String

/-- `recordRecoveryFailure`. -/
def LoginTx.recordRecoveryFailure (tx : LoginTx) (requestMeta : LoginMeta) (email : String)
    (auditSubject : Option (Option ℕ × Option ℕ)) (userId : Option ℕ) (reason : FailedAuthReason) :
    LoginTx :=
  LoginTx.recordFailedAuthAttempt env
    { tx with view := tx.view.tryWriteFailedRecoverAudit env auditSubject }
    ⟨userId, requestMeta.ipAddress.getD "0.0.0.0", email, reason⟩

/-- The end of an accepted recovery: the code is used up, the session opened and the use put on
record. -/
def acceptRecoveryCode (now : ℤ) (user : LoginUser) (orgId codeId : ℕ) (db : LoginDb) :
    Except LoginError (ℕ × LoginDb) := do
  let used := { db with recoveryCodes := db.recoveryCodes.map fun r =>
    if r.id = codeId then { r with usedAt := some now } else r }
  let remaining := (used.unusedRecoveryCodes user.id).length
  let opened ← env.createLoginSession used user.id orgId
  let recorded ← opened.writeHumanAuditEntry env
    ⟨orgId, user.identityTokenId, mfaRecoveryUsedEvent,
      ("remainingRecoveryCodes", toString remaining)⟩
  return (remaining, recorded)

/-- The callback of `recoverWithCode`. -/
def recoverInTx (elsewhere : LoginDb → LoginDb) (now : ℤ) (requestMeta : LoginMeta) (email code : String)
    (user : Option LoginUser) (validPassword : Bool) (tx : LoginTx) :
    Except LoginError ℕ × LoginTx :=
  match user with
  | none =>
    (.error .invalidCredentials, tx.recordRecoveryFailure env requestMeta email none none .invalidCredentials)
  | some user =>
    let orgId := tx.view.activeOrgForUser user.id
    let auditSubject := some (orgId, user.identityTokenId)
    if validPassword = false ∨ user.mfaEnrolledAt = none then
      (.error .invalidCredentials,
        tx.recordRecoveryFailure env requestMeta email auditSubject none .invalidCredentials)
    else match orgId with
      | none => (.error .invalidCredentials,
          tx.recordRecoveryFailure env requestMeta email auditSubject (some user.id) .invalidCredentials)
      | some orgId =>
        match env.findMatchingRecoveryCode tx.view user.id code with
        | none => (.error .invalidCredentials, tx.recordRecoveryFailure env requestMeta email
            auditSubject (some user.id) .invalidRecoveryCode)
        | some codeId =>
          let tx := tx.waits elsewhere
          match tx.view.lockRecoveryCode codeId with
          | none => (.error .invalidCredentials, tx.recordRecoveryFailure env requestMeta email
              auditSubject (some user.id) .expiredRecoveryCode)
          | some _ =>
            match acceptRecoveryCode env now user orgId codeId tx.view with
            | .ok (remaining, view) => (.ok remaining, { tx with view })
            | .error e => (.error e, tx)

/-- `recoverWithCode`; `elsewhere` is what other sessions commit before the matched code is
locked. -/
def recoverWithCode (elsewhere : LoginDb → LoginDb) (now : ℤ) (db : LoginDb) (input : RecoverInput)
    (requestMeta : LoginMeta) : LoginAnswer ℕ :=
  match env.normalizeEmail input.email with
  | .error e => ⟨.error e, db, db⟩
  | .ok email =>
    let code := env.normalizeRecoveryCode input.recoveryCode
    if isNormalizedRecoveryCode code = false then
      ⟨.error (.validationError "Request validation failed"), db, db⟩
    else
      let user := db.findRecoveryUser email
      transaction db (recoverInTx env elsewhere now requestMeta email code user
        (env.passwordMatches input.password (user.bind LoginUser.passwordHash)))

/-! ### Login with a one-time password -/

/-- `VerifyLoginOutcome`. -/
inductive VerifyLoginOutcome where
  | success | invalidTotp | mfaTokenExpired

/-- What `verifyConfirmedLoginTotp` finds. -/
inductive LoginTotpResult where
  | valid | invalidCode | replayedCode | noEnrollment

/-- `deletePendingSession`. -/
def LoginDb.deletePendingSession (db : LoginDb) (tokenHash : String) : LoginDb :=
  { db with pendingMfaSessions := db.pendingMfaSessions.filter fun r => r.tokenHash ≠ tokenHash }

/-- The update of `attempt_count`. -/
def LoginDb.setAttemptCount (db : LoginDb) (tokenHash : String) (attemptCount : ℕ) : LoginDb :=
  { db with pendingMfaSessions := db.pendingMfaSessions.map fun r =>
      if r.tokenHash = tokenHash then { r with attemptCount } else r }

/-- `firstActorTokenIdForUser`. -/
def LoginDb.firstActorTokenIdForUser (db : LoginDb) (userId : ℕ) : Option ℕ :=
  (db.users.find? fun u => u.id = userId).bind LoginUser.identityTokenId

/-- `recordInvalidTotpFailure`. -/
def LoginTx.recordInvalidTotpFailure (tx : LoginTx) (row : PendingMfaSession) (requestMeta : LoginMeta)
    (replayed : Bool) : LoginTx :=
  let entry := ⟨row.orgId, tx.view.firstActorTokenIdForUser row.userId, loginFailedEvent,
    ("method", "totp_login")⟩
  let written := { tx with view := tx.view.tryWriteAudit env entry }
  if replayed then written
  else LoginTx.recordFailedAuthAttempt env written
    ⟨some row.userId, (requestMeta.ipAddress.or row.ipAddress).getD "0.0.0.0",
      ((tx.view.users.find? fun u => u.id = row.userId).map LoginUser.email).getD "", .invalidTotp⟩

/-- `consumeInvalidAttempt`. -/
def LoginTx.consumeInvalidAttempt (tx : LoginTx) (row : PendingMfaSession) (requestMeta : LoginMeta)
    (replayed : Bool) : VerifyLoginOutcome × LoginTx :=
  if env.mfaLoginMaxAttempts ≤ row.attemptCount + 1 then
    let tx := tx.recordInvalidTotpFailure env row requestMeta replayed
    (.mfaTokenExpired, { tx with view := tx.view.deletePendingSession row.tokenHash })
  else
    let tx := { tx with view := tx.view.setAttemptCount row.tokenHash (row.attemptCount + 1) }
    (.invalidTotp, tx.recordInvalidTotpFailure env row requestMeta replayed)

/-- The callback of `verifyLogin`. -/
def verifyLoginInTx (now : ℤ) (requestMeta : LoginMeta) (tokenHash : String)
    (totp : LoginDb → ℕ → LoginTotpResult) (tx : LoginTx) :
    Except LoginError VerifyLoginOutcome × LoginTx :=
  match tx.view.pendingMfaSessions.find? fun r => r.tokenHash = tokenHash with
  | none => (.ok .mfaTokenExpired, tx)
  | some row =>
    let expired := { tx with view := tx.view.deletePendingSession tokenHash }
    if row.expiresAt ≤ now ∨ env.mfaLoginMaxAttempts ≤ row.attemptCount then
      (.ok .mfaTokenExpired, expired)
    else match totp tx.view row.userId with
      | .noEnrollment => (.ok .mfaTokenExpired, expired)
      | .invalidCode =>
        let (outcome, tx) := tx.consumeInvalidAttempt env row requestMeta false
        (.ok outcome, tx)
      | .replayedCode =>
        let (outcome, tx) := tx.consumeInvalidAttempt env row requestMeta true
        (.ok outcome, tx)
      | .valid =>
        match env.createLoginSession tx.view row.userId row.orgId with
        | .error e => (.error e, tx)
        | .ok opened =>
          let verified := opened.tryWriteAudit env
            ⟨row.orgId, tx.view.firstActorTokenIdForUser row.userId, mfaLoginVerifiedEvent,
              ("method", "totp")⟩
          (.ok .success, { tx with view := verified.deletePendingSession tokenHash })

/-- `verifyLogin`: a failing outcome is thrown after the transaction. -/
def verifyLogin (now : ℤ) (db : LoginDb) (tokenHash : String)
    (totp : LoginDb → ℕ → LoginTotpResult) (requestMeta : LoginMeta) : LoginAnswer Unit :=
  let answer := transaction db (verifyLoginInTx env now requestMeta tokenHash totp)
  { result := match answer.result with
      | .ok .success => .ok ()
      | .ok .invalidTotp => .error .invalidTotp
      | .ok .mfaTokenExpired => .error .mfaTokenExpired
      | .error e => .error e
    db := answer.db
    others := answer.others }

/-! ### Failures on record -/

/-- The failed logins on record for a user. -/
def LoginDb.loginFailures (db : LoginDb) (user : LoginUser) : List LoginAudit :=
  db.auditLogEntries.filter fun e =>
    e.eventType = loginFailedEvent ∧ e.actorTokenId = user.identityTokenId

/-- A failed login of a user is put on record: one entry more, the recovery codes and the sessions
as they were. -/
structure FailureRecorded (user : LoginUser) (before after : LoginDb) : Prop where
  audited : (after.loginFailures user).length = (before.loginFailures user).length + 1
  codes : after.recoveryCodes = before.recoveryCodes
  sessions : after.sessions = before.sessions

@[simp] lemma loginFailures_addAttempts (db : LoginDb) (user : LoginUser)
    (attempts : List FailedAuthAttempt) :
    (db.addAttempts attempts).loginFailures user = db.loginFailures user := rfl

variable {env} {now : ℤ} {requestMeta : LoginMeta} {db : LoginDb}

/-- A transaction that throws leaves the rows of the other sessions, and the attempts recorded
outside of it. -/
lemma transaction_error {α : Type} {callback : LoginTx → Except LoginError α × LoginTx}
    {e : LoginError} (h : (transaction db callback).result = .error e) :
    (transaction db callback).others = (callback ⟨db, db, []⟩).2.others ∧
      ∃ attempts, (transaction db callback).db =
        (transaction db callback).others.addAttempts attempts := by
  rw [transaction] at h ⊢
  generalize callback ⟨db, db, []⟩ = answer at h ⊢
  rcases answer with ⟨e' | a, tx⟩
  · exact ⟨rfl, tx.attempts, rfl⟩
  · cases h

/-- A transaction that returns commits what it sees. -/
lemma transaction_ok {α : Type} {callback : LoginTx → Except LoginError α × LoginTx} {a : α}
    {tx : LoginTx} (h : callback ⟨db, db, []⟩ = (.ok a, tx)) :
    transaction db callback = ⟨.ok a, tx.view.addAttempts tx.attempts, tx.others⟩ := by
  rw [transaction, h]

@[simp] lemma recordFailedAuthAttempt_others (tx : LoginTx) (attempt : FailedAuthAttempt) :
    (tx.recordFailedAuthAttempt env attempt).others = tx.others := by
  rw [LoginTx.recordFailedAuthAttempt]
  split <;> rfl

@[simp] lemma recordFailedAuthAttempt_view (tx : LoginTx) (attempt : FailedAuthAttempt) :
    (tx.recordFailedAuthAttempt env attempt).view = tx.view := by
  rw [LoginTx.recordFailedAuthAttempt]
  split <;> rfl

@[simp] lemma recordRecoveryFailure_others (tx : LoginTx) (email : String)
    (auditSubject : Option (Option ℕ × Option ℕ)) (userId : Option ℕ) (reason : FailedAuthReason) :
    (tx.recordRecoveryFailure env requestMeta email auditSubject userId reason).others =
      tx.others := by
  rw [LoginTx.recordRecoveryFailure, recordFailedAuthAttempt_others]

/-- The other sessions have committed something only if the matched code was to be locked. -/
lemma recoverInTx_others (elsewhere : LoginDb → LoginDb) (email code : String)
    (user : Option LoginUser) (validPassword : Bool) (tx : LoginTx) :
    (recoverInTx env elsewhere now requestMeta email code user validPassword tx).2.others =
        tx.others ∨
      (recoverInTx env elsewhere now requestMeta email code user validPassword tx).2.others =
        elsewhere tx.others := by
  cases user with
  | none => exact .inl (recordRecoveryFailure_others _ _ _ _ _)
  | some user =>
    rw [recoverInTx]
    dsimp only
    split
    · exact .inl (recordRecoveryFailure_others _ _ _ _ _)
    · split
      · exact .inl (recordRecoveryFailure_others _ _ _ _ _)
      · split
        · exact .inl (recordRecoveryFailure_others _ _ _ _ _)
        · refine .inr ?_
          split
          · exact recordRecoveryFailure_others _ _ _ _ _
          · split <;> rfl

/-- What a failed recovery leaves. -/
lemma recoverWithCode_error {elsewhere : LoginDb → LoginDb} {input : RecoverInput} {e : LoginError}
    (h : (recoverWithCode env elsewhere now db input requestMeta).result = .error e) :
    ((recoverWithCode env elsewhere now db input requestMeta).others = db ∨
      (recoverWithCode env elsewhere now db input requestMeta).others = elsewhere db) ∧
    ∃ attempts, (recoverWithCode env elsewhere now db input requestMeta).db =
      (recoverWithCode env elsewhere now db input requestMeta).others.addAttempts attempts := by
  have hnone : db = db.addAttempts [] := by simp [LoginDb.addAttempts]
  rw [recoverWithCode] at h ⊢
  generalize env.normalizeEmail input.email = normalized at h ⊢
  rcases normalized with e' | email
  · exact ⟨.inl rfl, [], hnone⟩
  · dsimp only at h ⊢
    by_cases hcode : isNormalizedRecoveryCode (env.normalizeRecoveryCode input.recoveryCode) = false
    · rw [if_pos hcode]
      exact ⟨.inl rfl, [], hnone⟩
    · rw [if_neg hcode] at h ⊢
      obtain ⟨hothers, hdb⟩ := transaction_error h
      refine ⟨?_, hdb⟩
      rw [hothers]
      exact recoverInTx_others elsewhere _ _ _ _ _

/-- **Failed recoveries go unrecorded**: a recovery that fails leaves the entries, the codes and the
sessions as it found them, or as the other sessions have made them, so the failure is never put on
record. -/
theorem recovery_failure_unrecorded {elsewhere : LoginDb → LoginDb} {input : RecoverInput}
    {answer : LoginAnswer ℕ} (h : recoverWithCode env elsewhere now db input requestMeta = answer)
    {e : LoginError} (he : answer.result = .error e) (user : LoginUser) :
    (answer.others = db ∨ answer.others = elsewhere db) ∧
      answer.db.recoveryCodes = answer.others.recoveryCodes ∧
      answer.db.sessions = answer.others.sessions ∧
      ¬FailureRecorded user answer.others answer.db := by
  subst h
  obtain ⟨hothers, attempts, hdb⟩ := recoverWithCode_error he
  rw [hdb]
  refine ⟨hothers, rfl, rfl, fun hrecorded => ?_⟩
  have haudited := hrecorded.audited
  rw [loginFailures_addAttempts] at haudited
  omega

/-! ### A wrong code -/

/-- Hashes that are the texts themselves, and gates that refuse nothing. -/
def plainEnv : LoginEnv where
  rt := .ascii
  nfkc := id
  compare := fun code hash => code = hash
  verifyUserPassword := fun password hash => some (password = hash)
  dummyPasswordHash := ""
  failedAuthRecordEnabled := true
  mfaLoginMaxAttempts := 5
  refusesAudit := fun _ _ => false
  createLoginSession := fun db userId orgId =>
    .ok { db with sessions := ⟨1, userId, orgId, none⟩ :: db.sessions }

/-- An enrolled member with one unused code. -/
def memberWithCode : LoginUser := ⟨7, "ana@example.test", some "open sesame", some 1, some 70⟩

def dbWithCode : LoginDb where
  users := [memberWithCode]
  organizations := [9]
  memberships := [⟨7, 9, "active"⟩]
  recoveryCodes := [⟨1, 7, "ABCDE23456", none⟩]
  pendingMfaSessions := []
  sessions := []
  auditLogEntries := []
  failedAuthAttempts := []

/-- The right password with a code that is not hers. -/
def wrongCode : RecoverInput := ⟨"ana@example.test", "open sesame", "abcde-23457"⟩

/-- The answer to the wrong code. -/
def wrongCodeAnswer : LoginAnswer ℕ := recoverWithCode plainEnv id 5 dbWithCode wrongCode ⟨none⟩

/-- The failed recovery leaves no entry. -/
theorem recovery_failure_unrecorded_wrongCode :
    wrongCodeAnswer.result = .error .invalidCredentials ∧
      ¬FailureRecorded memberWithCode wrongCodeAnswer.others wrongCodeAnswer.db :=
  ⟨by decide +kernel, (recovery_failure_unrecorded (e := .invalidCredentials) rfl
    (by decide +kernel) memberWithCode).2.2.2⟩

/-- A wrong code of a user the login finds is answered with 401, and the attempt recorded over the
other connection is all that stays of it. -/
theorem wrong_code_not_audited :
    dbWithCode.findRecoveryUser "ana@example.test" = some memberWithCode ∧
      wrongCodeAnswer.result = .error .invalidCredentials ∧
      wrongCodeAnswer.db = dbWithCode.addAttempts
        [⟨some 7, "0.0.0.0", "ana@example.test", .invalidRecoveryCode⟩] ∧
      ¬FailureRecorded memberWithCode dbWithCode wrongCodeAnswer.db :=
  ⟨by decide +kernel, by decide +kernel, by decide +kernel,
    fun h => absurd h.audited (by decide +kernel)⟩

/-! ### The one-time-password path -/

lemma loginFailures_writeHumanAuditEntry {db' : LoginDb} {entry : LoginAudit} {user : LoginUser}
    (h : db.writeHumanAuditEntry env entry = .ok db') (hevent : entry.eventType = loginFailedEvent)
    (hactor : entry.actorTokenId = user.identityTokenId) :
    FailureRecorded user db db' := by
  rw [LoginDb.writeHumanAuditEntry] at h
  split at h
  · simp at h
  · cases h
    refine ⟨?_, rfl, rfl⟩
    simp [LoginDb.loginFailures, hevent, hactor]

/-- An invalid attempt writes its entry when the gates let it through. -/
lemma recordInvalidTotpFailure_recorded {tx : LoginTx} {row : PendingMfaSession} {user : LoginUser}
    (hgate : ∀ db entry, env.refusesAudit db entry = false)
    (huser : tx.view.users.find? (fun u => u.id = row.userId) = some user) (replayed : Bool) :
    FailureRecorded user tx.view
      (tx.recordInvalidTotpFailure env row requestMeta replayed).view := by
  have hwrite : ∀ entry, ∃ db', tx.view.writeHumanAuditEntry env entry = .ok db' := by
    intro entry
    rw [LoginDb.writeHumanAuditEntry, hgate]
    exact ⟨_, rfl⟩
  have hview : (tx.recordInvalidTotpFailure env row requestMeta replayed).view =
      tx.view.tryWriteAudit env ⟨row.orgId, tx.view.firstActorTokenIdForUser row.userId,
        loginFailedEvent, ("method", "totp_login")⟩ := by
    rw [LoginTx.recordInvalidTotpFailure]
    split
    · rfl
    · rw [recordFailedAuthAttempt_view]
  obtain ⟨db', hdb'⟩ := hwrite ⟨row.orgId, tx.view.firstActorTokenIdForUser row.userId,
    loginFailedEvent, ("method", "totp_login")⟩
  rw [hview, LoginDb.tryWriteAudit, hdb']
  refine loginFailures_writeHumanAuditEntry hdb' rfl ?_
  rw [LoginDb.firstActorTokenIdForUser, huser, Option.bind_some]

/-- A login of that member that waits for its second factor. -/
def dbWithPendingLogin : LoginDb :=
  { dbWithCode with pendingMfaSessions := [⟨"pending", 7, 9, none, 0, 10⟩] }

end Recovery
