import ProjectVault.Shares.Lifecycle

/-!
The codes and proofs of a gated share over all interleavings of the calls.
-/

namespace ProjectVault.Shares

open Js Db

variable {rt : Runtime} {collation : Collation} {ok : ShareRequest → Prop} {w : ShareWorld}

/-! ### The log of a share -/

/-- A confirm has compared a wrong code. -/
def isWrong (id : ℕ) (ev : ShareEnd) : Bool := ev.answer = .wrongCode id

/-- A code has been issued. -/
def isSend (id : ℕ) (ev : ShareEnd) : Bool :=
  match ev.answer with
  | .sent id' _ => id' = id
  | _ => false

/-- A confirm has succeeded. -/
def isConfirm (id : ℕ) (ev : ShareEnd) : Bool :=
  match ev.answer with
  | .confirmed id' _ _ => id' = id
  | _ => false

/-- The newest code or confirm of a share. -/
def lastIssue (id : ℕ) (log : List ShareEnd) : Option ShareEnd :=
  log.find? fun ev => isSend id ev || isConfirm id ev

/-- The newest confirm of a share. -/
def lastConfirm (id : ℕ) (log : List ShareEnd) : Option ShareEnd := log.find? (isConfirm id)

/-- The transaction writes the lock of a share. -/
def writesLock (id : ℕ) (ev : ShareEnd) : Bool :=
  (ev.before.row id).any fun r => (ev.after.row id).any fun r' => r.lockedAt ≠ r'.lockedAt

/-- Locks. -/
def isLocked : ShareEvent → Bool
  | .locked _ => true
  | _ => false

/-- The audit rows about the lock of a share. -/
def lockRows (id : ℕ) (d : ShareDb) : ℕ := auditCount d.audit id isLocked

/-- The code of a row is the newest one, and has not been confirmed. -/
def CodeTracked (log : List ShareEnd) (id : ℕ) (r : CredentialShare) : Prop :=
  ∀ code, r.verificationCodeHash = some code → ∃ issue sentAt, lastIssue id log = some issue ∧
    issue.answer = .sent id code ∧
    (issue.after.row id).bind CredentialShare.verificationSentAt = some sentAt ∧
    r.verificationCodeExpiresAt = some (sentAt + verificationCodeTtlMs)

/-- The proof of a row is that of the newest confirm. -/
def ProofTracked (log : List ShareEnd) (id : ℕ) (r : CredentialShare) : Prop :=
  ∀ proof, r.verificationProofHash = some proof → ∃ confirm code,
    lastConfirm id log = some confirm ∧ confirm.answer = .confirmed id code proof ∧
    (confirm.after.row id).bind CredentialShare.verifiedAt = r.verifiedAt

/-- What the row of a share says about the log. -/
structure Tracked (log : List ShareEnd) (audit : List ShareAudit) (id : ℕ) (r : CredentialShare) :
    Prop where
  attempts : r.verificationAttemptCount = log.countP (isWrong id)
  attempts_le : r.verificationAttemptCount ≤ verificationMaxAttempts
  sends : r.verificationSendCount = log.countP (isSend id)
  sends_le : r.verificationSendCount ≤ verificationMaxSends
  code : CodeTracked log id r
  proof : ProofTracked log id r
  closed : r.lockedAt.isSome = true → r.status = .revoked
  locks : log.countP (writesLock id) = auditCount audit id isLocked

/-- The verification of a share in a run. -/
structure VerificationKept (w : ShareWorld) (id : ℕ) : Prop where
  guesses : w.log.countP (isWrong id) ≤ verificationMaxAttempts
  last : ∀ newer ev older, w.log = newer ++ ev :: older → isWrong id ev = true →
    older.countP (isWrong id) + 1 = verificationMaxAttempts →
      (ev.before.row id).any (fun r => r.lockedAt.isNone) = true ∧
        (ev.after.row id).any (fun r => r.status = .revoked && r.lockedAt.isSome) = true
  codes : w.log.countP (isSend id) ≤ verificationMaxSends
  confirms : ∀ newer ev older code proof, w.log = newer ++ ev :: older →
    ev.answer = .confirmed id code proof → ∃ issue sentAt now,
      lastIssue id older = some issue ∧ issue.answer = .sent id code ∧
      (issue.after.row id).bind CredentialShare.verificationSentAt = some sentAt ∧
      (ev.after.row id).bind CredentialShare.verifiedAt = some now ∧
      now < sentAt + verificationCodeTtlMs
  counter : ∀ newer ev older r, w.log = newer ++ ev :: older → ev.after.row id = some r →
    r.verificationAttemptCount = (ev :: older).countP (isWrong id)
  locked : w.log.countP (writesLock id) ≤ 1 ∧ lockRows id w.db = w.log.countP (writesLock id)
  gate : ∀ newer ev older share bounded gate, w.log = newer ++ ev :: older →
    ev.answer = .reveal (.ok share bounded gate) → share.id = id →
    share.verificationRequired = true → ∃ seen, seen <:+ older ∧ ∃ confirm code proof checkedAt
      verifiedAt, gate = some (proof, checkedAt) ∧ lastConfirm id seen = some confirm ∧
      confirm.answer = .confirmed id code proof ∧
      (confirm.after.row id).bind CredentialShare.verifiedAt = some verifiedAt ∧
      checkedAt < verifiedAt + verificationProofTtlMs

/-! ### Edits -/

/-- The edits of a verification. -/
def ShareEdit.verifies : ShareEdit → Bool
  | send _ _ | reserve _ | verify _ _ => true
  | _ => false

/-- What a transaction does to the verification of a row. -/
inductive VerificationDoes (answer : ShareAnswer) (r : CredentialShare) : List ShareEdit → Prop where
  | sent (code now : ℕ) (hanswer : answer = .sent r.id code) :
      VerificationDoes answer r [.send code now]
  | confirmed (code proof now : ℕ) (hanswer : answer = .confirmed r.id code proof)
      (hcode : r.verificationCodeHash = some code) :
      VerificationDoes answer r [.reserve now, .verify proof now]
  | wrong (now : ℕ) (hanswer : answer = .wrongCode r.id)
      (hless : r.verificationAttemptCount + 1 < verificationMaxAttempts) :
      VerificationDoes answer r [.reserve now]
  | last (now now' : ℕ) (hanswer : answer = .wrongCode r.id)
      (hmost : verificationMaxAttempts ≤ r.verificationAttemptCount + 1) :
      VerificationDoes answer r
        [.reserve now, .lock .verificationAttemptsExhausted now']
  | other (es : List ShareEdit) (hes : ∀ e ∈ es, e.verifies = false)
      (hsent : ∀ code, answer ≠ .sent r.id code)
      (hconfirmed : ∀ code proof, answer ≠ .confirmed r.id code proof)
      (hwrong : answer ≠ .wrongCode r.id) : VerificationDoes answer r es

lemma ShareAnswer.Does.verification {answer : ShareAnswer} {r : CredentialShare}
    {es : List ShareEdit} (h : answer.Does r es) : VerificationDoes answer r es := by
  have hnil : (∀ e ∈ ([] : List ShareEdit), e.verifies = false) := by simp
  cases answer with
  | reveal result =>
    refine .other es (fun e he => ?_) (by simp) (by simp) (by simp)
    cases result with
    | ok share bounded gate =>
      simp only [ShareAnswer.Does] at h
      split_ifs at h with hid
      · obtain ⟨now, hes | hes, -⟩ := h
        · rw [hes, List.mem_singleton] at he
          rw [he]
          rfl
        · rw [hes, List.mem_singleton] at he
          rw [he]
          rfl
      · simp [h] at he
    | _ =>
      obtain ⟨now, rfl⟩ := h e he
      rfl
  | metadata status | swept expired =>
    refine .other es (fun e he => ?_) (by simp) (by simp) (by simp)
    obtain ⟨now, rfl⟩ := h e he
    rfl
  | losingAttempt =>
    refine .other es (fun e he => ?_) (by simp) (by simp) (by simp)
    rcases h e he with ⟨now, rfl⟩ | rfl | ⟨now, rfl⟩ <;> rfl
  | revoke result | autoRevoked ids | superseded ids =>
    refine .other es (fun e he => ?_) (by simp) (by simp) (by simp)
    obtain ⟨now, rfl⟩ := h e he
    rfl
  | sent id code =>
    simp only [ShareAnswer.Does] at h
    split_ifs at h with hid
    · obtain ⟨now, rfl⟩ := h
      exact .sent code now (by rw [hid])
    · subst h
      exact .other [] hnil (by simp [hid]) (by simp) (by simp)
  | confirmed id code proof =>
    simp only [ShareAnswer.Does] at h
    split_ifs at h with hid
    · obtain ⟨hcode, now, rfl⟩ := h
      exact .confirmed code proof now (by rw [hid]) hcode
    · subst h
      exact .other [] hnil (by simp) (by simp [hid]) (by simp)
  | wrongCode id =>
    simp only [ShareAnswer.Does] at h
    split_ifs at h with hid hmost
    · obtain ⟨now, now', rfl⟩ := h
      exact .last now now' (by rw [hid]) hmost
    · obtain ⟨now, rfl⟩ := h
      exact .wrong now (by rw [hid]) (by omega)
    · subst h
      exact .other [] hnil (by simp) (by simp) (by simp [hid])
  | refused _ | created _ | notSent | unverifiable | credentials | failed =>
    obtain rfl : es = [] := h
    exact .other [] hnil (by simp) (by simp) (by simp)

/-- The codes and the proof of a row are the same; a code may have been cleared. -/
structure SameCodes (r r' : CredentialShare) : Prop where
  sends : r'.verificationSendCount = r.verificationSendCount
  proof : r'.verificationProofHash = r.verificationProofHash
  verifiedAt : r'.verifiedAt = r.verifiedAt
  code : ∀ code, r'.verificationCodeHash = some code → r.verificationCodeHash = some code ∧
    r'.verificationCodeExpiresAt = r.verificationCodeExpiresAt

lemma SameCodes.refl (r : CredentialShare) : SameCodes r r := ⟨rfl, rfl, rfl, fun _ h => ⟨h, rfl⟩⟩

lemma SameCodes.trans {r r' r'' : CredentialShare} (h : SameCodes r r') (h' : SameCodes r' r'') :
    SameCodes r r'' := by
  refine ⟨h'.sends.trans h.sends, h'.proof.trans h.proof, h'.verifiedAt.trans h.verifiedAt,
    fun code hcode => ?_⟩
  obtain ⟨hcode', hexpires'⟩ := h'.code code hcode
  obtain ⟨hcode, hexpires⟩ := h.code code hcode'
  exact ⟨hcode, hexpires'.trans hexpires⟩

lemma sameCodes_lock (reason : AttemptCapLockReason) (now : ℕ) (r : CredentialShare) :
    SameCodes r (ShareEdit.apply (.lock reason now) r) :=
  ⟨rfl, rfl, rfl, by simp [ShareEdit.apply, CredentialShare.locked]⟩

lemma sameCodes_reserve (now : ℕ) (r : CredentialShare) :
    SameCodes r (ShareEdit.apply (.reserve now) r) :=
  ⟨rfl, rfl, rfl, fun _ hcode => ⟨hcode, rfl⟩⟩

lemma sameCodes_apply {e : ShareEdit} (he : e.verifies = false) (r : CredentialShare) :
    SameCodes r (e.apply r) := by
  cases e with
  | send code now | reserve now | verify proof now => simp [ShareEdit.verifies] at he
  | lock reason now => exact sameCodes_lock reason now r
  | _ => exact ⟨rfl, rfl, rfl, fun _ hcode => ⟨hcode, rfl⟩⟩

lemma sameCodes_run {es : List ShareEdit} (hes : ∀ e ∈ es, e.verifies = false)
    (r : CredentialShare) : SameCodes r (shareEdits.run es r) := by
  induction es generalizing r with
  | nil => exact .refl r
  | cons e es ih =>
    exact (sameCodes_apply (hes e List.mem_cons_self) r).trans
      (ih (fun e' he' => hes e' (List.mem_cons_of_mem e he')) (e.apply r))

lemma attempts_run {es : List ShareEdit} (hes : ∀ e ∈ es, e.verifies = false)
    (r : CredentialShare) :
    (shareEdits.run es r).verificationAttemptCount = r.verificationAttemptCount := by
  refine Edits.run_column CredentialShare.verificationAttemptCount r fun e he r => ?_
  have hverifies := hes e he
  cases e with
  | send code now | reserve now | verify proof now => simp [ShareEdit.verifies] at hverifies
  | _ => rfl

lemma closed_apply {e : ShareEdit} {r : CredentialShare} (hguard : e.guard r)
    (h : r.lockedAt.isSome = true → r.status = .revoked) :
    (e.apply r).lockedAt.isSome = true → (e.apply r).status = .revoked := by
  have hactive : r.status = .active → r.lockedAt = none := by
    intro hst
    cases hl : r.lockedAt with
    | none => rfl
    | some t =>
      have := h (by simp [hl])
      simp [hst] at this
  cases e with
  | view now => simp [ShareEdit.apply, hactive hguard]
  | expire now => simp [ShareEdit.apply, hactive hguard.1]
  | supersede now =>
    intro hl
    have hst := h hl
    simp [ShareEdit.guard, CredentialShare.isOutstanding, hst] at hguard
  | revoke now | lock reason now => exact fun _ => rfl
  | _ => exact h

lemma spends_locked : Spends isLocked fun r => r.status ≠ .revoked where
  unviewed := rfl
  kept e r hguard hr := by
    have hst : r.status = .revoked := by simpa using hr
    cases e with
    | view now => simp [ShareEdit.guard, hst] at hguard
    | viewAgain now => simp [ShareEdit.guard, hst] at hguard
    | expire now => simp [ShareEdit.guard, hst] at hguard
    | supersede now => simp [ShareEdit.guard, CredentialShare.isOutstanding, hst] at hguard
    | revoke now => simp [ShareEdit.apply]
    | lock reason now => simp [ShareEdit.apply, CredentialShare.locked]
    | _ => simpa [ShareEdit.apply, CredentialShare.sent, CredentialShare.verified] using hst
  spent e r hkind hguard := by
    cases e with
    | lock reason now => exact ⟨hguard, by simp [ShareEdit.apply, CredentialShare.locked]⟩
    | _ => simp [ShareEdit.event, isLocked] at hkind

/-- The lock column changes with the audited lock, and only then. -/
lemma lockedAt_run {es : List ShareEdit} {r : CredentialShare} (happlied : shareEdits.Applied es r)
    (h : r.lockedAt.isSome = true → r.status = .revoked) :
    (if r.lockedAt ≠ (shareEdits.run es r).lockedAt then 1 else 0) = editCount es isLocked := by
  induction es generalizing r with
  | nil => simp [editCount]
  | cons e es ih =>
    have hclosed := closed_apply happlied.1 h
    have hrest := ih happlied.2 hclosed
    have hcons : editCount (e :: es) isLocked =
        editCount es isLocked + if e.event.any isLocked = true then 1 else 0 := List.countP_cons
    rw [hcons, Edits.run_cons]
    cases e with
    | lock reason now =>
      have hst : r.status ≠ .revoked := happlied.1
      have hnone : r.lockedAt = none := by
        cases hl : r.lockedAt with
        | none => rfl
        | some t => exact absurd (h (by simp [hl])) hst
      have hzero : editCount es isLocked = 0 :=
        (editCount_le spends_locked happlied.2).2.1
          (by simp [ShareEdit.apply, shareEdits, CredentialShare.locked])
      rw [hzero] at hrest ⊢
      have hsame : (shareEdits.apply (.lock reason now) r).lockedAt =
          (shareEdits.run es (shareEdits.apply (.lock reason now) r)).lockedAt := by
        by_contra hne
        rw [if_pos hne] at hrest
        simp at hrest
      rw [← hsame, hnone]
      simp [ShareEdit.apply, shareEdits, CredentialShare.locked, ShareEdit.event, isLocked]
    | _ => exact hrest

/-! ### What a transaction keeps -/

section Log

variable {log : List ShareEnd} {audit : List ShareAudit} {id : ℕ} {r r' : CredentialShare}
  {ev : ShareEnd}

/-- Neither a code nor a confirm: the code of a row is still the newest. -/
lemma CodeTracked.cons (h : CodeTracked log id r) (hsame : SameCodes r r')
    (hsend : isSend id ev = false) (hconfirm : isConfirm id ev = false) :
    CodeTracked (ev :: log) id r' := by
  intro code hcode
  obtain ⟨hcode', hexpires⟩ := hsame.code code hcode
  obtain ⟨issue, sentAt, hlast, hanswer, hsentAt, hexpires'⟩ := h code hcode'
  refine ⟨issue, sentAt, ?_, hanswer, hsentAt, hexpires.trans hexpires'⟩
  rw [lastIssue, List.find?_cons, hsend, hconfirm]
  exact hlast

/-- No confirm: the proof of a row is still that of the newest. -/
lemma ProofTracked.cons (h : ProofTracked log id r)
    (hproof : r'.verificationProofHash = r.verificationProofHash)
    (hverified : r'.verifiedAt = r.verifiedAt) (hconfirm : isConfirm id ev = false) :
    ProofTracked (ev :: log) id r' := by
  intro proof hproof'
  obtain ⟨confirm, code, hlast, hanswer, hat⟩ := h proof (hproof ▸ hproof')
  refine ⟨confirm, code, ?_, hanswer, hat.trans hverified.symm⟩
  rw [lastConfirm, List.find?_cons, hconfirm]
  exact hlast

/-- A transaction that issues no code and confirms none. -/
lemma Tracked.quiet {audit' : List ShareAudit} (h : Tracked log audit id r) (hsame : SameCodes r r')
    (hsend : isSend id ev = false) (hconfirm : isConfirm id ev = false)
    (hattempts : r'.verificationAttemptCount =
      r.verificationAttemptCount + if isWrong id ev = true then 1 else 0)
    (hle : r'.verificationAttemptCount ≤ verificationMaxAttempts)
    (hclosed : r'.lockedAt.isSome = true → r'.status = .revoked)
    (hlocks : (ev :: log).countP (writesLock id) = auditCount audit' id isLocked) :
    Tracked (ev :: log) audit' id r' where
  attempts := by rw [hattempts, h.attempts, List.countP_cons]
  attempts_le := hle
  sends := by
    rw [hsame.sends, h.sends, List.countP_cons, hsend]
    simp
  sends_le := hsame.sends ▸ h.sends_le
  code := h.code.cons hsame hsend hconfirm
  proof := h.proof.cons hsame.proof hsame.verifiedAt hconfirm
  closed := hclosed
  locks := hlocks

end Log

variable {held : Set ShareLock} {ev : ShareEnd} {script : ℕ → List ShareEdit}
  {new : List CredentialShare} {id : ℕ} {r : CredentialShare}

lemma locks_ended (h : Tracked w.log w.db.audit id r) (hbefore : ev.before = w.db)
    (hmove : ShareMove rt collation ok held w ev script new) (hrow : ev.before.row id = some r) :
    (ev :: w.log).countP (writesLock id) = auditCount ev.after.audit id isLocked := by
  obtain ⟨hafter, happlied, -⟩ := hmove.row_after hrow
  have hwrites : writesLock id ev =
      decide (r.lockedAt ≠ (shareEdits.run (script id) r).lockedAt) := by
    rw [writesLock, hrow, hafter]
    rfl
  have hrun := lockedAt_run happlied h.closed
  rw [List.countP_cons, h.locks, hwrites, hmove.auditCount_after rfl, hbefore, ← hrun]
  simp only [decide_eq_true_eq]
  omega

/-- **Step**: what the row says about the log, after a transaction. -/
lemma Tracked.ended (h : Tracked w.log w.db.audit id r) (hbefore : ev.before = w.db)
    (hmove : ShareMove rt collation ok held w ev script new) (hrow : ev.before.row id = some r) :
    Tracked (ev :: w.log) ev.after.audit id (shareEdits.run (script id) r) := by
  have hid : r.id = id := (Table.find_eq_some hrow).2
  obtain ⟨hafter, happlied, hdoes⟩ := hmove.row_after hrow
  have hclosed : (shareEdits.run (script id) r).lockedAt.isSome = true →
      (shareEdits.run (script id) r).status = .revoked :=
    happlied.keeps (I := fun r => r.lockedAt.isSome = true → r.status = .revoked)
      (fun _ _ _ hguard hr => closed_apply hguard hr) h.closed
  have hlocks := locks_ended h hbefore hmove hrow
  have hcases := hdoes.verification
  generalize script id = es at hcases happlied hafter hclosed ⊢
  cases hcases with
  | sent code now hanswer =>
    rw [hid] at hanswer
    have hsend : isSend id ev = true := by simp [isSend, hanswer]
    have hwrong : isWrong id ev = false := by simp [isWrong, hanswer]
    have hconfirm : isConfirm id ev = false := by simp [isConfirm, hanswer]
    refine ⟨?_, h.attempts_le, ?_, ?_, ?_, h.proof.cons rfl rfl hconfirm, hclosed, hlocks⟩
    · change r.verificationAttemptCount = _
      rw [List.countP_cons, hwrong, h.attempts]
      simp
    · change r.verificationSendCount + 1 = _
      rw [List.countP_cons, hsend, h.sends]
      simp
    · have hallowed := happlied.1.2
      simp only [sendAllowed, Bool.and_eq_true, decide_eq_true_eq] at hallowed
      exact hallowed.1
    · intro code' hcode'
      cases hcode'
      refine ⟨ev, now, by simp [lastIssue, hsend], hanswer, ?_, rfl⟩
      rw [hafter]
      rfl
  | confirmed code proof now hanswer hcode =>
    rw [hid] at hanswer
    have hsend : isSend id ev = false := by simp [isSend, hanswer]
    have hwrong : isWrong id ev = false := by simp [isWrong, hanswer]
    have hconfirm : isConfirm id ev = true := by simp [isConfirm, hanswer]
    refine ⟨?_, h.attempts_le, ?_, h.sends_le, ?_, ?_, hclosed, hlocks⟩
    · change r.verificationAttemptCount + 1 - 1 = _
      rw [List.countP_cons, hwrong, ← h.attempts]
      simp
    · change r.verificationSendCount = _
      rw [List.countP_cons, hsend, h.sends]
      simp
    · intro code' hcode'
      simp [shareEdits, ShareEdit.apply, CredentialShare.verified] at hcode'
    · intro proof' hproof'
      cases hproof'
      refine ⟨ev, code, by simp [lastConfirm, hconfirm], hanswer, ?_⟩
      rw [hafter]
      rfl
  | wrong now hanswer hless =>
    rw [hid] at hanswer
    refine h.quiet (sameCodes_reserve now r) (by simp [isSend, hanswer])
      (by simp [isConfirm, hanswer]) ?_ hless.le hclosed hlocks
    simp [isWrong, hanswer, shareEdits, ShareEdit.apply]
  | last now now' hanswer hmost =>
    rw [hid] at hanswer
    have hless : r.verificationAttemptCount < verificationMaxAttempts := by
      have hguard := happlied.1.1
      simp only [verifiableShareCondition, Bool.and_eq_true, decide_eq_true_eq] at hguard
      exact hguard.2
    refine h.quiet ((sameCodes_reserve now r).trans (sameCodes_lock .verificationAttemptsExhausted now' _))
      (by simp [isSend, hanswer]) (by simp [isConfirm, hanswer]) ?_ hless hclosed hlocks
    simp [isWrong, hanswer, shareEdits, ShareEdit.apply, CredentialShare.locked]
  | other es hes hsent hconfirmed hwrong =>
    rw [hid] at hsent hconfirmed hwrong
    have hsend : isSend id ev = false := by
      cases hanswer : ev.answer with
      | sent id' code =>
        have hne : id' ≠ id := fun heq => hsent code (by rw [hanswer, heq])
        simp [isSend, hanswer, hne]
      | _ => simp [isSend, hanswer]
    have hconfirm : isConfirm id ev = false := by
      cases hanswer : ev.answer with
      | confirmed id' code proof =>
        have hne : id' ≠ id := fun heq => hconfirmed code proof (by rw [hanswer, heq])
        simp [isConfirm, hanswer, hne]
      | _ => simp [isConfirm, hanswer]
    have hattempts := attempts_run hes r
    refine h.quiet (sameCodes_run hes r) hsend hconfirm ?_ (hattempts ▸ h.attempts_le) hclosed hlocks
    rw [hattempts]
    simp [isWrong, hwrong]

lemma lt_of_codeIsLive {now expiresAt : ℕ} (hexpires : r.verificationCodeExpiresAt = some expiresAt)
    (hlive : codeIsLive now r = true) : now < expiresAt := by
  simp only [codeIsLive, hexpires, Option.any_some, Bool.and_eq_true, decide_eq_true_eq] at hlive
  exact hlive.2

/-! ### What runs keep -/

/-- An answer about a share that is not there yet. -/
structure Untouched (log : List ShareEnd) (id : ℕ) : Prop where
  wrong : log.countP (isWrong id) = 0
  send : log.countP (isSend id) = 0
  lock : log.countP (writesLock id) = 0

lemma ShareMove.untouched (hmove : ShareMove rt collation ok held w ev script new)
    (hid : id ∉ shareTable.ids ev.before) :
    isWrong id ev = false ∧ isSend id ev = false ∧ writesLock id ev = false := by
  have habout : ev.answer.about ≠ some id := fun heq => hid (hmove.about id heq)
  refine ⟨?_, ?_, ?_⟩
  · cases hanswer : ev.answer with
    | wrongCode id' =>
      have hne : id' ≠ id := by
        rintro rfl
        exact habout (by rw [hanswer]; rfl)
      simp [isWrong, hanswer, hne]
    | _ => simp [isWrong, hanswer]
  · cases hanswer : ev.answer with
    | sent id' code =>
      have hne : id' ≠ id := by
        rintro rfl
        exact habout (by rw [hanswer]; rfl)
      simp [isSend, hanswer, hne]
    | _ => simp [isSend, hanswer]
  · have hnone : ev.before.row id = none := Table.find_eq_none hid
    simp [writesLock, hnone]

namespace History

lemma untouched (h : History rt collation ok w) (hid : id ∉ shareTable.ids w.db) :
    Untouched w.log id := by
  induction h with
  | start vault seq clock => exact ⟨rfl, rfl, rfl⟩
  | later _ _ _ ih => exact ih hid
  | @ended w ev held script new h hbefore hmove ih =>
    change id ∉ shareTable.ids ev.after at hid
    rw [hmove.changed.ids, List.mem_append, not_or] at hid
    obtain ⟨hwrong, hsend, hlock⟩ := hmove.untouched hid.1
    obtain ⟨hwrong', hsend', hlock'⟩ := ih (hbefore ▸ hid.1)
    change Untouched (ev :: w.log) id
    exact ⟨by simp [hwrong, hwrong'], by simp [hsend, hsend'], by simp [hlock, hlock']⟩

/-- **What every row says about the log.** -/
lemma tracked (h : History rt collation ok w) :
    ∀ r ∈ w.db.shares, Tracked w.log w.db.audit r.id r := by
  refine h.rows (I := fun w r => Tracked w.log w.db.audit r.id r) ?_ ?_ ?_
  · exact fun w n t r hI => hI
  · intro w ev held script new r h hbefore hmove hmem hI
    have hid : (shareEdits.run (script r.id) r).id = r.id := id_eq_of_terms (terms_run _ _)
    have hrow : ev.before.row r.id = some r := by
      rw [hbefore]
      exact Table.find_of_mem h.keyed.nodup hmem
    rw [hid]
    exact hI.ended hbefore hmove hrow
  · intro w ev held script new r h hbefore hmove hmem
    have hfresh : r.id ∉ shareTable.ids ev.before := (hmove.changed.fresh r hmem).2.2
    obtain ⟨hwrong, hsend, hlock⟩ := hmove.untouched hfresh
    obtain ⟨hwrong', hsend', hlock'⟩ := h.untouched (hbefore ▸ hfresh)
    have haudit : auditCount ev.after.audit r.id isLocked = 0 := by
      rw [hmove.auditCount_after rfl, hmove.script_eq_nil hfresh, hbefore,
        h.auditCount_eq_zero rfl (hbefore ▸ hfresh)]
      rfl
    -- a new row has no code, no proof, and its counters are zero
    have hterms := (hmove.fresh r hmem).terms
    change Tracked (ev :: w.log) ev.after.audit r.id r
    generalize r.id = id at hwrong hsend hlock hwrong' hsend' hlock' haudit
    rw [hterms]
    exact ⟨by simp [hwrong, hwrong', CredentialShare.terms], Nat.zero_le _,
      by simp [hsend, hsend', CredentialShare.terms], Nat.zero_le _,
      by simp [CodeTracked, CredentialShare.terms], by simp [ProofTracked, CredentialShare.terms],
      by simp [CredentialShare.terms], by simp [hlock, hlock', haudit]⟩

/-- The row of a share, as the log has left it, says what it says about the log. -/
lemma tracked_rowAfter (h : History rt collation ok w) {older : List ShareEnd}
    (hsuffix : older <:+ w.log) {r : CredentialShare} (hrow : rowAfter older id = some r) :
    ∃ audit, Tracked older audit id r := by
  obtain ⟨w', h', rfl⟩ := h.of_suffix hsuffix
  rw [← h'.row_eq] at hrow
  obtain ⟨hmem, hid⟩ := Table.find_eq_some hrow
  have hid' : r.id = id := hid
  exact ⟨w'.db.audit, hid' ▸ h'.tracked r hmem⟩

/-- **Verification**, for every history. -/
lemma verificationKept (h : History rt collation ok w) (id : ℕ) : VerificationKept w id where
  guesses := by
    by_cases hid : id ∈ shareTable.ids w.db
    · obtain ⟨r, hr, rfl⟩ := List.mem_map.1 hid
      have htracked := h.tracked r hr
      exact htracked.attempts ▸ htracked.attempts_le
    · rw [(h.untouched hid).wrong]
      exact Nat.zero_le _
  last := by
    intro newer ev older hlog hwrong hcount
    obtain ⟨w', held, script, new, h', rfl, -, hbefore, hmove⟩ := h.of_mem hlog
    have hanswer : ev.answer = .wrongCode id := by simpa [isWrong] using hwrong
    obtain ⟨r, hrow⟩ := Table.find_isSome_iff.2 (hmove.about id (by rw [hanswer]; rfl))
    obtain ⟨hmem, hid⟩ := Table.find_eq_some hrow
    have hid' : r.id = id := hid
    obtain ⟨hafter, happlied, hdoes⟩ := hmove.row_after hrow
    have htracked := h'.tracked r (hbefore ▸ hmem)
    rw [hid'] at htracked
    rw [← htracked.attempts] at hcount
    rw [hanswer] at hdoes
    simp only [ShareAnswer.Does, if_pos hid'.symm, if_pos hcount.ge] at hdoes
    obtain ⟨now, now', hes⟩ := hdoes
    rw [hes] at happlied hafter
    have hguard := happlied.1.1
    simp only [verifiableShareCondition, Bool.and_eq_true, decide_eq_true_eq] at hguard
    change ev.before.row id = some r at hrow
    rw [hrow, hafter]
    exact ⟨hguard.1.2, rfl⟩
  codes := by
    by_cases hid : id ∈ shareTable.ids w.db
    · obtain ⟨r, hr, rfl⟩ := List.mem_map.1 hid
      have htracked := h.tracked r hr
      exact htracked.sends ▸ htracked.sends_le
    · rw [(h.untouched hid).send]
      exact Nat.zero_le _
  confirms := by
    intro newer ev older code proof hlog hanswer
    obtain ⟨w', held, script, new, h', rfl, -, hbefore, hmove⟩ := h.of_mem hlog
    obtain ⟨r, hrow⟩ := Table.find_isSome_iff.2 (hmove.about id (by rw [hanswer]; rfl))
    obtain ⟨hmem, hid⟩ := Table.find_eq_some hrow
    have hid' : r.id = id := hid
    obtain ⟨hafter, happlied, hdoes⟩ := hmove.row_after hrow
    have htracked := h'.tracked r (hbefore ▸ hmem)
    rw [hid'] at htracked
    rw [hanswer] at hdoes
    simp only [ShareAnswer.Does, if_pos hid'.symm] at hdoes
    obtain ⟨hcode, now, hes⟩ := hdoes
    rw [hes] at happlied hafter
    obtain ⟨issue, sentAt, hlast, hissue, hsentAt, hexpires⟩ := htracked.code code hcode
    refine ⟨issue, sentAt, now, hlast, hissue, hsentAt, ?_, lt_of_codeIsLive hexpires happlied.1.2⟩
    rw [hafter]
    rfl
  counter := by
    intro newer ev older r hlog hrow
    have hsuffix : ev :: older <:+ w.log := ⟨newer, hlog.symm⟩
    obtain ⟨audit, htracked⟩ := h.tracked_rowAfter hsuffix hrow
    exact htracked.attempts
  locked := by
    by_cases hid : id ∈ shareTable.ids w.db
    · obtain ⟨r, hr, rfl⟩ := List.mem_map.1 hid
      have hlocks := (h.tracked r hr).locks
      exact ⟨hlocks ▸ (h.auditCount_le spends_locked r hr).1, hlocks.symm⟩
    · have hzero : lockRows id w.db = 0 := h.auditCount_eq_zero rfl hid
      rw [(h.untouched hid).lock, hzero]
      exact ⟨Nat.zero_le _, rfl⟩
  gate := by
    rintro newer ev older share bounded gate hlog hanswer rfl hreq
    obtain ⟨w', held, script, new, h', rfl, -, hbefore, hmove⟩ := h.of_mem hlog
    obtain ⟨seen, hsuffix, r, hrow, proof, checkedAt, hgate, hvalid⟩ :=
      hmove.gated share bounded gate hanswer hreq
    obtain ⟨audit, htracked⟩ := h'.tracked_rowAfter hsuffix hrow
    unfold hasValidVerificationProof at hvalid
    split at hvalid
    · simp at hvalid
    · rename_i verifiedAt hverifiedAt
      split_ifs at hvalid with hold
      simp only [Option.isSome_some, Bool.true_and, decide_eq_true_eq] at hvalid
      obtain ⟨confirm, code, hlast, hconfirm, hat⟩ := htracked.proof proof hvalid.symm
      exact ⟨seen, hsuffix, confirm, code, proof, checkedAt, verifiedAt, hgate, hlast, hconfirm,
        hat.trans hverifiedAt, not_le.1 hold⟩

end History

/-- In every run of the calls on shares and for every share: at most
`verificationMaxAttempts` confirms compare a wrong code, and the last of them locks the
share; at most `verificationMaxSends` codes are issued; a confirm succeeds only with the
newest code, which is not confirmed yet and was live when the confirm began; the counter
of the row is the number of wrong guesses in every committed state; the lock is written at
most once, with one audit row; and a gated share is opened only with the proof of the
confirm that was the newest in the committed state the reveal has read, made less than
`verificationProofTtlMs` before the check. -/
theorem verification_kept (rt : Runtime) (collation : Collation) (vault : Store) (seq clock : ℕ)
    {s : State ShareDb ShareLock ShareAnswer}
    (h : (shareSessions rt collation vault seq clock).Reaches (fun _ _ => True) s) (id : ℕ) :
    VerificationKept s.world id := by
  have hhistory : History rt collation (fun _ => True) s.world := by
    refine history_of_reaches (fun _ _ call _ => ?_) h
    cases call <;> trivial
  exact hhistory.verificationKept id

/-! ### A proof that has been replaced -/

/-- A gated share of the whole secret; its first code is sent and confirmed. -/
def confirmedOnce : List (Label ShareCall) :=
  [[.opens 0 (.createExternal { wholeRequest with expiresAt := 1000000 } false none)],
    List.replicate 11 (.runs 0 false), [.opens 1 (.requestVerification 7)], Label.runsFor 1 5,
    [.opens 2 (.confirmVerification 7 9)], Label.runsFor 2 6].flatten

/-- A reveal with the proof reads the row; before it claims the view, a second code is
confirmed. -/
def confirmedMeanwhile : List (Label ShareCall) :=
  [confirmedOnce, [.opens 3 (.revealExternal 7 (some 13))], Label.runsFor 3 3, [.tick 60000],
    [.opens 4 (.requestVerification 7)], Label.runsFor 4 5,
    [.opens 5 (.confirmVerification 7 18)], Label.runsFor 5 6, Label.runsFor 3 11].flatten

/-- The proof an answer opens a share with. -/
def ShareAnswer.proof : ShareAnswer → Option ℕ
  | .reveal (.ok _ _ gate) => gate.map Prod.fst
  | .confirmed _ _ proof => some proof
  | _ => none

/-- The gated share is opened with a proof that is not that of the newest confirm. -/
theorem stale_proof_opens :
    ∃ s, (shareSessions .ascii .byLength loginVault 0 0).Reaches (fun _ _ => True) s ∧
      (s.world.log.head?.any fun ev => ev.answer.opened.any (fun share => share.id = 7 &&
        share.verificationRequired) && ev.answer.proof = some 13) = true ∧
      (lastConfirm 7 s.world.log).bind (fun ev => ev.answer.proof) = some 22 := by
  obtain ⟨s, hs, hlog⟩ := Run.System.exists_of_exec (shareSessions .ascii .byLength loginVault 0 0)
    (fun _ _ => True) (shareSessions .ascii .byLength loginVault 0 0).init confirmedMeanwhile
    (fun s => (s.world.log.head?.any fun ev => ev.answer.opened.any (fun share => share.id = 7 &&
        share.verificationRequired) && ev.answer.proof = some 13) = true ∧
      (lastConfirm 7 s.world.log).bind (fun ev => ev.answer.proof) = some 22) (by decide +kernel)
  exact ⟨s, Run.System.steps_of_exec hs, hlog⟩

/-- The verification of that share. -/
theorem verification_kept_confirmedOnce :
    ∃ s, (shareSessions .ascii .byLength loginVault 0 0).Reaches (fun _ _ => True) s ∧
      s.world.log.countP (isConfirm 7) = 1 ∧ VerificationKept s.world 7 := by
  obtain ⟨s, hs, hlog⟩ := Run.System.exists_of_exec (shareSessions .ascii .byLength loginVault 0 0)
    (fun _ _ => True) (shareSessions .ascii .byLength loginVault 0 0).init confirmedOnce
    (fun s => s.world.log.countP (isConfirm 7) = 1) (by decide +kernel)
  have hreach := Run.System.steps_of_exec hs
  exact ⟨s, hreach, hlog, verification_kept .ascii .byLength loginVault 0 0 hreach 7⟩

end ProjectVault.Shares
