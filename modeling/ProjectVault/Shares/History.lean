import ProjectVault.Shares.Sessions

/-!
What the transactions on shares do, row by row.
-/

namespace ProjectVault.Shares

open Js Db

/-! ### Edits of a row -/

/-- The updates of a row, each with the moment it writes. -/
inductive ShareEdit where
  | view (now : ℕ) | viewAgain (now : ℕ) | expire (now : ℕ) | revoke (now : ℕ)
  | supersede (now : ℕ) | attempt | lock (reason : AttemptCapLockReason) (now : ℕ)
  | send (code now : ℕ) | reserve (now : ℕ) | verify (proof now : ℕ)
  deriving DecidableEq

namespace ShareEdit

/-- The `WHERE` of an update, with what its transaction has checked before. -/
def guard : ShareEdit → CredentialShare → Prop
  | view _, s => s.status = .active
  | viewAgain _, s => s.status = .active ∧ s.singleUse = false
  | expire now, s => s.status = .active ∧ s.expiresAt ≤ now
  | revoke _, s => s.status = .active
  | supersede _, s => s.isOutstanding = true
  | attempt, _ => True
  | lock _ _, s => s.status ≠ .revoked
  | send _ now, s => verifiableShareCondition now s = true ∧ sendAllowed now s = true
  | reserve now, s => verifiableShareCondition now s = true ∧ codeIsLive now s = true
  | verify _ _, _ => True

/-- The `SET` of an update. -/
def apply : ShareEdit → CredentialShare → CredentialShare
  | view now, s => { s with status := .viewed, viewCount := 1, firstViewedAt := some now }
  | viewAgain now, s =>
    { s with viewCount := s.viewCount + 1, firstViewedAt := some (s.firstViewedAt.getD now) }
  | expire _, s => { s with status := .expired }
  | revoke now, s => { s with status := .revoked, revokedAt := some now }
  | supersede now, s => s.superseded now
  | attempt, s => { s with revealAttemptCount := s.revealAttemptCount + 1 }
  | lock _ now, s => s.locked now
  | send code now, s => s.sent code now
  | reserve _, s => { s with verificationAttemptCount := s.verificationAttemptCount + 1 }
  | verify proof now, s => s.verified proof now

/-- The audit row that goes with an update. -/
def event : ShareEdit → Option ShareEvent
  | expire _ => some .expired
  | lock reason _ => some (.locked reason)
  | _ => none

end ShareEdit

/-- The edits of the table. -/
def shareEdits : Edits shareTable ShareEdit where
  guard := ShareEdit.guard
  apply := ShareEdit.apply
  id_apply e r := by cases e <;> rfl

/-- The columns that are written once: a row with the others reset. -/
def CredentialShare.terms (s : CredentialShare) : CredentialShare :=
  { s with
    revokedAt := none, supersededAt := none, firstViewedAt := none, viewCount := 0
    status := .active, revealAttemptCount := 0, verificationCodeHash := none
    verificationCodeExpiresAt := none, verificationAttemptCount := 0
    verificationSendCount := 0, verificationSentAt := none, verificationProofHash := none
    verifiedAt := none, lockedAt := none }

lemma terms_apply (e : ShareEdit) (r : CredentialShare) : (e.apply r).terms = r.terms := by
  cases e <;> rfl

/-- No update changes the terms of a share. -/
lemma terms_run (es : List ShareEdit) (r : CredentialShare) :
    (shareEdits.run es r).terms = r.terms :=
  Edits.run_column CredentialShare.terms r fun e _ r => terms_apply e r

/-- A share that is closed stays closed. -/
lemma status_apply_ne_active {e : ShareEdit} {r : CredentialShare} (hguard : e.guard r)
    (h : r.status ≠ .active) : (e.apply r).status ≠ .active := by
  cases e with
  | view now => exact absurd hguard h
  | viewAgain now => exact absurd hguard.1 h
  | expire now => exact absurd hguard.1 h
  | revoke now => exact absurd hguard h
  | supersede now => simp [ShareEdit.apply, CredentialShare.superseded]
  | lock reason now => simp [ShareEdit.apply, CredentialShare.locked]
  | _ => exact h

lemma status_run_ne_active {es : List ShareEdit} {r : CredentialShare}
    (happlied : shareEdits.Applied es r) (h : r.status ≠ .active) :
    (shareEdits.run es r).status ≠ .active :=
  happlied.keeps (I := fun r => r.status ≠ .active)
    (fun _ _ _ hguard hr => status_apply_ne_active hguard hr) h

/-! ### Answers -/

/-- The updates of the row `r` in a transaction that gives an answer. -/
def ShareAnswer.Does (answer : ShareAnswer) (r : CredentialShare) (es : List ShareEdit) : Prop :=
  match answer with
  | .reveal (.ok share _ _) =>
    if share.id = r.id then
      ∃ now, (es = [.view now] ∨ es = [.viewAgain now]) ∧ share = shareEdits.run es r
    else es = []
  | .reveal _ | .metadata _ | .swept _ => ∀ e ∈ es, ∃ now, e = .expire now
  | .losingAttempt => ∀ e ∈ es, (∃ now, e = .expire now) ∨ e = .attempt ∨
      ∃ now, e = .lock .revealAttemptsExhausted now
  | .revoke _ | .autoRevoked _ => ∀ e ∈ es, ∃ now, e = .revoke now
  | .superseded _ => ∀ e ∈ es, ∃ now, e = .supersede now
  | .sent id code => if id = r.id then ∃ now, es = [.send code now] else es = []
  | .confirmed id code proof =>
    if id = r.id then
      r.verificationCodeHash = some code ∧ ∃ now, es = [.reserve now, .verify proof now]
    else es = []
  | .wrongCode id =>
    if id = r.id then
      ∃ now, if verificationMaxAttempts ≤ r.verificationAttemptCount + 1 then
          ∃ now', es = [.reserve now, .lock .verificationAttemptsExhausted now']
        else es = [.reserve now]
    else es = []
  | _ => es = []

/-- The share an answer is about. -/
def ShareAnswer.about : ShareAnswer → Option ℕ
  | .reveal (.ok share _ _) => some share.id
  | .sent id _ => some id
  | .confirmed id _ _ => some id
  | .wrongCode id => some id
  | _ => none

/-- How many audit rows there are about a share, for the events of a kind. -/
def auditCount (audit : List ShareAudit) (id : ℕ) (kind : ShareEvent → Bool) : ℕ :=
  audit.countP fun a => a.shareId = id && kind a.event

/-- The edits of a row with an audit row of a kind. -/
def editCount (es : List ShareEdit) (kind : ShareEvent → Bool) : ℕ :=
  es.countP fun e => e.event.any kind

/-- Expiries and locks are audited, one row for each. -/
def Accounted (script : ℕ → List ShareEdit) (added : List ShareAudit) : Prop :=
  ∀ id kind, kind .viewed = false → auditCount added id kind = editCount (script id) kind

/-- A row as it is inserted. -/
structure CredentialShare.IsFresh (r : CredentialShare) : Prop where
  terms : r = r.terms
  member : r.recipientUserId ≠ none → r.verificationRequired = false

/-- The row of a share as the newest transaction of a log has left it. -/
def rowAfter (log : List ShareEnd) (id : ℕ) : Option CredentialShare :=
  log.head?.bind fun ev => ev.after.row id

section Moves

variable (rt : Runtime) (collation : Collation) (ok : ShareRequest → Prop)

/-- A new external share: its request, and the pending shares its transaction has counted
under the lock of their bucket. -/
structure Capped (held : Set ShareLock) (w : ShareWorld) (before : ShareDb) (r : CredentialShare)
    (request : ShareRequest) : Prop where
  allowed : ok request
  fieldKey : ∃ s, validateFieldKey rt s r.credentialId request.fieldKey = .ok r.fieldKey
  attributeKeys : ∃ s,
    validateAttributeKeys rt collation s r.credentialId request.attributeKeys = .ok r.attributeKeys
  lock : .cap r.credentialId (lockSuffix (bucketKeys r.fieldKey r.attributeKeys)) ∈ held
  counted : ∃ start ≤ w.clock, before.shares.countP
    (isPending r.credentialId (bucketKeys r.fieldKey r.attributeKeys) start) <
      maxPendingExternalSharesPerField

/-- The end of a transaction on shares. -/
structure ShareMove (held : Set ShareLock) (w : ShareWorld) (ev : ShareEnd)
    (script : ℕ → List ShareEdit) (new : List CredentialShare) : Prop where
  changed : shareEdits.Changed script new held w.seq ev.before ev.after
  does : ∀ r ∈ ev.before.shares, ev.answer.Does r (script r.id)
  about : ∀ id, ev.answer.about = some id → id ∈ shareTable.ids ev.before
  times : ∀ id now, .expire now ∈ script id → now ≤ w.clock
  audit : ∃ added, ev.after.audit = added ++ ev.before.audit ∧ Accounted script added
  fresh : ∀ r ∈ new, r.IsFresh
  alone : new.length ≤ 1
  capped : ∀ r ∈ new, r.recipientType = .external →
    ∃ request, Capped rt collation ok held w ev.before r request
  gated : ∀ share bounded gate, ev.answer = .reveal (.ok share bounded gate) →
    share.verificationRequired = true →
    ∃ older, older <:+ w.log ∧ ∃ r, rowAfter older share.id = some r ∧ ∃ proof checkedAt,
      gate = some (proof, checkedAt) ∧ hasValidVerificationProof r (some proof) checkedAt = true

/-- The worlds that transactions lead to from a database without shares. -/
inductive History : ShareWorld → Prop where
  | start (vault : Store) (seq clock : ℕ) : History (noShares vault seq clock)
  | later {w : ShareWorld} {n t : ℕ} (h : History w) (hn : w.seq ≤ n) (ht : w.clock ≤ t) :
      History { w with seq := n, clock := t }
  | ended {w : ShareWorld} {ev : ShareEnd} {held : Set ShareLock} {script : ℕ → List ShareEdit}
      {new : List CredentialShare} (h : History w) (hbefore : ev.before = w.db)
      (hmove : ShareMove rt collation ok held w ev script new) : History (w.ended ev)

/-- The agreement of the transactions on shares. -/
def shareProtocol : Protocol ShareDb ShareLock ShareAnswer where
  inv := History rt collation ok
  move held w ev := ∃ script new, ShareMove rt collation ok held w ev script new
  inv_move h hbefore _ hmove := by
    obtain ⟨script, new, hm⟩ := hmove
    exact .ended h hbefore hm
  inv_later h hn ht := .later h hn ht

end Moves

variable {rt : Runtime} {collation : Collation} {ok : ShareRequest → Prop}

lemma shareProtocol_respected : shareEdits.Respected (shareProtocol rt collation ok) := by
  rintro held w ev - - ⟨script, new, h⟩
  exact ⟨script, new, h.changed⟩

namespace History

/-- Ids are unique. -/
lemma keyed {w : ShareWorld} (h : History rt collation ok w) : shareTable.Keyed w := by
  induction h with
  | start vault seq clock => exact ⟨List.nodup_nil, by simp [shareTable, noShares]⟩
  | later _ hn _ ih => exact ⟨ih.nodup, fun r hr => (ih.drawn r hr).trans_le hn⟩
  | ended _ hbefore hmove ih => exact hmove.changed.keyed hbefore ih

/-- **Row rule**: what a new row has and every transaction keeps holds of every row. -/
lemma rows {I : ShareWorld → CredentialShare → Prop}
    (hlater : ∀ w n t r, I w r → I { w with seq := n, clock := t } r)
    (hkept : ∀ w ev held script new r, History rt collation ok w → ev.before = w.db →
      ShareMove rt collation ok held w ev script new → r ∈ w.db.shares → I w r →
      I (w.ended ev) (shareEdits.run (script r.id) r))
    (hnew : ∀ w ev held script new r, History rt collation ok w → ev.before = w.db →
      ShareMove rt collation ok held w ev script new → r ∈ new → I (w.ended ev) r)
    {w : ShareWorld} (h : History rt collation ok w) : ∀ r ∈ w.db.shares, I w r := by
  induction h with
  | start vault seq clock => simp [noShares]
  | later _ _ _ ih => exact fun r hr => hlater _ _ _ r (ih r hr)
  | ended h hbefore hmove ih =>
    intro r hr
    have hrows := hmove.changed.rows
    change r ∈ shareTable.rows _ at hr
    rw [World.ended, hrows, List.mem_append, List.mem_map] at hr
    rcases hr with ⟨r', hr', rfl⟩ | hr
    · have hmem : r' ∈ shareTable.rows _ := hbefore ▸ hr'
      exact hkept _ _ _ _ _ r' h hbefore hmove hmem (ih r' hmem)
    · exact hnew _ _ _ _ _ r h hbefore hmove hr

lemma member {w : ShareWorld} (h : History rt collation ok w) :
    ∀ r ∈ w.db.shares, r.recipientUserId ≠ none → r.verificationRequired = false := by
  refine h.rows (I := fun _ r => r.recipientUserId ≠ none → r.verificationRequired = false) ?_ ?_ ?_
  · exact fun w n t r hI => hI
  · intro w ev held script new r _ _ _ _ hI
    have hterms := terms_run (script r.id) r
    have huser := congrArg CredentialShare.recipientUserId hterms
    have hreq := congrArg CredentialShare.verificationRequired hterms
    simp only [CredentialShare.terms] at huser hreq
    rw [huser, hreq]
    exact hI
  · exact fun w ev held script new r _ _ hmove hr => (hmove.fresh r hr).member

/-- The newest event of the log has left the committed rows. -/
lemma row_eq {w : ShareWorld} (h : History rt collation ok w) (id : ℕ) :
    w.db.row id = rowAfter w.log id := by
  induction h with
  | start vault seq clock => rfl
  | later _ _ _ ih => exact ih
  | ended _ _ _ _ => rfl

/-- What was logged earlier is a history of its own. -/
lemma of_suffix {w : ShareWorld} (h : History rt collation ok w) {older : List ShareEnd}
    (hsuffix : older <:+ w.log) : ∃ w', History rt collation ok w' ∧ w'.log = older := by
  induction h with
  | start vault seq clock =>
    refine ⟨noShares vault seq clock, .start vault seq clock, ?_⟩
    exact (List.suffix_nil.1 hsuffix).symm
  | later _ _ _ ih => exact ih hsuffix
  | @ended w ev held script new h hbefore hmove ih =>
    rcases List.suffix_cons_iff.1 hsuffix with rfl | hsuffix
    · exact ⟨w.ended ev, .ended h hbefore hmove, rfl⟩
    · exact ih hsuffix

/-- Every logged event was a move. -/
lemma of_mem {w : ShareWorld} (h : History rt collation ok w) {newer older : List ShareEnd}
    {ev : ShareEnd} (hlog : w.log = newer ++ ev :: older) :
    ∃ w' held script new, History rt collation ok w' ∧ w'.log = older ∧ w'.clock ≤ w.clock ∧
      ev.before = w'.db ∧ ShareMove rt collation ok held w' ev script new := by
  induction h generalizing newer with
  | start vault seq clock => simp [noShares] at hlog
  | later _ _ ht ih =>
    obtain ⟨w', held, script, new, h', hlog', hclock, hrest⟩ := ih hlog
    exact ⟨w', held, script, new, h', hlog', hclock.trans ht, hrest⟩
  | @ended w ev' held script new h hbefore hmove ih =>
    cases newer with
    | nil =>
      cases hlog
      exact ⟨w, held, script, new, h, rfl, le_rfl, hbefore, hmove⟩
    | cons e newer => exact ih (List.cons.inj hlog).2

end History

end ProjectVault.Shares
