import ProjectVault.Auth.UserSessions

/-!
Revocations of sessions and the organization credentials of a user session.
-/

namespace Auth

variable {env : AuthEnv} {s s' : AuthState} {i j n x : ℕ} {tx tx' : AuthTx} {e : AuthState.End}
  {db db' : AuthDb} {targets : List Target} {pending : List ℕ}

/-! ### Targets -/

/-- The session is revoked. -/
def AuthDb.Revoked (db : AuthDb) (x : ℕ) : Prop :=
  ∃ row, db.sessions x = some row ∧ row.revokedAt.isSome = true

lemma AuthDb.Revoked.extends (h : db.Revoked x) (hext : db.Extends db') : db'.Revoked x := by
  obtain ⟨row, hrow, hrevoked⟩ := h
  obtain ⟨row', hrow', hlater⟩ := hext.session x row hrow
  exact ⟨row', hrow', hlater.revoked hrevoked⟩

/-- How a revocation under way accounts for a session. -/
inductive Targeted (db : AuthDb) (targets : List Target) (pending : List ℕ) (x : ℕ) : Prop where
  | revoked (h : db.Revoked x)
  | pending (h : x ∈ pending) (hrow : ∃ row, db.sessions x = some row)
  | target (target : Target) (h : target ∈ targets) (hx : target.sessionId = x)
      (hrow : ∃ row, db.sessions x = some row ∧ target.matches row = true)

lemma Target.matches_later {target : Target} {row row' : SessionRow} (h : row.Later row') :
    target.matches row' = target.matches row := by
  rw [Target.matches, h.userId, h.orgId, Target.matches]

/-- Later tables account for the session in the same way. -/
lemma Targeted.extends (h : Targeted db targets pending x) (hext : db.Extends db') :
    Targeted db' targets pending x := by
  cases h with
  | revoked h => exact .revoked (h.extends hext)
  | pending h hrow =>
    obtain ⟨row, hrow⟩ := hrow
    obtain ⟨row', hrow', -⟩ := hext.session x row hrow
    exact .pending h ⟨row', hrow'⟩
  | target target h hx hrow =>
    obtain ⟨row, hrow, hmatches⟩ := hrow
    obtain ⟨row', hrow', hlater⟩ := hext.session x row hrow
    exact .target target h hx ⟨row', hrow', (Target.matches_later hlater).trans hmatches⟩

lemma mem_revokeNext_of_mem {target : Target} (h : x ∈ pending) :
    x ∈ s.revokeNext target pending := by
  unfold AuthState.revokeNext
  split
  · exact List.mem_cons_of_mem _ h
  · exact h

/-- **One target**: the session it names is revoked, or has been. -/
lemma Targeted.next (h : Targeted s.db targets pending x) (target : Target) :
    Targeted s.db (targets.erase target) (s.revokeNext target pending) x := by
  cases h with
  | revoked h => exact .revoked h
  | pending h hrow => exact .pending (mem_revokeNext_of_mem h) hrow
  | target other h hx hrow =>
    by_cases heq : other = target
    · subst heq
      obtain ⟨row, hrow, hmatches⟩ := hrow
      by_cases hrevoked : row.revokedAt.isSome = true
      · exact .revoked ⟨row, hrow, hrevoked⟩
      by_cases hmem : x ∈ pending
      · exact .pending (mem_revokeNext_of_mem hmem) ⟨row, hrow⟩
      refine .pending ?_ ⟨row, hrow⟩
      have hnone : row.revokedAt.isNone = true := by
        cases hat : row.revokedAt with
        | none => rfl
        | some t => exact absurd (by rw [hat]; rfl) hrevoked
      have hlive : (s.db.sessions x).any
          (fun row => row.revokedAt.isNone && other.matches row) = true := by
        rw [hrow]
        exact Bool.and_eq_true_iff.2 ⟨hnone, hmatches⟩
      rw [AuthState.revokeNext, hx, if_pos ⟨hmem, hlive⟩]
      exact List.mem_cons_self
    · exact .target other ((List.mem_erase_of_ne heq).2 h) hx hrow

/-- The commit of a revocation that has come to all its targets. -/
lemma Targeted.commit (h : Targeted db [] pending x) (now : ℤ) :
    (db.revokeSessions pending now).Revoked x := by
  cases h with
  | revoked h => exact h.extends (AuthDb.extends_revokeSessions _ _)
  | pending h hrow =>
    obtain ⟨row, hrow⟩ := hrow
    refine ⟨row.revoke now, ?_, rfl⟩
    rw [AuthDb.revokeSessions_sessions, if_pos h, hrow]
    rfl
  | target target h => cases h

/-! ### Credentials -/

/-- The user session an exchange about to end has been given. -/
def AuthTx.exchanges : AuthTx → Option ℕ
  | inserted l _ _ _ => l.userSession
  | _ => none

/-- A revocation of the user session that will commit has read its credentials. -/
def AuthTx.hasReadLinks (n : ℕ) : AuthTx → Bool
  | revoking (.userSession revocation) _ _ =>
    revocation.sessionId = n ∧ revocation.ending = .returns
  | _ => false

/-- Every exchange ends while its user session is unrevoked and no revocation has read its
credentials. -/
def ExchangesInTime (s : AuthState) : AuthLabel → Prop
  | .finish i => ∀ n ∈ (s.txs i).exchanges,
      (s.db.userSessions n).any (·.revokedAt.isNone) = true ∧
        ∀ j ∈ s.slots, (s.txs j).hasReadLinks n = false
  | _ => True

instance (s : AuthState) : (a : AuthLabel) → Decidable (ExchangesInTime s a)
  | .finish i => inferInstanceAs (Decidable (∀ n ∈ (s.txs i).exchanges,
      (s.db.userSessions n).any (·.revokedAt.isNone) = true ∧
        ∀ j ∈ s.slots, (s.txs j).hasReadLinks n = false))
  | .tick _ | .issueUserSession _ | .setMember .. | .createOrganization _ | .touchSession _
  | .prune _ | .call .. | .runs .. | .rollback _ => .isTrue trivial

/-- No credential of a revoked user session is live. -/
def CredentialsDie (db : AuthDb) : Prop :=
  ∀ link ∈ db.cliOrgCredentials, ∀ row, db.userSessions link.userSessionId = some row →
    row.revokedAt.isSome = true → db.Revoked link.sessionId

structure CredentialInv (s : AuthState) : Prop where
  inv : AuthInv s
  die : CredentialsDie s.db
  linked : ∀ link ∈ s.db.cliOrgCredentials, ∃ session, s.db.sessions link.sessionId = some session ∧
    session.orgId = link.orgId
  reading : ∀ i r targets pending, s.txs i = .revoking (.userSession r) targets pending →
    r.ending = .returns → ∀ link ∈ s.db.cliOrgCredentials, link.userSessionId = r.sessionId →
      Targeted s.db targets pending link.sessionId

lemma targeted_of_link {r : UserRevocation} (choice : List ℕ) {link : CliOrgCredential}
    (hlink : link ∈ s.db.cliOrgCredentials) (hn : link.userSessionId = r.sessionId)
    (hrow : ∃ session, s.db.sessions link.sessionId = some session ∧
      session.orgId = link.orgId) :
    Targeted s.db (s.targets choice (.userSession r)) [] link.sessionId := by
  refine .target ⟨link.sessionId, none, some link.orgId⟩ ?_ rfl ?_
  · exact List.mem_map.2 ⟨link, List.mem_filter.2 ⟨hlink, decide_eq_true hn⟩, rfl⟩
  · obtain ⟨session, hsession, horg⟩ := hrow
    exact ⟨session, hsession, by simp [Target.matches, horg]⟩

lemma CredentialInv.moves (h : CredentialInv s) (hmove : Moves env s i (s.txs i) tx') :
    CredentialInv (s.put i tx') := by
  refine ⟨h.inv.moves hmove, h.die, h.linked, fun k r targets pending hk hreturns => ?_⟩
  rw [put_txs] at hk
  split at hk
  · subst hk
    generalize htx : s.txs i = tx at hmove
    cases hmove with
    | revokeLinks r choice =>
      exact fun link hlink hn => targeted_of_link (s := s) choice hlink hn (h.linked link hlink)
    | enumerated job choice =>
      exact fun link hlink hn => targeted_of_link (s := s) choice hlink hn (h.linked link hlink)
    | next job targets pending target hmem hfree =>
      exact fun link hlink hn => (h.reading i r targets pending htx hreturns link hlink hn).next
        target
  · exact h.reading k r targets pending hk hreturns

/-- A user session is newly revoked only by a revocation that returns. -/
lemma Finishes.userSessions_revoked {row' : UserSessionRow} (hend : Finishes env s tx e)
    (hrow : e.db.userSessions n = some row') (hrevoked : row'.revokedAt.isSome = true) :
    (∃ row, s.db.userSessions n = some row ∧ row.revokedAt.isSome = true) ∨
      ∃ r pending, tx = .revoking (.userSession r) [] pending ∧ r.ending = .returns ∧
        r.sessionId = n ∧
        e.db = (s.db.revokeUserSession r.sessionId r.now).revokeSessions pending s.now := by
  cases hend with
  | userRotated token now row session =>
    simp only [AuthDb.rotateUserRefresh] at hrow
    split at hrow
    · obtain ⟨row, hold, rfl⟩ := Option.map_eq_some_iff.1 hrow
      exact .inl ⟨row, hold, hrevoked⟩
    · exact .inl ⟨row', hrow, hrevoked⟩
  | touched m userId now =>
    simp only [AuthDb.touchUserSession] at hrow
    split at hrow
    · obtain ⟨row, hold, rfl⟩ := Option.map_eq_some_iff.1 hrow
      exact .inl ⟨row, hold, hrevoked⟩
    · exact .inl ⟨row', hrow, hrevoked⟩
  | userRevoked r pending hreturns =>
    simp only [AuthDb.revokeSessions, AuthDb.revokeUserSession] at hrow
    split at hrow
    · rename_i hn
      exact .inr ⟨r, pending, rfl, hreturns, hn.symm, rfl⟩
    · exact .inl ⟨row', hrow, hrevoked⟩
  | _ => exact .inl ⟨row', hrow, hrevoked⟩

lemma Finishes.inserted_session {l : Login} {row : SessionRow}
    (hend : Finishes env s (.inserted l n row pending) e) :
    e.db.sessions n = some row ∧ e.db.userSessions = s.db.userSessions := by
  cases hend with
  | inserted => exact ⟨Function.update_self .., rfl⟩

lemma CredentialInv.ended (h : CredentialInv s) (hok : ExchangesInTime s (.finish i))
    (hend : Finishes env s (s.txs i) e) : CredentialInv (s.ended i e) := by
  have hext := hend.extends h.inv
  refine ⟨h.inv.ended hend, ?_, ?_, ?_⟩
  · intro link hlink row hrow hrevoked
    rcases hend.credentials_cases hlink with hold | ⟨l, session, pending, htx, hl, -⟩
    · rcases hend.userSessions_revoked hrow hrevoked with
        ⟨row₀, hrow₀, hrevoked₀⟩ | ⟨r, pending, htx, hreturns, hn, hdb⟩
      · exact (h.die link hold row₀ hrow₀ hrevoked₀).extends hext
      · have htargeted := h.reading i r [] pending htx hreturns link hold hn.symm
        change e.db.Revoked link.sessionId
        rw [hdb]
        exact (htargeted.extends (AuthDb.extends_revokeUserSession _ _)).commit s.now
    · -- the user session of a new credential is unrevoked
      obtain ⟨hlive, -⟩ := hok link.userSessionId (by rw [htx]; exact hl)
      rw [htx] at hend
      rw [show (s.ended i e).db.userSessions = s.db.userSessions from hend.inserted_session.2]
        at hrow
      rw [hrow] at hlive
      rw [Option.any_some, Option.isNone_iff_eq_none] at hlive
      rw [hlive] at hrevoked
      cases hrevoked
  · intro link hlink
    rcases hend.credentials_cases hlink with hold | ⟨l, session, pending, htx, -, horg⟩
    · obtain ⟨session, hsession, horg⟩ := h.linked link hold
      obtain ⟨session', hsession', hlater⟩ := hext.session _ session hsession
      exact ⟨session', hsession', hlater.orgId.trans horg⟩
    · rw [htx] at hend
      exact ⟨session, hend.inserted_session.1, horg⟩
  · intro k r targets pending hk hreturns link hlink hn
    rw [ended_txs] at hk
    split at hk
    · exact absurd hk (hend.next_ne_revoking _ _ _)
    rcases hend.credentials_cases hlink with hold | ⟨l, session, pending', htx, hl, -⟩
    · exact (h.reading k r targets pending hk hreturns link hold hn).extends hext
    · -- a new credential comes before the credentials are read
      obtain ⟨-, hread⟩ := hok link.userSessionId (by rw [htx]; exact hl)
      have hopen : k ∈ s.slots := h.inv.opened k fun hidle => by
        rw [hk] at hidle
        cases hidle
      have hnone := hread k hopen
      rw [hk] at hnone
      exact absurd ⟨hn.symm, hreturns⟩ (of_decide_eq_false hnone)

lemma CredentialInv.outside (h : CredentialInv s) (hout : Outside env s s') :
    CredentialInv s' := by
  have hext := hout.extends h.inv
  have hlinks : s'.db.cliOrgCredentials = s.db.cliOrgCredentials := by cases hout <;> rfl
  refine ⟨h.inv.outside hout, ?_, ?_, ?_⟩
  · intro link hlink row hrow hrevoked
    rw [hlinks] at hlink
    suffices hold : ∃ row, s.db.userSessions link.userSessionId = some row ∧
        row.revokedAt.isSome = true by
      obtain ⟨row₀, hrow₀, hrevoked₀⟩ := hold
      exact (h.die link hlink row₀ hrow₀ hrevoked₀).extends hext
    cases hout with
    | issueUserSession userId =>
      simp only [AuthDb.issueUserSession, Function.update_apply] at hrow
      split at hrow
      · cases hrow
        cases hrevoked
      · exact ⟨row, hrow, hrevoked⟩
    | _ => exact ⟨row, hrow, hrevoked⟩
  · intro link hlink
    obtain ⟨session, hsession, horg⟩ := h.linked link (hlinks ▸ hlink)
    obtain ⟨session', hsession', hlater⟩ := hext.session _ session hsession
    exact ⟨session', hsession', hlater.orgId.trans horg⟩
  · intro k r targets pending hk hreturns link hlink hn
    rw [hout.txs] at hk
    exact (h.reading k r targets pending hk hreturns link (hlinks ▸ hlink) hn).extends hext

/-- **One step** keeps the credentials of revoked user sessions dead. -/
lemma CredentialInv.step {a : AuthLabel} (h : CredentialInv s) (hok : ExchangesInTime s a)
    (hstep : authStep env s a = some s') : CredentialInv s' := by
  cases authStep_cases hstep with
  | moves i hmove _ => exact h.moves hmove
  | finish i hend => exact h.ended hok hend
  | outside hout => exact h.outside hout

/-- **No credential outlives its user session** where every exchange ends in time. -/
theorem credentials_die (h : (authSystem env).Reaches ExchangesInTime s) : CredentialsDie s.db := by
  have hinv : CredentialInv s := by
    refine Run.System.Reaches.invariant (P := CredentialInv) ?_
      (fun _ _ _ hinv hok hstep => hinv.step hok hstep) h
    exact ⟨authInv_init, fun _ hlink => (nomatch hlink), fun _ hlink => (nomatch hlink),
      fun _ _ _ _ htx => (nomatch htx)⟩
  exact hinv.die

/-- An exchange and the revocation of its user session: the user session is verified, then one of the
two is finished before the other begins its own transaction. -/
def verifiedRun : List AuthLabel :=
  [.setMember 7 1 true, .issueUserSession 7, .call 0 (.verifyUserSession ⟨7, 1, 0⟩)] ++
    AuthLabel.runsFor 0 2 ++ [.finish 0]

def exchangeRun : List AuthLabel :=
  [.call 0 (.exchangeOrgCredential 1)] ++ AuthLabel.runsFor 0 3 ++ [.finish 0]

def revokeRun : List AuthLabel :=
  [.call 1 (.revokeUserSessionById 0 7)] ++ AuthLabel.runsFor 1 4

/-- The exchange first. -/
theorem credentials_die_exchanged :
    ∃ s, (authSystem .default).Reaches ExchangesInTime s ∧
      (∃ link ∈ s.db.cliOrgCredentials, link.userSessionId = 0) ∧
      (s.db.userSessions 0).any (·.revokedAt.isSome) = true ∧ CredentialsDie s.db := by
  obtain ⟨s, hexec, hlink, hrevoked⟩ :=
    Run.System.exists_of_exec (authSystem .default) ExchangesInTime (authSystem .default).init
      (verifiedRun ++ exchangeRun ++ revokeRun ++ [.runs 1 [16], .finish 1])
      (fun s => (∃ link ∈ s.db.cliOrgCredentials, link.userSessionId = 0) ∧
        (s.db.userSessions 0).any (·.revokedAt.isSome) = true) (by decide +kernel)
  have hreach := Run.System.steps_of_exec hexec
  exact ⟨s, hreach, hlink, hrevoked, credentials_die hreach⟩

/-- The revocation first: the exchange has verified the user session and does not look again, and
its credential outlives the user session. -/
theorem credential_outlives_userSession :
    ∃ s, (authSystem .default).Reaches (fun _ _ => True) s ∧ ¬ CredentialsDie s.db := by
  obtain ⟨s, hexec, link, hlink, hrevoked, hlive⟩ :=
    Run.System.exists_of_exec (authSystem .default) (fun _ _ => True) (authSystem .default).init
      (verifiedRun ++ revokeRun ++ [.finish 1] ++ exchangeRun)
      (fun s => ∃ link ∈ s.db.cliOrgCredentials,
        (s.db.userSessions link.userSessionId).any (·.revokedAt.isSome) = true ∧
        (s.db.sessions link.sessionId).any (·.revokedAt.isSome) = false) (by decide +kernel)
  refine ⟨s, Run.System.steps_of_exec hexec, fun hdie => ?_⟩
  obtain ⟨row, hrow, hsome⟩ := (Option.any_eq_true _ _).1 hrevoked
  obtain ⟨session, hsession, hdead⟩ := hdie link hlink row hrow hsome
  rw [hsession, Option.any_some, hdead] at hlive
  cases hlive

end Auth
