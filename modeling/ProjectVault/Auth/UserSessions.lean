import ProjectVault.Auth.Invariant

/-!
What a user session of the command line client still admits.
-/

namespace Auth

variable {env : AuthEnv} {s s' : AuthState} {i n : ℕ} {tx tx' : AuthTx} {e : AuthState.End}

/-! ### Uses -/

/-- The user session a login exchanges. -/
def Job.userSession? : Job → Option ℕ
  | .login l => l.userSession
  | _ => none

/-- A request has checked the user session and may yet succeed with it. -/
def AuthTx.uses (n : ℕ) : AuthTx → Bool
  | userRotating _ _ row _ => row.userSessionId = n
  | userRotated _ _ row _ => row.userSessionId = n
  | touching m _ _ => m = n
  | touched m _ _ => m = n
  | verified m _ => m = n
  | asking job => job.userSession? = some n
  | enumerating job => job.userSession? = some n
  | revoking job _ _ => job.userSession? = some n
  | inserted l _ _ _ => l.userSession = some n
  | _ => false

/-- A request for the user session was called before a time and has not checked it yet. -/
def AuthTx.calledBefore (db : AuthDb) (n : ℕ) (t : ℤ) : AuthTx → Bool
  | presenting _ token now =>
    now < t ∧ (db.userRefreshTokens token).any (fun row => row.userSessionId = n) = true
  | presented _ _ now row => now < t ∧ row.userSessionId = n
  | verifying claims now => now < t ∧ claims.jti = n
  | _ => false

/-- No request succeeds with the user session any more. -/
structure Barred (s : AuthState) (n : ℕ) : Prop where
  unused : ∀ i, (s.txs i).uses n = false
  shut : ∃ row, s.db.userSessions n = some row ∧ (row.revokedAt.isSome = true ∨
    row.expiresAt ≤ s.now ∧ ∀ i, (s.txs i).calledBefore s.db n row.expiresAt = false)

lemma rotateUserRefresh_rotates {row : UserRefreshTokenRow} {session : UserSessionRow} {now : ℤ}
    (h : rotateUserRefresh env row session now = .rotates) :
    session.revokedAt = none ∧ row.revokedAt = none ∧ row.usedAt = none ∧
      now < session.expiresAt := by
  unfold rotateUserRefresh at h
  split at h
  · cases h
  rename_i hrevoked
  split at h
  · simp only at h
    split at h <;> cases h
  rename_i hused
  split_ifs at h with hexpired
  simp only [Bool.or_eq_true, not_or, Bool.not_eq_true, Option.isSome_eq_false_iff,
    Option.isNone_iff_eq_none] at hrevoked hused
  exact ⟨hrevoked.2, hrevoked.1, hused, by omega⟩

lemma verifyUserSession_touches {claims : UserAccessClaims} {row : Option UserSessionRow} {now : ℤ}
    (h : verifyUserSession env claims row now = .touches) :
    ∃ session, row = some session ∧ session.revokedAt = none ∧ session.userId = claims.sub ∧
      now < session.expiresAt := by
  unfold verifyUserSession at h
  split at h
  · cases h
  rename_i session
  split_ifs at h with hlive
  simp only [Bool.or_eq_true, not_or, Bool.not_eq_true, Option.isSome_eq_false_iff,
    Option.isNone_iff_eq_none, bne_eq_false_iff_eq, decide_eq_false_iff_not] at hlive
  exact ⟨session, rfl, hlive.1.1.1, hlive.1.1.2, by omega⟩

lemma Barred.uses (h : Barred s n) (hmove : Moves env s i (s.txs i) tx') : tx'.uses n = false := by
  obtain ⟨row, hrow, hshut⟩ := h.shut
  have hunused := h.unused i
  -- a check that finds the user session live is of another one
  have hlive : ∀ {session : UserSessionRow} {t : ℤ} {m : ℕ},
      s.db.userSessions m = some session → session.revokedAt = none → t < session.expiresAt →
      (∀ t', m = n → t < t' → (s.txs i).calledBefore s.db n t' = true) → m ≠ n := by
    rintro session t m hsession hrevoked hlt hcalled rfl
    obtain rfl := Option.some.inj (hrow.symm.trans hsession)
    rcases hshut with hshut | ⟨-, hcalls⟩
    · rw [hrevoked] at hshut
      cases hshut
    · have hbefore := hcalled _ rfl hlt
      rw [hcalls] at hbefore
      cases hbefore
  generalize s.txs i = tx at hmove hunused hlive
  cases hmove with
  | userRotating token now row' session hsession hdecision =>
    obtain ⟨hrevoked, -, -, hlt⟩ := rotateUserRefresh_rotates hdecision
    exact decide_eq_false (hlive hsession hrevoked hlt fun t' hm ht =>
      decide_eq_true ⟨ht, hm⟩)
  | touching claims now hdecision =>
    obtain ⟨session, hsession, hrevoked, -, hlt⟩ := verifyUserSession_touches hdecision
    exact decide_eq_false (hlive hsession hrevoked hlt fun t' hm ht =>
      decide_eq_true ⟨ht, hm⟩)
  | userRotated token now row' session hfree => exact hunused
  | touched m userId now hfree => exact hunused
  | exchanging m userId orgId hmember =>
    exact decide_eq_false fun heq => of_decide_eq_false hunused (Option.some.inj heq)
  | enumerating job hfree => exact hunused
  | enumerated job choice => exact hunused
  | nextOrg userId orgId orgs pending => exact hunused
  | inserted l pending ttl => exact hunused
  | next job targets pending target hmem hfree => exact hunused
  | _ => rfl

/-- Calls come after the time the user session has expired. -/
lemma Moves.calledBefore {t : ℤ} (hmove : Moves env s i tx tx') (ht : t ≤ s.now)
    (hcalls : tx.calledBefore s.db n t = false) : tx'.calledBefore s.db n t = false := by
  cases hmove with
  | presenting use token => exact decide_eq_false fun hnow => absurd hnow.1 (not_lt.2 ht)
  | presented use token now row hrow hfree =>
    refine decide_eq_false fun hnow => of_decide_eq_false hcalls ⟨hnow.1, ?_⟩
    rw [hrow]
    exact decide_eq_true hnow.2
  | verifying claims => exact decide_eq_false fun hnow => absurd hnow.1 (not_lt.2 ht)
  | _ => rfl

/-- The end of a request that does not use the user session tells of no success with it. -/
lemma Finishes.not_accepted (hend : Finishes env s tx e) (hunused : tx.uses n = false) :
    .accepted n ∉ e.events ∧ e.next.uses n = false := by
  cases hend with
  | throwing token reused => exact ⟨by simp, rfl⟩
  | userRotated token now row session =>
    refine ⟨?_, rfl⟩
    rw [List.mem_singleton]
    exact fun heq => of_decide_eq_false hunused (AuthEvent.accepted.inj heq).symm
  | touched m userId now =>
    refine ⟨?_, hunused⟩
    rw [List.mem_singleton]
    exact fun heq => of_decide_eq_false hunused (AuthEvent.accepted.inj heq).symm
  | inserted l m row pending =>
    refine ⟨?_, rfl⟩
    simp only [List.mem_map, Option.mem_toList, not_exists, not_and]
    exact fun m' hm' heq => of_decide_eq_false hunused (AuthEvent.accepted.inj heq ▸ hm')
  | verified m userId => exact ⟨List.not_mem_nil, rfl⟩
  | userRevoked _ _ _ | sessions _ _ | rotated _ _ _ _ _ => exact ⟨List.not_mem_nil, rfl⟩
  | userThrown _ _ _ | userInOrg _ _ _ _ | org _ _ _ | recovery _ _ => exact ⟨by simp, rfl⟩

lemma Finishes.next_calledBefore (hend : Finishes env s tx e) (db : AuthDb) (n : ℕ) (t : ℤ) :
    e.next.calledBefore db n t = false := by
  cases hend <;> rfl

lemma calledBefore_congr {db db' : AuthDb} {t : ℤ}
    (h : ∀ token row, db'.userRefreshTokens token = some row → row.userSessionId = n →
      ∃ row₀, db.userRefreshTokens token = some row₀ ∧ row₀.userSessionId = n)
    (hcalls : tx.calledBefore db n t = false) : tx.calledBefore db' n t = false := by
  cases tx with
  | presenting use token now =>
    refine decide_eq_false fun hnow => of_decide_eq_false hcalls ⟨hnow.1, ?_⟩
    obtain ⟨row, hrow, hn⟩ := (Option.any_eq_true _ _).1 hnow.2
    obtain ⟨row₀, hrow₀, hn₀⟩ := h token row hrow (of_decide_eq_true hn)
    rw [hrow₀]
    exact decide_eq_true hn₀
  | _ => exact hcalls

variable (s') in
/-- The shut user session stays shut while its tokens are the old ones. -/
lemma Barred.shut_congr (h : Barred s n) (hext : s.db.Extends s'.db) (hnow : s.now ≤ s'.now)
    (hold : ∀ token row, s'.db.userRefreshTokens token = some row → row.userSessionId = n →
      ∃ row₀, s.db.userRefreshTokens token = some row₀ ∧ row₀.userSessionId = n)
    (hcalls : ∀ t, t ≤ s.now → (∀ i, (s.txs i).calledBefore s.db n t = false) →
      ∀ i, (s'.txs i).calledBefore s.db n t = false) :
    ∃ row, s'.db.userSessions n = some row ∧ (row.revokedAt.isSome = true ∨
      row.expiresAt ≤ s'.now ∧ ∀ i, (s'.txs i).calledBefore s'.db n row.expiresAt = false) := by
  obtain ⟨row, hrow, hshut⟩ := h.shut
  obtain ⟨row', hrow', hlater⟩ := hext.userSession n row hrow
  refine ⟨row', hrow', hshut.imp hlater.revoked ?_⟩
  rintro ⟨hexpired, hbefore⟩
  rw [hlater.expiresAt]
  exact ⟨hexpired.trans hnow, fun i =>
    calledBefore_congr hold (hcalls row.expiresAt hexpired hbefore i)⟩

/-- **Barred user sessions stay barred**, and no request succeeds with them. -/
lemma Barred.step {a : AuthLabel} (h : Barred s n) (hinv : AuthInv s)
    (hstep : authStep env s a = some s') :
    Barred s' n ∧ ∃ events, s'.log = events ++ s.log ∧ .accepted n ∉ events := by
  cases authStep_cases hstep with
  | moves i hmove ha =>
    refine ⟨⟨forall_txs_put (P := fun tx => tx.uses n = false) h.unused (h.uses hmove), ?_⟩, [], rfl,
      List.not_mem_nil⟩
    refine h.shut_congr (s.put i _) (.refl _) le_rfl (fun _ row hrow hn => ⟨row, hrow, hn⟩)
      fun t ht hcalls => ?_
    exact forall_txs_put (P := fun tx => tx.calledBefore s.db n t = false) hcalls
      (hmove.calledBefore ht (hcalls i))
  | finish i hend =>
    rename_i e
    obtain ⟨hevents, hnext⟩ := hend.not_accepted (h.unused i)
    refine ⟨⟨forall_txs_put (P := fun tx => tx.uses n = false) h.unused hnext, ?_⟩, e.events, rfl,
      hevents⟩
    refine h.shut_congr (s.ended i e) (hend.extends hinv) le_rfl ?_ fun t _ hcalls => ?_
    · intro token row hrow hn
      rcases hend.userTokens_cases hrow with
        ⟨row₀, hrow₀, hsame⟩ | ⟨-, token', now, row', session, htx, hsame⟩
      · exact ⟨row₀, hrow₀, hsame ▸ hn⟩
      · have hunused := h.unused i
        rw [htx] at hunused
        exact absurd (hsame.symm.trans hn) (of_decide_eq_false hunused)
    · refine forall_txs_put (P := fun tx => tx.calledBefore s.db n t = false) hcalls ?_
      exact hend.next_calledBefore s.db n t
  | outside hout =>
    have htxs := hout.txs
    have hext := hout.extends hinv
    refine ⟨⟨fun i => htxs ▸ h.unused i, ?_⟩, [], ?_, List.not_mem_nil⟩
    · refine h.shut_congr s' hext ?_ ?_ fun t _ hcalls i => htxs ▸ hcalls i
      · cases hout with
        | tick t ht => exact ht
        | _ => exact le_rfl
      · intro token row hrow hn
        cases hout with
        | issueUserSession userId =>
          simp only [AuthDb.issueUserSession, Function.update_apply] at hrow
          split at hrow
          · cases hrow
            obtain ⟨row, hn', -⟩ := h.shut
            exact absurd (h.shut.elim fun row hr => hinv.userSession_lt n row hr.1)
              (hn ▸ Nat.lt_irrefl _)
          · exact ⟨row, hrow, hn⟩
        | _ => exact ⟨row, hrow, hn⟩
    · cases hout <;> rfl

/-! ### Dead user sessions -/

/-- The user session is revoked, with its tokens and with every credential issued from it. -/
structure Dead (db : AuthDb) (n : ℕ) : Prop where
  session : ∃ row, db.userSessions n = some row ∧ row.revokedAt.isSome = true
  tokens : ∀ t row, db.userRefreshTokens t = some row → row.userSessionId = n →
    row.revokedAt.isSome = true
  credentials : ∀ link ∈ db.cliOrgCredentials, link.userSessionId = n →
    ∃ row, db.sessions link.sessionId = some row ∧ row.revokedAt.isSome = true

lemma Dead.barred (h : Dead s.db n) (hunused : ∀ i, (s.txs i).uses n = false) : Barred s n := by
  obtain ⟨row, hrow, hrevoked⟩ := h.session
  exact ⟨hunused, row, hrow, .inl hrevoked⟩

/-- A dead user session stays dead while it gets no token and no credential. -/
lemma Dead.congr {db db' : AuthDb} (h : Dead db n) (hext : db.Extends db')
    (htokens : ∀ t row, db'.userRefreshTokens t = some row → row.userSessionId = n →
      ∃ row₀, db.userRefreshTokens t = some row₀ ∧ row₀.userSessionId = n)
    (hlinks : ∀ link ∈ db'.cliOrgCredentials, link.userSessionId = n →
      link ∈ db.cliOrgCredentials) : Dead db' n where
  session := by
    obtain ⟨row, hrow, hrevoked⟩ := h.session
    obtain ⟨row', hrow', hlater⟩ := hext.userSession n row hrow
    exact ⟨row', hrow', hlater.revoked hrevoked⟩
  tokens t row ht hn := by
    obtain ⟨row₀, hrow₀, hn₀⟩ := htokens t row ht hn
    obtain ⟨row', hrow', hlater⟩ := hext.userToken t row₀ hrow₀
    obtain rfl := Option.some.inj (ht.symm.trans hrow')
    exact hlater.revoked (h.tokens t row₀ hrow₀ hn₀)
  credentials link hlink hn := by
    obtain ⟨row, hrow, hrevoked⟩ := h.credentials link (hlinks link hlink hn) hn
    obtain ⟨row', hrow', hlater⟩ := hext.session _ row hrow
    exact ⟨row', hrow', hlater.revoked hrevoked⟩

/-- The credential an end records is of the login it ends. -/
lemma Finishes.credentials_cases {link : CliOrgCredential} (hend : Finishes env s tx e)
    (hlink : link ∈ e.db.cliOrgCredentials) : link ∈ s.db.cliOrgCredentials ∨
      ∃ l row pending, tx = .inserted l link.sessionId row pending ∧
        l.userSession = some link.userSessionId ∧ row.orgId = link.orgId := by
  cases hend with
  | inserted l m row pending =>
    simp only [AuthDb.createLoginSession] at hlink
    split at hlink
    · rename_i k hk
      rcases List.mem_cons.1 hlink with rfl | hold
      · exact .inr ⟨l, row, pending, rfl, hk, rfl⟩
      · exact .inl hold
    · exact .inl hlink
  | _ => exact .inl hlink

/-- **Dead and unused user sessions stay dead.** -/
lemma Dead.step {a : AuthLabel} (h : Dead s.db n) (hunused : ∀ i, (s.txs i).uses n = false)
    (hinv : AuthInv s) (hstep : authStep env s a = some s') : Dead s'.db n := by
  cases authStep_cases hstep with
  | moves i hmove ha => exact h
  | finish i hend =>
    refine h.congr (hend.extends hinv) ?_ ?_
    · intro token row hrow hn
      rcases hend.userTokens_cases hrow with
        ⟨row₀, hrow₀, hsame⟩ | ⟨-, token', now, row', session, htx, hsame⟩
      · exact ⟨row₀, hrow₀, hsame ▸ hn⟩
      · have hi := hunused i
        rw [htx] at hi
        exact absurd (hsame.symm.trans hn) (of_decide_eq_false hi)
    · intro link hlink hn
      rcases hend.credentials_cases hlink with hold | ⟨l, row, pending, htx, hl, -⟩
      · exact hold
      · have hi := hunused i
        rw [htx] at hi
        exact absurd (hn ▸ hl) (of_decide_eq_false hi)
  | outside hout =>
    refine h.congr (hout.extends hinv) ?_ ?_
    · intro token row hrow hn
      cases hout with
      | issueUserSession userId =>
        simp only [AuthDb.issueUserSession, Function.update_apply] at hrow
        split at hrow
        · cases hrow
          obtain ⟨row', hrow', -⟩ := h.session
          exact absurd (hinv.userSession_lt n row' hrow') (hn ▸ Nat.lt_irrefl _)
        · exact ⟨row, hrow, hn⟩
      | _ => exact ⟨row, hrow, hn⟩
    · intro link hlink hn
      cases hout <;> exact hlink

/-! ### Reuse detection -/

/-- The user session whose token a failing body has found reused, or which it has found idle. -/
def AuthTx.detects : AuthTx → Option ℕ
  | throwing _ reused => reused
  | revoking (.userSession revocation) [] _ =>
    if revocation.ending = .throws then some revocation.sessionId else none
  | _ => none

/-- A request that detects reuse or idleness ends when the user session is dead already and unused. -/
def DetectsDead (s : AuthState) (a : AuthLabel) : Prop :=
  ∀ i n, a = .finish i → (s.txs i).detects = some n →
    Dead s.db n ∧ ∀ j, (s.txs j).uses n = false

/-- Every user session a request has found reused or idle is dead, and nothing has succeeded with it
since. -/
structure ReuseIsFinal (s : AuthState) : Prop where
  dead : ∀ n, .detected n ∈ s.log → Dead s.db n
  quiet : s.log.Pairwise fun newer older => ∀ n, older = .detected n → newer ≠ .accepted n

/-- The request that detects reuse or idleness leaves the tables as they were. -/
lemma Finishes.detected (hend : Finishes env s tx e) (h : .detected n ∈ e.events) :
    e.db = s.db ∧ tx.detects = some n := by
  cases hend with
  | throwing token reused =>
    refine ⟨rfl, ?_⟩
    obtain ⟨m, hm, heq⟩ := List.mem_map.1 h
    exact AuthEvent.detected.inj heq ▸ Option.mem_toList.1 hm
  | userThrown r pending hthrows =>
    refine ⟨rfl, ?_⟩
    rw [List.mem_singleton] at h
    cases h
    exact if_pos hthrows
  | inserted l m row pending =>
    obtain ⟨m, -, heq⟩ := List.mem_map.1 h
    cases heq
  | userRotated _ _ _ _ | touched _ _ _ | userInOrg _ _ _ _ | org _ _ _ | recovery _ _ =>
    exact nomatch List.mem_singleton.1 h
  | verified _ _ | userRevoked _ _ _ | sessions _ _ | rotated _ _ _ _ _ => cases h

/-- An end tells of one thing at most. -/
lemma Finishes.events_length (hend : Finishes env s tx e) : e.events.length ≤ 1 := by
  cases hend with
  | throwing token reused => cases reused <;> simp
  | inserted l m row pending => cases l.userSession <;> simp
  | _ => simp

lemma pairwise_of_length_le_one {R : AuthEvent → AuthEvent → Prop} {events : List AuthEvent}
    (h : events.length ≤ 1) : events.Pairwise R := by
  match events, h with
  | [], _ => exact List.Pairwise.nil
  | [event], _ => exact List.pairwise_singleton R event

/-- A request that goes on has found neither reuse nor idleness. -/
lemma rotates_not_detected {row : UserRefreshTokenRow} {session : UserSessionRow} {now : ℤ}
    (h : rotateUserRefresh env row session now = .rotates) :
    row.reused now = false ∧ idleExceeded env session.lastActiveAt now = false := by
  obtain ⟨-, -, hused, -⟩ := rotateUserRefresh_rotates h
  refine ⟨by rw [UserRefreshTokenRow.reused, hused]; rfl, ?_⟩
  unfold rotateUserRefresh at h
  split at h
  · cases h
  split at h
  · simp only at h
    split at h <;> cases h
  split at h
  · cases h
  split_ifs at h with hidle
  exact Bool.eq_false_iff.2 hidle

lemma touches_not_detected {claims : UserAccessClaims} {row : UserSessionRow} {now : ℤ}
    (h : verifyUserSession env claims (some row) now = .touches) :
    idleExceeded env row.lastActiveAt now = false := by
  simp only [verifyUserSession] at h
  split at h
  · cases h
  split_ifs at h with hidle
  exact Bool.eq_false_iff.2 hidle

/-- What runs keep: the detected user sessions are dead and unused. -/
structure Detections (s : AuthState) : Prop where
  inv : AuthInv s
  final : ReuseIsFinal s
  unused : ∀ n, .detected n ∈ s.log → ∀ i, (s.txs i).uses n = false

/-- **One step**: a detection of a dead user session is final. -/
lemma Detections.step {a : AuthLabel} (h : Detections s) (hok : DetectsDead s a)
    (hstep : authStep env s a = some s') : Detections s' := by
  -- what has been detected before stays dead and unused
  have hold : ∀ n, .detected n ∈ s.log → Dead s'.db n ∧ (∀ i, (s'.txs i).uses n = false) ∧
      ∃ events, s'.log = events ++ s.log ∧ .accepted n ∉ events := fun n hn => by
    obtain ⟨hbarred, hevents⟩ := ((h.final.dead n hn).barred (h.unused n hn)).step h.inv hstep
    exact ⟨(h.final.dead n hn).step (h.unused n hn) h.inv hstep, hbarred.unused, hevents⟩
  have hinv := h.inv.step hstep
  cases authStep_cases hstep with
  | moves i hmove ha => exact ⟨hinv, ⟨fun n hn => (hold n hn).1, h.final.quiet⟩, fun n hn =>
    (hold n hn).2.1⟩
  | outside hout =>
    have hlog : s'.log = s.log := by cases hout <;> rfl
    exact ⟨hinv, ⟨fun n hn => (hold n (hlog ▸ hn)).1, hlog ▸ h.final.quiet⟩, fun n hn =>
      (hold n (hlog ▸ hn)).2.1⟩
  | finish i hend =>
    rename_i e
    have hnew : ∀ n, .detected n ∈ e.events →
        Dead e.db n ∧ ∀ j, ((s.ended i e).txs j).uses n = false := fun n hn => by
      obtain ⟨hdb, hdetects⟩ := hend.detected hn
      obtain ⟨hdead, hunused⟩ := hok i n rfl hdetects
      exact ⟨hdb ▸ hdead, ((hdead.barred hunused).step h.inv hstep).1.unused⟩
    refine ⟨hinv, ⟨?_, ?_⟩, ?_⟩
    · intro n hn
      rcases List.mem_append.1 hn with hn | hn
      · exact (hnew n hn).1
      · exact (hold n hn).1
    · refine List.pairwise_append.2 ⟨pairwise_of_length_le_one hend.events_length, h.final.quiet,
        ?_⟩
      rintro event hevent _ holder n rfl rfl
      obtain ⟨-, -, events, hlog, hnot⟩ := hold n holder
      exact hnot (List.append_cancel_right hlog ▸ hevent)
    · intro n hn
      rcases List.mem_append.1 hn with hn | hn
      · exact (hnew n hn).2
      · exact (hold n hn).2.1

/-- **Reuse detection is final where it finds the user session dead**: a request that goes on has
found neither reuse nor idleness; a request that fails for one of them changes nothing itself; and
where each of them ends with the user session dead and unused, every detected user session is dead
for good and nothing succeeds with it any more. -/
theorem reuse_isFinal (h : (authSystem env).Reaches DetectsDead s) :
    (∀ row session now, rotateUserRefresh env row session now = .rotates →
      row.reused now = false ∧ idleExceeded env session.lastActiveAt now = false) ∧
    (∀ claims row now, verifyUserSession env claims (some row) now = .touches →
      idleExceeded env row.lastActiveAt now = false) ∧
    (∀ i e n, s.finish env (s.txs i) = some e → .detected n ∈ e.events → e.db = s.db) ∧
    ReuseIsFinal s := by
  refine ⟨fun _ _ _ => rotates_not_detected, fun _ _ _ => touches_not_detected,
    fun i e n hfinish hn => ((finishes_of_finish hfinish).detected hn).1, ?_⟩
  have hruns : Detections s := by
    refine Run.System.Reaches.invariant (P := Detections) ?_
      (fun _ _ _ hinv hok hstep => hinv.step hok hstep) h
    exact ⟨authInv_init, ⟨fun _ hn => (nomatch hn), List.Pairwise.nil⟩, fun _ hn => (nomatch hn)⟩
  exact hruns.final

/-- A refresh token is rotated, the client shows the used one again forty seconds later, and shows
the new one after that. -/
def reusedTokenRun : List AuthLabel :=
  [.issueUserSession 7, .call 0 (.refreshUserSession 1)] ++ AuthLabel.runsFor 0 3 ++
    [.finish 0, .tick 40000, .call 0 (.refreshUserSession 1)] ++ AuthLabel.runsFor 0 5 ++
    [.finish 0, .call 0 (.refreshUserSession 10)] ++ AuthLabel.runsFor 0 3 ++ [.finish 0]

/-- A refresh is accepted after a reuse. -/
def acceptsReused (s : AuthState) : Bool :=
  match s.log with
  | .accepted 0 :: .detected 0 :: _ => true
  | _ => false

/-- The reuse of a token revokes nothing: the revocation is rolled back with the request that throws,
and the next refresh succeeds. -/
theorem reuse_isForgotten :
    ∃ s, (authSystem .default).Reaches (fun _ _ => True) s ∧ ¬ ReuseIsFinal s ∧
      ∃ older, s.log = .accepted 0 :: .detected 0 :: older := by
  obtain ⟨s, hexec, hP⟩ := Run.System.exists_of_exec (authSystem .default) (fun _ _ => True)
    (authSystem .default).init reusedTokenRun (fun s => acceptsReused s = true) (by decide +kernel)
  have hlog : ∃ older, s.log = .accepted 0 :: .detected 0 :: older := by
    unfold acceptsReused at hP
    split at hP
    · rename_i older hlog
      exact ⟨older, hlog⟩
    · cases hP
  refine ⟨s, Run.System.steps_of_exec hexec, fun hfinal => ?_, hlog⟩
  obtain ⟨older, hlog⟩ := hlog
  have hquiet := hfinal.quiet
  rw [hlog] at hquiet
  exact (List.pairwise_cons.1 hquiet).1 _ List.mem_cons_self 0 rfl rfl

/-- No body ends that has detected something. -/
def EndsUndetected (s : AuthState) : AuthLabel → Prop
  | .finish i => (s.txs i).detects = none
  | _ => True

instance (s : AuthState) : (a : AuthLabel) → Decidable (EndsUndetected s a)
  | .finish i => inferInstanceAs (Decidable ((s.txs i).detects = none))
  | .tick _ | .issueUserSession _ | .setMember .. | .createOrganization _ | .touchSession _
  | .prune _ | .call .. | .runs .. | .rollback _ => .isTrue trivial

/-- The used token of a user session that has been signed out is shown again. -/
def signedOutRun : List AuthLabel :=
  [.issueUserSession 7, .call 0 (.refreshUserSession 1)] ++ AuthLabel.runsFor 0 3 ++
    [.finish 0, .call 1 (.revokeUserSessionById 0 7)] ++ AuthLabel.runsFor 1 4 ++
    [.finish 1, .tick 40000, .call 0 (.refreshUserSession 1)] ++ AuthLabel.runsFor 0 2

/-- A reuse detected in a dead user session is final. -/
theorem reuse_isFinal_signedOut :
    ∃ s, (authSystem .default).Reaches DetectsDead s ∧ .detected 0 ∈ s.log ∧ ReuseIsFinal s := by
  obtain ⟨s, hexec, htx, hdetects, hsession, htokens, hlinks, hunused⟩ :=
    Run.System.exists_of_exec (authSystem .default) EndsUndetected (authSystem .default).init
      signedOutRun (fun s => s.txs 0 = .throwing 1 (some 0) ∧ (s.txs 0).detects = some 0 ∧
        (s.db.userSessions 0).any (·.revokedAt.isSome) = true ∧
        (∀ t ∈ List.range s.seq, (s.db.userRefreshTokens t).all (·.revokedAt.isSome) = true) ∧
        s.db.cliOrgCredentials = [] ∧ ∀ j ∈ s.slots, (s.txs j).uses 0 = false) (by decide +kernel)
  have hreach : (authSystem .default).Reaches DetectsDead s := by
    refine Run.System.Steps.mono ?_ (Run.System.steps_of_exec hexec)
    rintro s _ hquiet i n rfl hn
    exact nomatch hquiet.symm.trans hn
  have hinv := authInv_of_reaches hreach
  have hdead : Dead s.db 0 := by
    refine ⟨(Option.any_eq_true _ _).1 hsession, fun t row ht _ => ?_, fun link hlink => ?_⟩
    · have hall := htokens t (List.mem_range.2 (hinv.userToken_lt t row ht))
      rwa [ht] at hall
    · rw [hlinks] at hlink
      cases hlink
  have hfree : ∀ j, (s.txs j).uses 0 = false := fun j => by
    by_cases hj : s.txs j = .idle
    · rw [hj]
      rfl
    · exact hunused j (hinv.opened j hj)
  have hlast : (authSystem .default).Reaches DetectsDead (s.ended 0 ⟨s.db, [.detected 0], .idle⟩) :=
    hreach.step (a := .finish 0) ?_ ?_
  · exact ⟨_, hlast, List.mem_cons_self, (reuse_isFinal hlast).2.2.2⟩
  · rintro _ n ⟨⟩ hn
    obtain rfl := Option.some.inj (hdetects.symm.trans hn)
    exact ⟨hdead, hfree⟩
  · change authStep .default s (.finish 0) = _
    rw [authStep, htx]
    rfl

/-! ### Barred for good -/

/-- **A user session that is barred is barred for good**: once it is revoked or has expired, and no
request that has checked it is under way, no run has a request that succeeds with it. -/
theorem barred_isFinal {ok ok' : AuthState → AuthLabel → Prop}
    (h : (authSystem env).Reaches ok s) (hbarred : Barred s n)
    (hrun : (authSystem env).Steps ok' s s') :
    Barred s' n ∧ (∃ newer, s'.log = newer ++ s.log ∧ .accepted n ∉ newer) ∧
      (Dead s.db n → Dead s'.db n) := by
  refine (Run.System.Steps.invariant (P := fun t => AuthInv t ∧ Barred t n ∧
    (∃ newer, t.log = newer ++ s.log ∧ .accepted n ∉ newer) ∧ (Dead s.db n → Dead t.db n)) ?_ hrun
    ⟨authInv_of_reaches h, hbarred, ⟨[], rfl, List.not_mem_nil⟩, id⟩).2
  rintro t a t' ⟨hinv, hbar, ⟨newer, hlog, hnot⟩, hdead⟩ - hstep
  obtain ⟨hbar', events, hlog', hnot'⟩ := hbar.step hinv hstep
  refine ⟨hinv.step hstep, hbar', ⟨events ++ newer, ?_, ?_⟩, fun hd => ?_⟩
  · rw [hlog', hlog, List.append_assoc]
  · exact fun hmem => (List.mem_append.1 hmem).elim hnot' hnot
  · exact (hdead hd).step hbar.unused hinv hstep

/-- A user session that is signed out, and a refresh of another one after that. -/
theorem barred_isFinal_signedOut :
    ∃ s s', (authSystem .default).Steps (fun _ _ => True) s s' ∧ s'.log.length = 1 ∧ Barred s' 0 := by
  obtain ⟨s, hexec, hsession, hunused, hnext⟩ :=
    Run.System.exists_of_exec (authSystem .default) (fun _ _ => True) (authSystem .default).init
      ([.issueUserSession 7, .call 1 (.revokeUserSessionById 0 7)] ++ AuthLabel.runsFor 1 4 ++
        [.finish 1])
      (fun s => (s.db.userSessions 0).any (·.revokedAt.isSome) = true ∧
        (∀ j ∈ s.slots, (s.txs j).uses 0 = false) ∧
        ((authSystem .default).exec (fun _ _ => True) s
          ([.issueUserSession 8, .call 0 (.refreshUserSession 15)] ++ AuthLabel.runsFor 0 3 ++
            [.finish 0])).any (fun s' => s'.log.length = 1) = true) (by decide +kernel)
  have hreach := Run.System.steps_of_exec hexec
  obtain ⟨row, hrow, hrevoked⟩ := (Option.any_eq_true _ _).1 hsession
  have hbarred : Barred s 0 := by
    refine ⟨fun i => ?_, row, hrow, .inl hrevoked⟩
    by_cases hi : s.txs i = .idle
    · rw [hi]
      rfl
    · exact hunused i ((authInv_of_reaches hreach).opened i hi)
  obtain ⟨s', hexec', hlog⟩ := Run.System.exists_of_exec _ _ s _ _ hnext
  have hrun := Run.System.steps_of_exec hexec'
  exact ⟨s, s', hrun, hlog, (barred_isFinal hreach hbarred hrun).1⟩

end Auth
