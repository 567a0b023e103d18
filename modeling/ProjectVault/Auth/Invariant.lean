import ProjectVault.Auth.Steps

/-!
What every reachable state of the sign-in system satisfies.
-/

namespace Auth

variable {env : AuthEnv} {s s' : AuthState} {i j n x t : ℕ} {tx tx' : AuthTx} {e : AuthState.End}

/-- The number of the session about to be inserted. -/
def AuthTx.draws : AuthTx → Option ℕ
  | .inserted _ n _ _ => some n
  | .rotated _ _ _ n _ => some n
  | _ => none

/-- The token and the rows a rotation has locked. -/
def AuthTx.rotation : AuthTx → Option (ℕ × RefreshTokenRow × SessionRow)
  | .rotating token row session => some (token, row, session)
  | .rotated token row session _ _ => some (token, row, session)
  | _ => none

lemma AuthTx.holdsSession_of_rotation {token : ℕ} {row : RefreshTokenRow} {session : SessionRow}
    (h : tx.rotation = some (token, row, session)) : tx.holdsSession row.sessionId = true := by
  cases tx with
  | rotating token' row' session' =>
    obtain ⟨rfl, rfl, rfl⟩ : token' = token ∧ row' = row ∧ session' = session := by
      simpa [rotation] using h
    exact decide_eq_true rfl
  | rotated token' row' session' n rotatedAt =>
    obtain ⟨rfl, rfl, rfl⟩ : token' = token ∧ row' = row ∧ session' = session := by
      simpa [rotation] using h
    exact decide_eq_true rfl
  | _ => cases h

structure AuthInv (s : AuthState) : Prop where
  opened : ∀ i, s.txs i ≠ .idle → i ∈ s.slots
  session_lt : ∀ n row, s.db.sessions n = some row → n < s.seq
  refreshToken_lt : ∀ t row, s.db.refreshTokens t = some row → t < s.seq
  userSession_lt : ∀ n row, s.db.userSessions n = some row → n < s.seq
  userToken_lt : ∀ t row, s.db.userRefreshTokens t = some row → t < s.seq
  owned : ∀ t row, s.db.refreshTokens t = some row →
    ∃ session, s.db.sessions row.sessionId = some session
  exclusive : ∀ i j x, (s.txs i).holdsSession x = true → (s.txs j).holdsSession x = true → i = j
  org : ∀ i j o, (s.txs i).holdsOrg o = true → (s.txs j).holdsOrg o = true → i = j
  drawn : ∀ i n, (s.txs i).draws = some n →
    n + 1 < s.seq ∧ s.db.sessions n = none ∧ s.db.refreshTokens (n + 1) = none
  apart : ∀ i j n, (s.txs i).draws = some n → (s.txs j).draws = some n → i = j
  rotation : ∀ i token row session, (s.txs i).rotation = some (token, row, session) →
    s.db.sessions row.sessionId = some session ∧ session.revokedAt = none ∧
      ∃ r, s.db.refreshTokens token = some r ∧ r.sessionId = row.sessionId
  login : ∀ i l n row pending, s.txs i = .inserted l n row pending →
    row.userId = l.userId ∧ row.orgId = l.orgId

/-! ### Moves -/

/-- A rotation goes on only from an unrevoked session. -/
lemma refreshSession_rotates {db : AuthDb} {row : RefreshTokenRow} {session : SessionRow} {now : ℤ}
    (h : refreshSession env db row session now = .rotates) :
    session.revokedAt = none ∧ row.revokedAt = none ∧ row.usedAt = none := by
  unfold refreshSession at h
  split at h
  · unfold handleGraceRefresh at h
    split_ifs at h
    split at h
    · cases h
    · split at h <;> cases h
  rename_i hused
  split at h
  · cases h
  rename_i hsession
  split_ifs at h with hrow
  exact ⟨by simpa using hsession, by simpa using hrow, by simpa using hused⟩

lemma mem_revokeNext {target : Target} {pending : List ℕ}
    (h : x ∈ s.revokeNext target pending) : x ∈ pending ∨ x = target.sessionId := by
  unfold AuthState.revokeNext at h
  split at h
  · rcases List.mem_cons.1 h with rfl | h
    · exact .inr rfl
    · exact .inl h
  · exact .inl h

/-- A session is locked only when nobody else holds it. -/
lemma Moves.holdsSession (h : Moves env s i tx tx') (hx : tx'.holdsSession x = true) :
    tx.holdsSession x = true ∨ s.free i (AuthTx.holdsSession x) = true := by
  cases h with
  | memberships userId found => simp [AuthTx.holdsSession] at hx
  | nextOrg userId orgId orgs pending => exact .inl hx
  | inserted l pending ttl => exact .inl hx
  | next job targets pending target hmem hfree =>
    rcases mem_revokeNext (of_decide_eq_true hx) with hx | rfl
    · exact .inl (decide_eq_true hx)
    · exact .inr hfree
  | expires token row session hfree =>
    simp only [AuthTx.holdsSession, List.mem_singleton, decide_eq_true_eq] at hx
    exact .inr (hx ▸ hfree)
  | rotating token row session hrow hsession hfree h =>
    simp only [AuthTx.holdsSession, decide_eq_true_eq] at hx
    exact .inr (hx ▸ hfree)
  | rotated token row session => exact .inl hx
  | _ => simp [AuthTx.holdsSession] at hx

/-- An advisory lock is taken only when nobody else holds it. -/
lemma Moves.holdsOrg {o : ℕ} (h : Moves env s i tx tx') (ho : tx'.holdsOrg o = true) :
    tx.holdsOrg o = true ∨ s.free i (AuthTx.holdsOrg o) = true := by
  cases h with
  | enumerating job hfree =>
    simp only [AuthTx.holdsOrg, decide_eq_true_eq] at ho
    exact .inr (hfree o ho)
  | enumerated job choice => exact .inl ho
  | nextOrg userId orgId orgs pending => exact .inl ho
  | inserted l pending ttl =>
    simp only [AuthTx.holdsOrg, decide_eq_true_eq] at ho
    exact .inl (by simp [AuthTx.holdsOrg, Job.advisory, ho])
  | next job targets pending target hmem hfree => exact .inl ho
  | _ => simp [AuthTx.holdsOrg, Job.advisory] at ho

/-- The number of a new row is the next one. -/
lemma Moves.draws (h : Moves env s i tx tx') (hn : tx'.draws = some n) : n = s.seq := by
  cases h with
  | inserted l pending ttl => exact (Option.some.inj hn).symm
  | rotated token row session => exact (Option.some.inj hn).symm
  | _ => cases hn

/-- A rotation reads rows it has locked. -/
lemma Moves.rotation {token : ℕ} {row : RefreshTokenRow} {session : SessionRow}
    (h : Moves env s i tx tx') (hr : tx'.rotation = some (token, row, session)) :
    tx.rotation = some (token, row, session) ∨
      s.db.sessions row.sessionId = some session ∧ session.revokedAt = none ∧
        s.db.refreshTokens token = some row := by
  cases h with
  | rotating token row session hrow hsession hfree h =>
    obtain ⟨rfl, rfl, rfl⟩ : token = _ ∧ row = _ ∧ session = _ := by
      simpa [AuthTx.rotation] using hr
    exact .inr ⟨hsession, (refreshSession_rotates h).1, hrow⟩
  | rotated token row session => exact .inl hr
  | _ => cases hr

/-- The other transactions do not hold a free lock. -/
lemma AuthInv.not_of_free {holds : AuthTx → Bool} (h : AuthInv s) (hidle : holds .idle = false)
    (hfree : s.free i holds = true) (hji : j ≠ i) : holds (s.txs j) = false := by
  rw [Bool.eq_false_iff]
  intro hj
  have hopen : j ∈ s.slots := h.opened j fun htx => by
    rw [htx, hidle] at hj
    cases hj
  have hall := List.all_eq_true.1 hfree j hopen
  rw [hj] at hall
  simp [hji] at hall

/-- A lock that a move keeps or takes from nobody stays with one transaction. -/
lemma AuthInv.exclusive_put {holds : AuthTx → Bool} (h : AuthInv s) (hidle : holds .idle = false)
    (hone : ∀ i j, holds (s.txs i) = true → holds (s.txs j) = true → i = j)
    (hmove : holds tx' = true → holds (s.txs i) = true ∨ s.free i holds = true) {k l : ℕ}
    (hk : holds ((s.put i tx').txs k) = true) (hl : holds ((s.put i tx').txs l) = true) :
    k = l := by
  have hother : ∀ m, m ≠ i → holds (s.txs m) = true → holds tx' = false := by
    intro m hmi hm
    rw [Bool.eq_false_iff]
    intro htx
    rcases hmove htx with hi | hfree
    · exact hmi (hone m i hm hi)
    · rw [h.not_of_free hidle hfree hmi] at hm
      cases hm
  rw [put_txs] at hk hl
  split at hk
  · rename_i hki
    split at hl
    · rename_i hli
      exact hki.trans hli.symm
    · rename_i hli
      rw [hother l hli hl] at hk
      cases hk
  · rename_i hki
    split at hl
    · rw [hother k hki hk] at hl
      cases hl
    · exact hone k l hk hl

lemma opened_put (h : ∀ i, s.txs i ≠ .idle → i ∈ s.slots) (k : ℕ)
    (hk : (s.put i tx').txs k ≠ .idle) : k ∈ (s.put i tx').slots := by
  rw [put_txs] at hk
  split at hk
  · rename_i hki
    exact hki ▸ List.mem_cons_self
  · exact List.mem_cons_of_mem i (h k hk)

/-- A move keeps the invariant. -/
lemma AuthInv.moves (h : AuthInv s) (hmove : Moves env s i (s.txs i) tx') :
    AuthInv (s.put i tx') where
  opened := opened_put h.opened
  session_lt n row hn := Nat.lt_add_right 2 (h.session_lt n row hn)
  refreshToken_lt t row ht := Nat.lt_add_right 2 (h.refreshToken_lt t row ht)
  userSession_lt n row hn := Nat.lt_add_right 2 (h.userSession_lt n row hn)
  userToken_lt t row ht := Nat.lt_add_right 2 (h.userToken_lt t row ht)
  owned := h.owned
  exclusive k l x hk hl := h.exclusive_put rfl (fun k l => h.exclusive k l x) hmove.holdsSession hk hl
  org k l o hk hl := h.exclusive_put rfl (fun k l => h.org k l o) hmove.holdsOrg hk hl
  drawn k n hk := by
    rw [put_txs] at hk
    split at hk
    · rw [hmove.draws hk]
      refine ⟨Nat.lt_succ_self _, ?_, ?_⟩
      · cases hrow : s.db.sessions s.seq with
        | none => exact hrow
        | some row => exact absurd (h.session_lt _ row hrow) (Nat.lt_irrefl _)
      · cases hrow : s.db.refreshTokens (s.seq + 1) with
        | none => exact hrow
        | some row =>
          exact absurd (h.refreshToken_lt _ row hrow) (Nat.not_lt_of_lt (Nat.lt_succ_self _))
    · obtain ⟨hlt, hnone⟩ := h.drawn k n hk
      exact ⟨Nat.lt_add_right 2 hlt, hnone⟩
  apart k l n hk hl := by
    rw [put_txs] at hk hl
    split at hk
    · rename_i hki
      split at hl
      · rename_i hli
        exact hki.trans hli.symm
      · have hlt := (h.drawn l n hl).1
        rw [hmove.draws hk] at hlt
        omega
    · split at hl
      · have hlt := (h.drawn k n hk).1
        rw [hmove.draws hl] at hlt
        omega
      · exact h.apart k l n hk hl
  rotation k token row session hk := by
    rw [put_txs] at hk
    split at hk
    · rcases hmove.rotation hk with hold | ⟨hsession, hrevoked, hrow⟩
      · exact h.rotation i token row session hold
      · exact ⟨hsession, hrevoked, row, hrow, rfl⟩
    · exact h.rotation k token row session hk
  login k l n row pending hk := by
    rw [put_txs] at hk
    split at hk
    · subst hk
      generalize s.txs i = tx at hmove
      cases hmove with
      | inserted l pending ttl => exact ⟨rfl, rfl⟩
    · exact h.login k l n row pending hk

/-! ### Ends -/

/-- A transaction that ends keeps no lock and inserts nothing more. -/
lemma Finishes.next (h : Finishes env s tx e) :
    (∀ x, e.next.holdsSession x = false) ∧ (∀ o, e.next.holdsOrg o = false) ∧
      e.next.draws = none ∧ e.next.rotation = none := by
  cases h <;> exact ⟨fun _ => rfl, fun _ => rfl, rfl, rfl⟩

lemma Finishes.next_ne_revoking (h : Finishes env s tx e) (job : Job) (targets : List Target)
    (pending : List ℕ) : e.next ≠ .revoking job targets pending := by
  cases h <;> exact nofun

/-- **No end takes anything back.** -/
lemma Finishes.extends (h : AuthInv s) (hend : Finishes env s (s.txs i) e) :
    s.db.Extends e.db := by
  generalize htx : s.txs i = tx at hend
  cases hend with
  | throwing token reused => exact .refl _
  | userRotated token now row session =>
    refine AuthDb.extends_rotateUserRefresh ?_
    cases hrow : s.db.userRefreshTokens s.seq with
    | none => rfl
    | some row => exact absurd (h.userToken_lt _ row hrow) (Nat.lt_irrefl _)
  | touched n userId now => exact AuthDb.extends_touchUserSession _ _
  | verified n userId => exact .refl _
  | userRevoked r pending hending =>
    exact (AuthDb.extends_revokeUserSession _ _).trans (AuthDb.extends_revokeSessions _ _)
  | userThrown r pending hending => exact .refl _
  | sessions targets pending => exact AuthDb.extends_revokeSessions _ _
  | userInOrg userId orgId since pending => exact AuthDb.extends_revokeSessions _ _
  | org orgId since pending => exact AuthDb.extends_revokeSessions _ _
  | recovery userId pending => exact AuthDb.extends_revokeSessions _ _
  | inserted l n row pending =>
    obtain ⟨-, hsession, htoken⟩ := h.drawn i n (by rw [htx]; rfl)
    refine (AuthDb.extends_revokeSessions pending s.now).trans
      (AuthDb.extends_createLoginSession ?_ ?_)
    · rw [AuthDb.revokeSessions_sessions, hsession, Option.map_none, ite_self]
    · simp only [AuthDb.revokeSessions, htoken, Option.map_none]
  | rotated token row session n rotatedAt =>
    obtain ⟨-, hsession, htoken⟩ := h.drawn i n (by rw [htx]; rfl)
    obtain ⟨hold, -, -⟩ := h.rotation i token row session (by rw [htx]; rfl)
    exact AuthDb.extends_rotateRefreshToken hsession htoken hold

/-- An end leaves alone the sessions the transaction neither holds nor inserts. -/
lemma Finishes.sessions_eq (h : Finishes env s tx e) (hholds : tx.holdsSession x = false)
    (hdraws : tx.draws ≠ some x) : e.db.sessions x = s.db.sessions x := by
  cases h with
  | inserted l n row pending =>
    have hne : x ≠ n := fun heq => hdraws (heq ▸ rfl)
    have hx : x ∉ pending := of_decide_eq_false hholds
    simp only [AuthDb.createLoginSession, Function.update_of_ne hne,
      AuthDb.revokeSessions_sessions, if_neg hx]
  | rotated token row session n rotatedAt =>
    have hne : x ≠ n := fun heq => hdraws (heq ▸ rfl)
    have hold : x ≠ row.sessionId := fun heq => of_decide_eq_false hholds heq.symm
    simp only [AuthDb.rotateRefreshToken, Function.update_of_ne hne, Function.update_of_ne hold]
  | throwing _ _ | userRotated _ _ _ _ | touched _ _ _ | verified _ _ | userThrown _ _ _ => rfl
  | userRevoked r pending hending =>
    have hx : x ∉ pending := of_decide_eq_false hholds
    rw [AuthDb.revokeSessions_sessions, if_neg hx]
    rfl
  | sessions _ pending | userInOrg _ _ _ pending | org _ _ pending | recovery _ pending =>
    have hx : x ∉ pending := of_decide_eq_false hholds
    rw [AuthDb.revokeSessions_sessions, if_neg hx]

/-- The only session an end adds is the one the transaction has inserted. -/
lemma Finishes.sessions_none (h : Finishes env s tx e) (hnone : s.db.sessions x = none)
    (hdraws : tx.draws ≠ some x)
    (hrotation : ∀ token row session, tx.rotation = some (token, row, session) →
      s.db.sessions row.sessionId ≠ none) : e.db.sessions x = none := by
  cases h with
  | inserted l n row pending =>
    have hne : x ≠ n := fun heq => hdraws (heq ▸ rfl)
    simp only [AuthDb.createLoginSession, Function.update_of_ne hne,
      AuthDb.revokeSessions_sessions, hnone, Option.map_none, ite_self]
  | rotated token row session n rotatedAt =>
    have hne : x ≠ n := fun heq => hdraws (heq ▸ rfl)
    have hold : x ≠ row.sessionId := fun heq => hrotation token row session rfl (heq ▸ hnone)
    simp only [AuthDb.rotateRefreshToken, Function.update_of_ne hne, Function.update_of_ne hold,
      hnone]
  | throwing _ _ | userRotated _ _ _ _ | touched _ _ _ | verified _ _ | userThrown _ _ _ =>
    exact hnone
  | userRevoked r pending hending =>
    rw [AuthDb.revokeSessions_sessions]
    change (if x ∈ pending then (s.db.sessions x).map _ else s.db.sessions x) = none
    rw [hnone, Option.map_none, ite_self]
  | sessions _ pending | userInOrg _ _ _ pending | org _ _ pending | recovery _ pending =>
    rw [AuthDb.revokeSessions_sessions, hnone, Option.map_none, ite_self]

/-- The refresh tokens after an end: an old one, perhaps used for the session its rotation has
inserted, or the first token of that session. -/
lemma Finishes.refreshTokens_cases {r : RefreshTokenRow} (h : Finishes env s tx e)
    (hr : e.db.refreshTokens t = some r) :
    (∃ r₀, s.db.refreshTokens t = some r₀ ∧ r.sessionId = r₀.sessionId ∧
      (r.newSessionId = r₀.newSessionId ∨ ∃ row session n, tx.rotation = some (t, row, session) ∧
        tx.draws = some n ∧ r.newSessionId = some n)) ∨
      ∃ n, tx.draws = some n ∧ t = n + 1 ∧ r.sessionId = n ∧ r.newSessionId = none := by
  -- the tokens of revoked sessions keep their columns
  have hrevoke : ∀ pending, (s.db.revokeSessions pending s.now).refreshTokens t = some r →
      ∃ r₀, s.db.refreshTokens t = some r₀ ∧ r.sessionId = r₀.sessionId ∧
        r.newSessionId = r₀.newSessionId := by
    intro pending hr
    simp only [AuthDb.revokeSessions, Option.map_eq_some_iff] at hr
    obtain ⟨r₀, hr₀, rfl⟩ := hr
    refine ⟨r₀, hr₀, ?_⟩
    split <;> exact ⟨rfl, rfl⟩
  cases h with
  | throwing _ _ | userRotated _ _ _ _ | touched _ _ _ | verified _ _ | userThrown _ _ _ =>
    exact .inl ⟨r, hr, rfl, .inl rfl⟩
  | userRevoked _ pending _ | sessions _ pending | userInOrg _ _ _ pending | org _ _ pending
  | recovery _ pending =>
    obtain ⟨r₀, hr₀, hsame, hnew⟩ := hrevoke pending hr
    exact .inl ⟨r₀, hr₀, hsame, .inl hnew⟩
  | inserted l n row pending =>
    have hold : (s.db.revokeSessions pending s.now).refreshTokens t = some r ∨
        t = n + 1 ∧ r.sessionId = n ∧ r.newSessionId = none := by
      simp only [AuthDb.createLoginSession] at hr
      split at hr
      · exact .inl hr
      · rw [Function.update_apply] at hr
        split at hr
        · cases hr
          exact .inr ⟨by assumption, rfl, rfl⟩
        · exact .inl hr
    rcases hold with hold | hnew
    · obtain ⟨r₀, hr₀, hsame, hnew⟩ := hrevoke pending hold
      exact .inl ⟨r₀, hr₀, hsame, .inl hnew⟩
    · exact .inr ⟨n, rfl, hnew⟩
  | rotated token row session n rotatedAt =>
    simp only [AuthDb.rotateRefreshToken, Function.update_apply] at hr
    split at hr
    · cases hr
      exact .inr ⟨n, rfl, by assumption, rfl, rfl⟩
    · obtain ⟨r₀, hr₀, rfl⟩ := Option.map_eq_some_iff.1 hr
      refine .inl ⟨r₀, hr₀, ?_⟩
      split
      · rename_i htoken
        exact ⟨rfl, .inr ⟨row, session, n, by rw [htoken]; rfl, rfl, rfl⟩⟩
      split
      · exact ⟨rfl, .inl rfl⟩
      · exact ⟨rfl, .inl rfl⟩

/-- The number drawn becomes a session. -/
lemma Finishes.drawn_session (h : Finishes env s tx e) (hdraws : tx.draws = some n) :
    ∃ row, e.db.sessions n = some row := by
  cases h with
  | inserted l m row pending =>
    cases hdraws
    exact ⟨row, Function.update_self ..⟩
  | rotated token row session m rotatedAt =>
    cases hdraws
    exact ⟨_, Function.update_self ..⟩
  | _ => cases hdraws

/-- The user sessions after an end are those before it. -/
lemma Finishes.userSessions_none (h : Finishes env s tx e) (hnone : s.db.userSessions n = none) :
    e.db.userSessions n = none := by
  cases h with
  | userRotated token now row session =>
    simp only [AuthDb.rotateUserRefresh, hnone, Option.map_none, ite_self]
  | touched m userId now =>
    simp only [AuthDb.touchUserSession, hnone, Option.map_none, ite_self]
  | userRevoked r pending hending =>
    simp only [AuthDb.revokeSessions, AuthDb.revokeUserSession, hnone, Option.map_none, ite_self]
  | _ => exact hnone

/-- The user refresh tokens after an end: an old one, or the next one of the user session a refresh
has rotated. -/
lemma Finishes.userTokens_cases {r : UserRefreshTokenRow} (h : Finishes env s tx e)
    (hr : e.db.userRefreshTokens t = some r) :
    (∃ r₀, s.db.userRefreshTokens t = some r₀ ∧ r.userSessionId = r₀.userSessionId) ∨
      t = s.seq ∧ ∃ token now row session, tx = .userRotated token now row session ∧
        r.userSessionId = row.userSessionId := by
  cases h with
  | userRotated token now row session =>
    simp only [AuthDb.rotateUserRefresh, Function.update_apply] at hr
    split at hr
    · cases hr
      exact .inr ⟨by assumption, token, now, row, session, rfl, rfl⟩
    · obtain ⟨r₀, hr₀, rfl⟩ := Option.map_eq_some_iff.1 hr
      refine .inl ⟨r₀, hr₀, ?_⟩
      split <;> rfl
  | userRevoked r' pending hending =>
    simp only [AuthDb.revokeSessions, AuthDb.revokeUserSession] at hr
    obtain ⟨r₀, hr₀, rfl⟩ := Option.map_eq_some_iff.1 hr
    refine .inl ⟨r₀, hr₀, ?_⟩
    split <;> rfl
  | _ => exact .inl ⟨r, hr, rfl⟩

lemma ended_txs (s : AuthState) (i : ℕ) (e : AuthState.End) (k : ℕ) :
    (s.ended i e).txs k = if k = i then e.next else s.txs k :=
  put_txs s i e.next k

/-- An end keeps the invariant. -/
lemma AuthInv.ended (h : AuthInv s) (hend : Finishes env s (s.txs i) e) :
    AuthInv (s.ended i e) := by
  have hext := hend.extends h
  obtain ⟨hsession, horg, hdraws, hrotation⟩ := hend.next
  -- what another transaction holds or draws, the ending one does not
  have hother : ∀ {k : ℕ}, k ≠ i → ∀ x, (s.txs k).holdsSession x = true →
      (s.txs i).holdsSession x = false := fun hki x hk => by
    rw [Bool.eq_false_iff]
    exact fun hi => hki (h.exclusive _ i x hk hi)
  have hrow : ∀ token row session, (s.txs i).rotation = some (token, row, session) →
      s.db.sessions row.sessionId ≠ none := fun token row session hr => by
    rw [(h.rotation i token row session hr).1]
    exact nofun
  refine ⟨opened_put h.opened, ?_, ?_, ?_, ?_, ?_, ?_, ?_, ?_, ?_, ?_, ?_⟩
  · intro n row hn
    by_cases hdrawn : (s.txs i).draws = some n
    · exact Nat.lt_of_lt_of_le (Nat.lt_of_succ_lt (h.drawn i n hdrawn).1) (Nat.le_add_right _ 2)
    · cases hold : s.db.sessions n with
      | none => exact nomatch hn.symm.trans (hend.sessions_none hold hdrawn hrow)
      | some row => exact Nat.lt_add_right 2 (h.session_lt n row hold)
  · intro t r ht
    rcases hend.refreshTokens_cases ht with ⟨r₀, hr₀, -⟩ | ⟨n, hn, rfl, -⟩
    · exact Nat.lt_add_right 2 (h.refreshToken_lt t r₀ hr₀)
    · exact Nat.lt_add_right 2 (h.drawn i n hn).1
  · intro n row hn
    cases hold : s.db.userSessions n with
    | none => exact nomatch hn.symm.trans (hend.userSessions_none hold)
    | some row => exact Nat.lt_add_right 2 (h.userSession_lt n row hold)
  · intro t r ht
    rcases hend.userTokens_cases ht with ⟨r₀, hr₀, -⟩ | ⟨rfl, -⟩
    · exact Nat.lt_add_right 2 (h.userToken_lt t r₀ hr₀)
    · exact Nat.lt_succ_of_le (Nat.le_succ _)
  · intro t r ht
    rcases hend.refreshTokens_cases ht with ⟨r₀, hr₀, hsame, -⟩ | ⟨n, hn, -, rfl, -⟩
    · obtain ⟨session, hsession⟩ := h.owned t r₀ hr₀
      obtain ⟨session', hsession', -⟩ := hext.session _ session hsession
      exact ⟨session', hsame ▸ hsession'⟩
    · exact hend.drawn_session hn
  · intro k l x hk hl
    rw [ended_txs] at hk hl
    split at hk
    · rw [hsession] at hk
      cases hk
    split at hl
    · rw [hsession] at hl
      cases hl
    · exact h.exclusive k l x hk hl
  · intro k l o hk hl
    rw [ended_txs] at hk hl
    split at hk
    · rw [horg] at hk
      cases hk
    split at hl
    · rw [horg] at hl
      cases hl
    · exact h.org k l o hk hl
  · intro k n hk
    rw [ended_txs] at hk
    split at hk
    · rw [hdraws] at hk
      cases hk
    rename_i hki
    obtain ⟨hlt, hnone, htoken⟩ := h.drawn k n hk
    have hne : (s.txs i).draws ≠ some n := fun hi => hki (h.apart k i n hk hi)
    refine ⟨Nat.lt_add_right 2 hlt, hend.sessions_none hnone hne hrow, ?_⟩
    cases hnew : e.db.refreshTokens (n + 1) with
    | none => exact hnew
    | some r =>
      rcases hend.refreshTokens_cases hnew with ⟨r₀, hr₀, -⟩ | ⟨m, hm, hmn, -⟩
      · exact nomatch htoken.symm.trans hr₀
      · exact absurd (Nat.succ.inj hmn ▸ hm) hne
  · intro k l n hk hl
    rw [ended_txs] at hk hl
    split at hk
    · rw [hdraws] at hk
      cases hk
    split at hl
    · rw [hdraws] at hl
      cases hl
    · exact h.apart k l n hk hl
  · intro k token row session hk
    rw [ended_txs] at hk
    split at hk
    · rw [hrotation] at hk
      cases hk
    rename_i hki
    obtain ⟨hold, hrevoked, r, hr, hsame⟩ := h.rotation k token row session hk
    have hholds := AuthTx.holdsSession_of_rotation hk
    have hne : (s.txs i).draws ≠ some row.sessionId := fun hi => by
      rw [(h.drawn i _ hi).2.1] at hold
      cases hold
    obtain ⟨r', hr', hsame'⟩ := hext.refreshToken token r hr
    exact ⟨(hend.sessions_eq (hother hki _ hholds) hne).trans hold, hrevoked, r', hr',
      hsame'.trans hsame⟩
  · intro k l n row pending hk
    rw [ended_txs] at hk
    split at hk
    · rw [hk] at hdraws
      cases hdraws
    · exact h.login k l n row pending hk

/-! ### Runs -/

lemma Outside.txs (h : Outside env s s') : s'.txs = s.txs := by cases h <;> rfl

lemma Outside.extends (h : AuthInv s) (hout : Outside env s s') : s.db.Extends s'.db := by
  cases hout with
  | tick t ht => exact .refl _
  | issueUserSession userId =>
    refine AuthDb.extends_issueUserSession ?_ ?_
    · cases hrow : s.db.userSessions s.seq with
      | none => rfl
      | some row => exact absurd (h.userSession_lt _ row hrow) (Nat.lt_irrefl _)
    · cases hrow : s.db.userRefreshTokens (s.seq + 1) with
      | none => rfl
      | some row =>
        exact absurd (h.userToken_lt _ row hrow) (Nat.not_lt_of_lt (Nat.lt_succ_self _))
  | setMember activeMember => exact .of_eq rfl rfl rfl rfl rfl
  | createOrganization organizations => exact .of_eq rfl rfl rfl rfl rfl
  | touchSession n hfree => exact AuthDb.extends_touchSession _ _
  | prune revokedTokens => exact .of_eq rfl rfl rfl rfl rfl

/-- The invariant reads the rows and the transactions; numbers may be skipped. -/
lemma AuthInv.congr (h : AuthInv s) (hsessions : s'.db.sessions = s.db.sessions)
    (hrefresh : s'.db.refreshTokens = s.db.refreshTokens) (htxs : s'.txs = s.txs)
    (hslots : s'.slots = s.slots) (hseq : s.seq ≤ s'.seq)
    (husers : ∀ n row, s'.db.userSessions n = some row → n < s'.seq)
    (htokens : ∀ t row, s'.db.userRefreshTokens t = some row → t < s'.seq) : AuthInv s' where
  opened := by rw [htxs, hslots]; exact h.opened
  session_lt n row hn := Nat.lt_of_lt_of_le (h.session_lt n row (hsessions ▸ hn)) hseq
  refreshToken_lt t row ht := Nat.lt_of_lt_of_le (h.refreshToken_lt t row (hrefresh ▸ ht)) hseq
  userSession_lt := husers
  userToken_lt := htokens
  owned := by rw [hsessions, hrefresh]; exact h.owned
  exclusive := by rw [htxs]; exact h.exclusive
  org := by rw [htxs]; exact h.org
  drawn i n hn := by
    obtain ⟨hlt, hnone⟩ := h.drawn i n (htxs ▸ hn)
    rw [hsessions, hrefresh]
    exact ⟨Nat.lt_of_lt_of_le hlt hseq, hnone⟩
  apart := by rw [htxs]; exact h.apart
  rotation := by rw [htxs, hsessions, hrefresh]; exact h.rotation
  login := by rw [htxs]; exact h.login

lemma AuthInv.touchSession (h : AuthInv s)
    (hfree : ∀ j ∈ s.slots, (s.txs j).holdsSession n = false) :
    AuthInv { s with db := s.db.touchSession n s.now } := by
  have hnone : ∀ m, s.db.sessions m = none → (s.db.touchSession n s.now).sessions m = none :=
    fun m hm => by simp only [AuthDb.touchSession, hm, Option.map_none, ite_self]
  refine ⟨h.opened, ?_, h.refreshToken_lt, h.userSession_lt, h.userToken_lt, ?_, h.exclusive, h.org,
    ?_, h.apart, ?_, h.login⟩
  · intro m row hm
    cases hold : s.db.sessions m with
    | none => cases hm.symm.trans (hnone m hold)
    | some row => exact h.session_lt m row hold
  · intro t row ht
    obtain ⟨session, hsession⟩ := h.owned t row ht
    obtain ⟨session', hsession', -⟩ := (AuthDb.extends_touchSession n s.now).session _ _ hsession
    exact ⟨session', hsession'⟩
  · intro i m hm
    obtain ⟨hlt, hsession, htoken⟩ := h.drawn i m hm
    exact ⟨hlt, hnone m hsession, htoken⟩
  · intro i token row session hi
    have hholds := AuthTx.holdsSession_of_rotation hi
    have hopen : i ∈ s.slots := h.opened i fun htx => by
      rw [htx] at hi
      cases hi
    have hne : row.sessionId ≠ n := fun heq => by
      rw [heq, hfree i hopen] at hholds
      cases hholds
    obtain ⟨hsession, hrest⟩ := h.rotation i token row session hi
    refine ⟨?_, hrest⟩
    simp only [AuthDb.touchSession, if_neg hne]
    exact hsession

lemma AuthInv.outside (h : AuthInv s) (hout : Outside env s s') : AuthInv s' := by
  cases hout with
  | tick t ht => exact h.congr rfl rfl rfl rfl le_rfl h.userSession_lt h.userToken_lt
  | issueUserSession userId =>
    refine h.congr rfl rfl rfl rfl (Nat.le_add_right _ 2) ?_ ?_
    · intro n row hn
      simp only [AuthDb.issueUserSession, Function.update_apply] at hn
      split at hn
      · rename_i heq
        exact heq ▸ Nat.lt_add_of_pos_right Nat.two_pos
      · exact Nat.lt_add_right 2 (h.userSession_lt n row hn)
    · intro t row ht
      simp only [AuthDb.issueUserSession, Function.update_apply] at ht
      split at ht
      · rename_i heq
        rw [heq]
        exact Nat.lt_succ_self _
      · exact Nat.lt_add_right 2 (h.userToken_lt t row ht)
  | setMember activeMember => exact h.congr rfl rfl rfl rfl le_rfl h.userSession_lt h.userToken_lt
  | createOrganization organizations =>
    exact h.congr rfl rfl rfl rfl le_rfl h.userSession_lt h.userToken_lt
  | touchSession n hfree => exact h.touchSession hfree
  | prune revokedTokens => exact h.congr rfl rfl rfl rfl le_rfl h.userSession_lt h.userToken_lt

/-- **A step keeps the invariant.** -/
lemma AuthInv.step {a : AuthLabel} (h : AuthInv s) (hstep : authStep env s a = some s') :
    AuthInv s' := by
  cases authStep_cases hstep with
  | moves i hmove ha => exact h.moves hmove
  | finish i hend => exact h.ended hend
  | outside hout => exact h.outside hout

lemma authInv_init : AuthInv (authSystem env).init where
  opened _ h := absurd rfl h
  session_lt _ _ h := nomatch h
  refreshToken_lt _ _ h := nomatch h
  userSession_lt _ _ h := nomatch h
  userToken_lt _ _ h := nomatch h
  owned _ _ h := nomatch h
  exclusive _ _ _ h := nomatch h
  org _ _ _ h := nomatch h
  drawn _ _ h := nomatch h
  apart _ _ _ h := nomatch h
  rotation _ _ _ _ h := nomatch h
  login _ _ _ _ _ h := nomatch h

/-- The invariant holds in every reachable state. -/
theorem authInv_of_reaches {ok : AuthState → AuthLabel → Prop} (h : (authSystem env).Reaches ok s) :
    AuthInv s :=
  Run.System.Reaches.invariant (P := AuthInv) authInv_init
    (fun _ _ _ hinv _ hstep => hinv.step hstep) h

end Auth
