import ProjectVault.Auth.System

/-!
What a step of the sign-in system can do.
-/

namespace Auth

variable {env : AuthEnv} {s s' : AuthState} {i j : ℕ} {tx tx' : AuthTx} {n : ℕ}

/-! ### Inversion -/

/-- A call, a statement, or a lost connection, with what it has found. -/
inductive Moves (env : AuthEnv) (s : AuthState) (i : ℕ) : AuthTx → AuthTx → Prop where
  | idle (tx : AuthTx) : Moves env s i tx .idle
  | presenting (use : TokenUse) (token : ℕ) : Moves env s i .idle (.presenting use token s.now)
  | presented (use : TokenUse) (token : ℕ) (now : ℤ) (row : UserRefreshTokenRow)
      (hrow : s.db.userRefreshTokens token = some row)
      (hfree : s.free i (AuthTx.holdsUserToken s.db token) = true) :
      Moves env s i (.presenting use token now) (.presented use token now row)
  | throwing (use : TokenUse) (token : ℕ) (now : ℤ) (row : UserRefreshTokenRow)
      (reused : Option ℕ) (h : ∀ n, reused = some n → row.userSessionId = n) :
      Moves env s i (.presented use token now row) (.throwing token reused)
  | tokenRevokes (use : TokenUse) (token : ℕ) (now now' : ℤ) (row : UserRefreshTokenRow)
      (ending : Ending) :
      Moves env s i (.presented use token now row)
        (.userRevoking ⟨row.userSessionId, now', some token, ending⟩ .asked)
  | userRotating (token : ℕ) (now : ℤ) (row : UserRefreshTokenRow) (session : UserSessionRow)
      (hsession : s.db.userSessions row.userSessionId = some session)
      (h : rotateUserRefresh env row session now = .rotates) :
      Moves env s i (.presented .refresh token now row) (.userRotating token now row session)
  | userRotated (token : ℕ) (now : ℤ) (row : UserRefreshTokenRow) (session : UserSessionRow)
      (hfree : s.free i (AuthTx.holdsUserSession row.userSessionId) = true) :
      Moves env s i (.userRotating token now row session) (.userRotated token now row session)
  | verifying (claims : UserAccessClaims) : Moves env s i .idle (.verifying claims s.now)
  | verifyRevokes (claims : UserAccessClaims) (now : ℤ) :
      Moves env s i (.verifying claims now) (.userRevoking ⟨claims.jti, now, none, .throws⟩ .asked)
  | touching (claims : UserAccessClaims) (now : ℤ)
      (h : verifyUserSession env claims (s.db.userSessions claims.jti) now = .touches) :
      Moves env s i (.verifying claims now) (.touching claims.jti claims.sub now)
  | touched (n userId : ℕ) (now : ℤ) (hfree : s.free i (AuthTx.holdsUserSession n) = true) :
      Moves env s i (.touching n userId now) (.touched n userId now)
  | revokesById (n userId : ℕ) : Moves env s i .idle (.revokingById n userId)
  | revokesVerified (n userId : ℕ) : Moves env s i (.verified n userId) (.revokingById n userId)
  | byId (n userId : ℕ) :
      Moves env s i (.revokingById n userId) (.userRevoking ⟨n, s.now, none, .returns⟩ .asked)
  | revokeSession (r : UserRevocation)
      (hfree : s.free i (AuthTx.holdsUserSession r.sessionId) = true) :
      Moves env s i (.userRevoking r .asked) (.userRevoking r .session)
  | revokeTokens (r : UserRevocation) :
      Moves env s i (.userRevoking r .session) (.userRevoking r .tokens)
  | revokeLinks (r : UserRevocation) (choice : List ℕ) :
      Moves env s i (.userRevoking r .tokens)
        (.revoking (.userSession r) (s.targets choice (.userSession r)) [])
  | exchanging (n userId orgId : ℕ) (hmember : s.db.activeMember userId orgId = true) :
      Moves env s i (.verified n userId) (.asking (.login ⟨userId, orgId, some n⟩))
  | login (userId orgId : ℕ) : Moves env s i .idle (.asking (.login ⟨userId, orgId, none⟩))
  | revokesSessions (targets : List ℕ) : Moves env s i .idle (.asking (.sessions targets))
  | revokesUserInOrg (userId orgId : ℕ) :
      Moves env s i .idle (.asking (.userInOrg userId orgId s.seq))
  | revokesOrg (orgId : ℕ) : Moves env s i .idle (.asking (.org orgId s.seq))
  | recovers (userId : ℕ) : Moves env s i .idle (.recovering userId s.db.organizations [])
  | membership (userId orgId : ℕ) (orgs found found' : List ℕ) :
      Moves env s i (.recovering userId (orgId :: orgs) found) (.recovering userId orgs found')
  | memberships (userId : ℕ) (found : List ℕ) :
      Moves env s i (.recovering userId [] found) (.revoking (.recovery userId found) [] [])
  | enumerating (job : Job)
      (hfree : ∀ orgId, job.advisory = some orgId → s.free i (AuthTx.holdsOrg orgId) = true) :
      Moves env s i (.asking job) (.enumerating job)
  | enumerated (job : Job) (choice : List ℕ) :
      Moves env s i (.enumerating job) (.revoking job (s.targets choice job) [])
  | nextOrg (userId orgId : ℕ) (orgs pending : List ℕ) :
      Moves env s i (.revoking (.recovery userId (orgId :: orgs)) [] pending)
        (.revoking (.recovery userId orgs) (s.selectUserInOrg pending userId orgId) pending)
  | inserted (l : Login) (pending : List ℕ) (ttl : ℤ) :
      Moves env s i (.revoking (.login l) [] pending)
        (.inserted l s.seq (loginSession ttl l.userId l.orgId s.now) pending)
  | next (job : Job) (targets : List Target) (pending : List ℕ) (target : Target)
      (hmem : target ∈ targets)
      (hfree : s.free i (AuthTx.holdsSession target.sessionId) = true) :
      Moves env s i (.revoking job targets pending)
        (.revoking job (targets.erase target) (s.revokeNext target pending))
  | refreshing (token : ℕ) : Moves env s i .idle (.refreshing token)
  | expires (token : ℕ) (row : RefreshTokenRow) (session : SessionRow)
      (hfree : s.free i (AuthTx.holdsSession row.sessionId) = true) :
      Moves env s i (.refreshing token) (.revoking (.sessions []) [] [row.sessionId])
  | rotating (token : ℕ) (row : RefreshTokenRow) (session : SessionRow)
      (hrow : s.db.refreshTokens token = some row)
      (hsession : s.db.sessions row.sessionId = some session)
      (hfree : s.free i (AuthTx.holdsSession row.sessionId) = true)
      (h : refreshSession env s.db row session s.now = .rotates) :
      Moves env s i (.refreshing token) (.rotating token row session)
  | rotated (token : ℕ) (row : RefreshTokenRow) (session : SessionRow) :
      Moves env s i (.rotating token row session) (.rotated token row session s.seq s.now)

/-- How the body of a transaction ends. -/
inductive Finishes (env : AuthEnv) (s : AuthState) : AuthTx → AuthState.End → Prop where
  | throwing (token : ℕ) (reused : Option ℕ) :
      Finishes env s (.throwing token reused) ⟨s.db, reused.toList.map .detected, .idle⟩
  | userRotated (token : ℕ) (now : ℤ) (row : UserRefreshTokenRow) (session : UserSessionRow) :
      Finishes env s (.userRotated token now row session)
        ⟨s.db.rotateUserRefresh token row session s.seq now, [.accepted row.userSessionId], .idle⟩
  | touched (n userId : ℕ) (now : ℤ) :
      Finishes env s (.touched n userId now)
        ⟨s.db.touchUserSession n now, [.accepted n], .verified n userId⟩
  | verified (n userId : ℕ) : Finishes env s (.verified n userId) ⟨s.db, [], .idle⟩
  | userRevoked (r : UserRevocation) (pending : List ℕ) (h : r.ending = .returns) :
      Finishes env s (.revoking (.userSession r) [] pending)
        ⟨(s.db.revokeUserSession r.sessionId r.now).revokeSessions pending s.now, [], .idle⟩
  | userThrown (r : UserRevocation) (pending : List ℕ) (h : r.ending = .throws) :
      Finishes env s (.revoking (.userSession r) [] pending)
        ⟨s.db, [.detected r.sessionId], .idle⟩
  | sessions (targets pending : List ℕ) :
      Finishes env s (.revoking (.sessions targets) [] pending)
        ⟨s.db.revokeSessions pending s.now, [], .idle⟩
  | userInOrg (userId orgId since : ℕ) (pending : List ℕ) :
      Finishes env s (.revoking (.userInOrg userId orgId since) [] pending)
        ⟨s.db.revokeSessions pending s.now, [.revokedUserInOrg userId orgId since], .idle⟩
  | org (orgId since : ℕ) (pending : List ℕ) :
      Finishes env s (.revoking (.org orgId since) [] pending)
        ⟨s.db.revokeSessions pending s.now, [.revokedOrg orgId since], .idle⟩
  | recovery (userId : ℕ) (pending : List ℕ) :
      Finishes env s (.revoking (.recovery userId []) [] pending)
        ⟨s.db.revokeSessions pending s.now, [.recovered userId s.db], .idle⟩
  | inserted (l : Login) (n : ℕ) (row : SessionRow) (pending : List ℕ) :
      Finishes env s (.inserted l n row pending)
        ⟨(s.db.revokeSessions pending s.now).createLoginSession env row l.userSession n (n + 1),
          l.userSession.toList.map .accepted, .idle⟩
  | rotated (token : ℕ) (row : RefreshTokenRow) (session : SessionRow) (n : ℕ) (rotatedAt : ℤ) :
      Finishes env s (.rotated token row session n rotatedAt)
        ⟨s.db.rotateRefreshToken env token row session n (n + 1) rotatedAt, [], .idle⟩

lemma moves_of_call {request : Request} (h : s.call tx request = some tx') :
    Moves env s i tx tx' := by
  unfold AuthState.call at h
  split at h
  · split at h
    · rename_i hmember
      cases h
      exact .exchanging _ _ _ hmember
    · cases h
      exact .idle _
  · cases h
    exact .revokesVerified _ _
  · cases h
    exact .presenting _ _
  · cases h
    exact .presenting _ _
  · cases h
    exact .verifying _
  · cases h
    exact .revokesById _ _
  · cases h
    exact .login _ _
  · cases h
    exact .revokesSessions _
  · cases h
    exact .revokesUserInOrg _ _
  · cases h
    exact .revokesOrg _
  · cases h
    exact .recovers _
  · cases h
    exact .refreshing _
  · cases h

lemma moves_decidePresented (use : TokenUse) (token : ℕ) (now : ℤ) (row : UserRefreshTokenRow) :
    Moves env s i (.presented use token now row) (s.decidePresented env use token now row) := by
  unfold AuthState.decidePresented
  split
  · exact .throwing use token now row none nofun
  rename_i session hsession
  cases use with
  | logout =>
    simp only
    split
    · exact .idle _
    · exact .tokenRevokes _ _ _ _ _ _
  | refresh =>
    simp only
    split
    · refine .throwing _ token now row _ fun n hn => ?_
      split_ifs at hn
      exact Option.some.inj hn
    · exact .tokenRevokes _ _ _ _ _ _
    · rename_i h
      exact .userRotating token now row session hsession h

lemma moves_decideVerify (claims : UserAccessClaims) (now : ℤ) :
    Moves env s i (.verifying claims now) (s.decideVerify env claims now) := by
  unfold AuthState.decideVerify
  split
  · exact .idle _
  · exact .verifyRevokes claims now
  · rename_i h
    exact .touching claims now h

lemma moves_decideById (n userId : ℕ) :
    Moves env s i (.revokingById n userId) (s.decideById n userId) := by
  unfold AuthState.decideById
  split
  · exact .idle _
  · split
    · exact .idle _
    · exact .byId n userId

lemma moves_decideRefresh {token : ℕ} {row : RefreshTokenRow}
    (hrow : s.db.refreshTokens token = some row)
    (hfree : s.free i (AuthTx.holdsSession row.sessionId) = true) :
    Moves env s i (.refreshing token) (s.decideRefresh env token row) := by
  unfold AuthState.decideRefresh
  split
  · exact .idle _
  rename_i session hsession
  split
  · exact .idle _
  split
  · exact .idle _
  · exact .idle _
  · exact .expires token row session hfree
  · rename_i h
    exact .rotating token row session hrow hsession hfree h

lemma moves_continueJob {job : Job} {pending : List ℕ}
    (h : s.continueJob env job pending = some tx') :
    Moves env s i (.revoking job [] pending) tx' := by
  unfold AuthState.continueJob at h
  split at h
  · cases h
    exact .nextOrg _ _ _ _
  · cases h
    exact .inserted _ _ _
  · cases h

lemma moves_of_advance {choice : List ℕ} (h : s.advance env i choice tx = some tx') :
    Moves env s i tx tx' := by
  unfold AuthState.advance at h
  split at h
  · split_ifs at h with hfree
    split at h
    · cases h
      exact .idle _
    · rename_i row hrow
      cases h
      exact .presented _ _ _ row hrow hfree
  · cases h
    exact moves_decidePresented _ _ _ _
  · split_ifs at h with hfree
    cases h
    exact .userRotated _ _ _ _ hfree
  · cases h
    exact moves_decideVerify _ _
  · split_ifs at h with hfree
    cases h
    exact .touched _ _ _ hfree
  · cases h
    exact moves_decideById _ _
  · split_ifs at h with hfree
    cases h
    exact .revokeSession _ hfree
  · split_ifs at h
    cases h
    exact .revokeTokens _
  · cases h
    exact .revokeLinks _ choice
  · cases h
    exact .membership _ _ _ _ _
  · cases h
    exact .memberships _ _
  · split at h
    · rename_i hnone
      cases h
      exact .enumerating _ fun orgId horg => by rw [hnone] at horg; cases horg
    · rename_i orgId hsome
      split_ifs at h with hfree
      cases h
      refine .enumerating _ fun orgId' horg => ?_
      obtain rfl := Option.some.inj (hsome.symm.trans horg)
      exact hfree
  · cases h
    exact .enumerated _ choice
  · exact moves_continueJob h
  · split at h
    · cases h
    · rename_i target htarget
      split_ifs at h with hfree
      cases h
      exact .next _ _ _ target (List.mem_of_find?_eq_some htarget) hfree
  · split at h
    · cases h
      exact .idle _
    · rename_i row hrow
      split_ifs at h with hfree
      cases h
      exact moves_decideRefresh hrow hfree
  · cases h
    exact .rotated _ _ _
  · cases h

lemma finishes_of_finish {e : AuthState.End} (h : s.finish env tx = some e) :
    Finishes env s tx e := by
  unfold AuthState.finish at h
  split at h
  · cases h
    exact .throwing _ _
  · cases h
    exact .userRotated _ _ _ _
  · cases h
    exact .touched _ _ _
  · cases h
    exact .verified _ _
  · split at h
    · rename_i hending
      cases h
      exact .userRevoked _ _ hending
    · rename_i hending
      cases h
      exact .userThrown _ _ hending
  · cases h
    exact .sessions _ _
  · cases h
    exact .userInOrg _ _ _ _
  · cases h
    exact .org _ _ _
  · cases h
    exact .recovery _ _
  · cases h
    exact .inserted _ _ _ _
  · cases h
    exact .rotated _ _ _ _ _
  · cases h

/-- The state after the end of a body. -/
def AuthState.ended (s : AuthState) (i : ℕ) (e : AuthState.End) : AuthState :=
  { s.put i e.next with db := e.db, log := e.events ++ s.log }

/-- Changes that no transaction of the model makes. -/
inductive Outside (env : AuthEnv) (s : AuthState) : AuthState → Prop where
  | tick (t : ℤ) (h : s.now ≤ t) : Outside env s { s with now := t }
  | issueUserSession (userId : ℕ) :
      Outside env s { s with
        db := s.db.issueUserSession env userId s.seq (s.seq + 1) s.now, seq := s.seq + 2 }
  | setMember (activeMember : ℕ → ℕ → Bool) :
      Outside env s { s with db := { s.db with activeMember } }
  | createOrganization (organizations : List ℕ) :
      Outside env s { s with db := { s.db with organizations } }
  | touchSession (n : ℕ) (h : ∀ j ∈ s.slots, (s.txs j).holdsSession n = false) :
      Outside env s { s with db := s.db.touchSession n s.now }
  | prune (revokedTokens : ℕ → Bool) :
      Outside env s { s with db := { s.db with revokedTokens } }

/-- The three kinds of steps. -/
inductive AuthStep (env : AuthEnv) (s : AuthState) : AuthLabel → AuthState → Prop where
  | moves {a : AuthLabel} (i : ℕ) {tx' : AuthTx} (h : Moves env s i (s.txs i) tx')
      (ha : tx' = .idle ∨ (∃ request, s.call (s.txs i) request = some tx') ∨
        ∃ choice, a = .runs i choice) : AuthStep env s a (s.put i tx')
  | finish (i : ℕ) {e : AuthState.End} (h : Finishes env s (s.txs i) e) :
      AuthStep env s (.finish i) (s.ended i e)
  | outside {a : AuthLabel} {s' : AuthState} (h : Outside env s s') : AuthStep env s a s'

/-- **Inversion of a step.** -/
lemma authStep_cases {a : AuthLabel} (h : authStep env s a = some s') : AuthStep env s a s' := by
  cases a with
  | tick t =>
    simp only [authStep] at h
    split_ifs at h with hle
    cases h
    exact .outside (.tick t hle)
  | issueUserSession userId =>
    cases h
    exact .outside (.issueUserSession userId)
  | setMember userId orgId active =>
    cases h
    exact .outside (.setMember _)
  | createOrganization orgId =>
    cases h
    exact .outside (.createOrganization _)
  | touchSession n =>
    simp only [authStep] at h
    split_ifs at h with hfree
    cases h
    refine .outside (.touchSession n fun j hj => ?_)
    have hj' := List.all_eq_true.1 hfree j hj
    simpa using hj'
  | prune ids =>
    cases h
    exact .outside (.prune _)
  | call i request =>
    simp only [authStep, Option.map_eq_some_iff] at h
    obtain ⟨tx', hcall, rfl⟩ := h
    exact .moves i (moves_of_call hcall) (.inr (.inl ⟨request, hcall⟩))
  | runs i choice =>
    simp only [authStep, Option.map_eq_some_iff] at h
    obtain ⟨tx', hadvance, rfl⟩ := h
    exact .moves i (moves_of_advance hadvance) (.inr (.inr ⟨choice, rfl⟩))
  | finish i =>
    simp only [authStep, Option.map_eq_some_iff] at h
    obtain ⟨e, hfinish, rfl⟩ := h
    exact .finish i (finishes_of_finish hfinish)
  | rollback i =>
    cases h
    exact .moves i (.idle _) (.inl rfl)

lemma put_txs (s : AuthState) (i : ℕ) (tx : AuthTx) (j : ℕ) :
    (s.put i tx).txs j = if j = i then tx else s.txs j :=
  Function.update_apply s.txs i tx j

/-- What all phases share before a move, they share after it. -/
lemma forall_txs_put {P : AuthTx → Prop} (h : ∀ j, P (s.txs j)) (htx : P tx) (j : ℕ) :
    P ((s.put i tx).txs j) := by
  rw [put_txs]
  split
  · exact htx
  · exact h j

/-! ### Extensions -/

/-- A session row after later writes. -/
structure SessionRow.Later (row row' : SessionRow) : Prop where
  userId : row'.userId = row.userId
  orgId : row'.orgId = row.orgId
  revoked : row.revokedAt.isSome = true → row'.revokedAt.isSome = true

/-- A user session row after later writes. -/
structure UserSessionRow.Later (row row' : UserSessionRow) : Prop where
  userId : row'.userId = row.userId
  expiresAt : row'.expiresAt = row.expiresAt
  revoked : row.revokedAt.isSome = true → row'.revokedAt.isSome = true

/-- A user refresh token after later writes. -/
structure UserRefreshTokenRow.Later (row row' : UserRefreshTokenRow) : Prop where
  userSessionId : row'.userSessionId = row.userSessionId
  revoked : row.revokedAt.isSome = true → row'.revokedAt.isSome = true

lemma SessionRow.Later.refl (row : SessionRow) : row.Later row := ⟨rfl, rfl, id⟩

lemma UserSessionRow.Later.refl (row : UserSessionRow) : row.Later row := ⟨rfl, rfl, id⟩

lemma UserRefreshTokenRow.Later.refl (row : UserRefreshTokenRow) : row.Later row := ⟨rfl, id⟩

/-- Later tables: rows stay, with their owners and their revocations. -/
structure AuthDb.Extends (db db' : AuthDb) : Prop where
  refreshToken : ∀ t row, db.refreshTokens t = some row →
    ∃ row', db'.refreshTokens t = some row' ∧ row'.sessionId = row.sessionId
  session : ∀ n row, db.sessions n = some row → ∃ row', db'.sessions n = some row' ∧ row.Later row'
  userSession : ∀ n row, db.userSessions n = some row →
    ∃ row', db'.userSessions n = some row' ∧ row.Later row'
  userToken : ∀ t row, db.userRefreshTokens t = some row →
    ∃ row', db'.userRefreshTokens t = some row' ∧ row.Later row'
  credentials : db.cliOrgCredentials ⊆ db'.cliOrgCredentials

lemma AuthDb.Extends.of_eq {db db' : AuthDb} (hsessions : db'.sessions = db.sessions)
    (hrefresh : db'.refreshTokens = db.refreshTokens)
    (huserSessions : db'.userSessions = db.userSessions)
    (huserTokens : db'.userRefreshTokens = db.userRefreshTokens)
    (hcredentials : db'.cliOrgCredentials = db.cliOrgCredentials) : db.Extends db' where
  refreshToken _ row h := ⟨row, by rw [hrefresh, h], rfl⟩
  session _ row h := ⟨row, by rw [hsessions, h], .refl row⟩
  userSession _ row h := ⟨row, by rw [huserSessions, h], .refl row⟩
  userToken _ row h := ⟨row, by rw [huserTokens, h], .refl row⟩
  credentials := by rw [hcredentials]; exact List.Subset.refl _

lemma AuthDb.Extends.refl (db : AuthDb) : db.Extends db := .of_eq rfl rfl rfl rfl rfl

lemma AuthDb.Extends.trans {db₁ db₂ db₃ : AuthDb} (h : db₁.Extends db₂) (h' : db₂.Extends db₃) :
    db₁.Extends db₃ where
  refreshToken t row ht := by
    obtain ⟨row₂, ht₂, hsame⟩ := h.refreshToken t row ht
    obtain ⟨row₃, ht₃, hsame'⟩ := h'.refreshToken t row₂ ht₂
    exact ⟨row₃, ht₃, hsame'.trans hsame⟩
  session n row hn := by
    obtain ⟨row₂, hn₂, hlater⟩ := h.session n row hn
    obtain ⟨row₃, hn₃, hlater'⟩ := h'.session n row₂ hn₂
    exact ⟨row₃, hn₃, hlater'.userId.trans hlater.userId, hlater'.orgId.trans hlater.orgId,
      fun hrevoked => hlater'.revoked (hlater.revoked hrevoked)⟩
  userSession n row hn := by
    obtain ⟨row₂, hn₂, hlater⟩ := h.userSession n row hn
    obtain ⟨row₃, hn₃, hlater'⟩ := h'.userSession n row₂ hn₂
    exact ⟨row₃, hn₃, hlater'.userId.trans hlater.userId, hlater'.expiresAt.trans hlater.expiresAt,
      fun hrevoked => hlater'.revoked (hlater.revoked hrevoked)⟩
  userToken t row ht := by
    obtain ⟨row₂, ht₂, hlater⟩ := h.userToken t row ht
    obtain ⟨row₃, ht₃, hlater'⟩ := h'.userToken t row₂ ht₂
    exact ⟨row₃, ht₃, hlater'.userSessionId.trans hlater.userSessionId,
      fun hrevoked => hlater'.revoked (hlater.revoked hrevoked)⟩
  credentials := List.Subset.trans h.credentials h'.credentials

namespace AuthDb

variable {db : AuthDb}

lemma revokeSessions_sessions (db : AuthDb) (ids : List ℕ) (now : ℤ) (n : ℕ) :
    (db.revokeSessions ids now).sessions n =
      if n ∈ ids then (db.sessions n).map (·.revoke now) else db.sessions n := rfl

lemma extends_revokeSessions (ids : List ℕ) (now : ℤ) : db.Extends (db.revokeSessions ids now) where
  refreshToken t row ht := by
    simp only [revokeSessions, ht, Option.map_some]
    split
    · exact ⟨_, rfl, rfl⟩
    · exact ⟨row, rfl, rfl⟩
  session n row hn := by
    rw [revokeSessions_sessions]
    split
    · exact ⟨row.revoke now, by rw [hn]; rfl, rfl, rfl, fun _ => rfl⟩
    · exact ⟨row, hn, .refl row⟩
  userSession n row hn := ⟨row, hn, .refl row⟩
  userToken t row ht := ⟨row, ht, .refl row⟩
  credentials := List.Subset.refl _

lemma extends_revokeUserSession (sessionId : ℕ) (now : ℤ) :
    db.Extends (db.revokeUserSession sessionId now) where
  refreshToken t row ht := ⟨row, ht, rfl⟩
  session n row hn := ⟨row, hn, .refl row⟩
  userSession n row hn := by
    simp only [revokeUserSession]
    split
    · exact ⟨{ row with revokedAt := some now }, by rw [hn]; rfl, rfl, rfl, fun _ => rfl⟩
    · exact ⟨row, hn, .refl row⟩
  userToken t row ht := by
    simp only [revokeUserSession, ht, Option.map_some]
    split
    · exact ⟨_, rfl, rfl, fun _ => rfl⟩
    · exact ⟨row, rfl, .refl row⟩
  credentials := List.Subset.refl _

lemma extends_touchUserSession (sessionId : ℕ) (now : ℤ) :
    db.Extends (db.touchUserSession sessionId now) where
  refreshToken t row ht := ⟨row, ht, rfl⟩
  session n row hn := ⟨row, hn, .refl row⟩
  userSession n row hn := by
    simp only [touchUserSession]
    split
    · exact ⟨{ row with lastActiveAt := now }, by rw [hn]; rfl, rfl, rfl, id⟩
    · exact ⟨row, hn, .refl row⟩
  userToken t row ht := ⟨row, ht, .refl row⟩
  credentials := List.Subset.refl _

lemma extends_touchSession (m : ℕ) (now : ℤ) : db.Extends (db.touchSession m now) where
  refreshToken t row ht := ⟨row, ht, rfl⟩
  session n row hn := by
    simp only [touchSession]
    split
    · exact ⟨{ row with lastActiveAt := now }, by rw [hn]; rfl, rfl, rfl, id⟩
    · exact ⟨row, hn, .refl row⟩
  userSession n row hn := ⟨row, hn, .refl row⟩
  userToken t row ht := ⟨row, ht, .refl row⟩
  credentials := List.Subset.refl _

lemma extends_rotateUserRefresh {token newToken : ℕ} {row : UserRefreshTokenRow}
    {session : UserSessionRow} {now : ℤ} (hnew : db.userRefreshTokens newToken = none) :
    db.Extends (db.rotateUserRefresh token row session newToken now) where
  refreshToken t row ht := ⟨row, ht, rfl⟩
  session n row hn := ⟨row, hn, .refl row⟩
  userSession n row' hn := by
    simp only [rotateUserRefresh]
    split
    · exact ⟨{ row' with lastActiveAt := now }, by rw [hn]; rfl, rfl, rfl, id⟩
    · exact ⟨row', hn, .refl row'⟩
  userToken t row' ht := by
    have hne : t ≠ newToken := fun heq => by
      rw [heq, hnew] at ht
      cases ht
    simp only [rotateUserRefresh, Function.update_of_ne hne, ht, Option.map_some]
    split
    · exact ⟨_, rfl, rfl, id⟩
    · exact ⟨row', rfl, .refl row'⟩
  credentials := List.Subset.refl _

lemma extends_issueUserSession {userId newSession newToken : ℕ} {now : ℤ}
    (hsession : db.userSessions newSession = none)
    (htoken : db.userRefreshTokens newToken = none) :
    db.Extends (db.issueUserSession env userId newSession newToken now) where
  refreshToken t row ht := ⟨row, ht, rfl⟩
  session n row hn := ⟨row, hn, .refl row⟩
  userSession n row hn := by
    have hne : n ≠ newSession := fun heq => by
      rw [heq, hsession] at hn
      cases hn
    exact ⟨row, by simp only [issueUserSession, Function.update_of_ne hne, hn], .refl row⟩
  userToken t row ht := by
    have hne : t ≠ newToken := fun heq => by
      rw [heq, htoken] at ht
      cases ht
    exact ⟨row, by simp only [issueUserSession, Function.update_of_ne hne, ht], .refl row⟩
  credentials := List.Subset.refl _

lemma extends_createLoginSession {row : SessionRow} {userSession : Option ℕ}
    {newSession newToken : ℕ} (hsession : db.sessions newSession = none)
    (htoken : db.refreshTokens newToken = none) :
    db.Extends (db.createLoginSession env row userSession newSession newToken) where
  refreshToken t row' ht := by
    have hne : t ≠ newToken := fun heq => by
      rw [heq, htoken] at ht
      cases ht
    refine ⟨row', ?_, rfl⟩
    simp only [createLoginSession]
    split
    · exact ht
    · rw [Function.update_of_ne hne, ht]
  session n row' hn := by
    have hne : n ≠ newSession := fun heq => by
      rw [heq, hsession] at hn
      cases hn
    exact ⟨row', by simp only [createLoginSession, Function.update_of_ne hne, hn], .refl row'⟩
  userSession n row' hn := ⟨row', hn, .refl row'⟩
  userToken t row' ht := ⟨row', ht, .refl row'⟩
  credentials := by
    cases userSession with
    | none => exact List.Subset.refl _
    | some m => exact List.subset_cons_self _ _

/-- A rotation extends the tables when the row it read is the committed one. -/
lemma extends_rotateRefreshToken {token : ℕ} {row : RefreshTokenRow} {session : SessionRow}
    {newSession newToken : ℕ} {rotatedAt : ℤ} (hnew : db.sessions newSession = none)
    (htoken : db.refreshTokens newToken = none)
    (hsession : db.sessions row.sessionId = some session) :
    db.Extends (db.rotateRefreshToken env token row session newSession newToken rotatedAt) where
  refreshToken t row' ht := by
    have hne : t ≠ newToken := fun heq => by
      rw [heq, htoken] at ht
      cases ht
    simp only [rotateRefreshToken, Function.update_of_ne hne, ht, Option.map_some]
    split
    · exact ⟨_, rfl, rfl⟩
    split
    · exact ⟨_, rfl, rfl⟩
    · exact ⟨row', rfl, rfl⟩
  session n row' hn := by
    have hne : n ≠ newSession := fun heq => by
      rw [heq, hnew] at hn
      cases hn
    simp only [rotateRefreshToken, Function.update_of_ne hne]
    by_cases hold : n = row.sessionId
    · subst hold
      rw [hsession] at hn
      cases hn
      rw [Function.update_self]
      exact ⟨session.revoke rotatedAt, rfl, rfl, rfl, fun _ => rfl⟩
    · rw [Function.update_of_ne hold]
      exact ⟨row', hn, .refl row'⟩
  userSession n row' hn := ⟨row', hn, .refl row'⟩
  userToken t row' ht := ⟨row', ht, .refl row'⟩
  credentials := List.Subset.refl _

end AuthDb

end Auth
