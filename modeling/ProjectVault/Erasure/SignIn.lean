import ProjectVault.Auth.Chains
import ProjectVault.Erasure.System

/-!
Writes to the sign-in tables while rows are locked.
-/

namespace Erasure

open Auth

variable {env : AuthEnv} {db db' : AuthDb} {seq seq' x y : ℕ}

/-! ### Links -/

lemma succeeds_of_links (h : ∀ t row', db'.refreshTokens t = some row' → row'.newSessionId = none ∨
      ∃ row, db.refreshTokens t = some row ∧ row.sessionId = row'.sessionId ∧
        row.newSessionId = row'.newSessionId) (hxy : db'.Succeeds x y) : db.Succeeds x y := by
  obtain ⟨t, row', ht, hx, hy⟩ := hxy
  rcases h t row' ht with hnone | ⟨row, hrow, hsession, hnew⟩
  · rw [hnone] at hy
    cases hy
  · exact ⟨t, row, hrow, hsession.trans hx, hnew.trans hy⟩

lemma revokeSessions_succeeds {ids : List ℕ} {now : ℤ}
    (hxy : (db.revokeSessions ids now).Succeeds x y) : db.Succeeds x y := by
  refine succeeds_of_links (fun t row' ht => .inr ?_) hxy
  obtain ⟨row, hrow, rfl⟩ := Option.map_eq_some_iff.1 ht
  refine ⟨row, hrow, ?_⟩
  split <;> exact ⟨rfl, rfl⟩

lemma createLoginSession_succeeds {row : SessionRow} {userSession : Option ℕ} {n t : ℕ}
    (hxy : (db.createLoginSession env row userSession n t).Succeeds x y) : db.Succeeds x y := by
  refine succeeds_of_links (fun t' row' ht => ?_) hxy
  simp only [AuthDb.createLoginSession] at ht
  split at ht
  · exact .inr ⟨row', ht, rfl, rfl⟩
  by_cases heq : t' = t
  · subst heq
    rw [Function.update_self] at ht
    cases ht
    exact .inl rfl
  · rw [Function.update_of_ne heq] at ht
    exact .inr ⟨row', ht, rfl, rfl⟩

/-- A rotation adds the link from the session it was shown to its successor. -/
lemma rotateRefreshToken_succeeds {token n t : ℕ} {row r : RefreshTokenRow} {session : SessionRow}
    {rotatedAt : ℤ} (hr : db.refreshTokens token = some r) (hsame : r.sessionId = row.sessionId)
    (hxy : (db.rotateRefreshToken env token row session n t rotatedAt).Succeeds x y) :
    db.Succeeds x y ∨ x = row.sessionId ∧ y = n := by
  obtain ⟨t', row', ht, rfl, hy⟩ := hxy
  by_cases hnew : t' = t
  · subst hnew
    simp only [AuthDb.rotateRefreshToken, Function.update_self] at ht
    cases ht
    cases hy
  simp only [AuthDb.rotateRefreshToken, Function.update_of_ne hnew] at ht
  obtain ⟨r', hr', rfl⟩ := Option.map_eq_some_iff.1 ht
  by_cases htoken : t' = token
  · subst htoken
    obtain rfl := Option.some.inj (hr.symm.trans hr')
    rw [if_pos rfl] at hy ⊢
    exact .inr ⟨hsame, (Option.some.inj hy).symm⟩
  · rw [if_neg htoken] at hy ⊢
    refine .inl ⟨t', r', hr', ?_⟩
    split at hy
    · rename_i hrevoked
      rw [if_pos hrevoked]
      exact ⟨rfl, hy⟩
    · rename_i hrevoked
      rw [if_neg hrevoked]
      exact ⟨rfl, hy⟩

/-! ### Moves -/

/-- What a write to the sign-in tables may do while rows are locked: sessions are inserted for users
whose rows are free, and only unrevoked sessions get successors. -/
structure AuthMove (locks : Row → Option ℕ) (db db' : AuthDb) : Prop where
  later : db.Extends db'
  session : ∀ n row, db'.sessions n = some row → db.sessions n ≠ none ∨
    locks (.user row.userId) = none
  locked : ∀ n row j, db.sessions n = some row → locks (.session n) = some j →
    db'.sessions n = some row
  edge : ∀ x y, db'.Succeeds x y → db.Succeeds x y ∨
    ∀ row, db.sessions x = some row → row.revokedAt = none

variable {locks : Row → Option ℕ} {ids : List ℕ} {now : ℤ} {n t : ℕ}

/-- The organization sessions stay. -/
lemma AuthMove.of_same (hext : db.Extends db') (hsessions : db'.sessions = db.sessions)
    (hrefresh : db'.refreshTokens = db.refreshTokens) : AuthMove locks db db' where
  later := hext
  session n row hn := by
    rw [hsessions] at hn
    exact .inl (by rw [hn]; exact nofun)
  locked n row j hn _ := by rw [hsessions, hn]
  edge x y hxy := by
    rw [AuthDb.Succeeds, hrefresh] at hxy
    exact .inl hxy

lemma AuthMove.refl : AuthMove locks db db := .of_same (.refl db) rfl rfl

lemma AuthMove.trans {db'' : AuthDb} (h : AuthMove locks db db') (h' : AuthMove locks db' db'') :
    AuthMove locks db db'' where
  later := h.later.trans h'.later
  session n row hn := by
    rcases h'.session n row hn with hold | hfree
    · obtain ⟨row', hrow'⟩ := Option.ne_none_iff_exists'.1 hold
      obtain ⟨row'', hrow'', hlater⟩ := h'.later.session n row' hrow'
      obtain rfl := Option.some.inj (hn.symm.trans hrow'')
      rw [hlater.userId]
      exact h.session n row' hrow'
    · exact .inr hfree
  locked n row j hn hj := h'.locked n row j (h.locked n row j hn hj) hj
  edge x y hxy := by
    rcases h'.edge x y hxy with hold | hlive
    · exact h.edge x y hold
    · refine .inr fun row hrow => ?_
      obtain ⟨row', hrow', hlater⟩ := h.later.session x row hrow
      by_contra hrevoked
      have hsome := hlater.revoked (Option.isSome_iff_ne_none.2 hrevoked)
      rw [hlive row' hrow'] at hsome
      cases hsome

lemma authMove_revokeSessions (hfree : ∀ n ∈ ids, locks (.session n) = none) :
    AuthMove locks db (db.revokeSessions ids now) where
  later := AuthDb.extends_revokeSessions ids now
  session n row hn := by
    refine .inl fun hnone => ?_
    rw [AuthDb.revokeSessions_sessions, hnone] at hn
    simp at hn
  locked n row j hn hj := by
    rw [AuthDb.revokeSessions_sessions, if_neg, hn]
    intro hmem
    rw [hfree n hmem] at hj
    cases hj
  edge x y hxy := .inl (revokeSessions_succeeds hxy)

lemma authMove_touchSession (hfree : locks (.session n) = none) :
    AuthMove locks db (db.touchSession n now) where
  later := AuthDb.extends_touchSession n now
  session m row hm := by
    refine .inl fun hnone => ?_
    simp [AuthDb.touchSession, hnone] at hm
  locked m row j hm hj := by
    have hne : m ≠ n := by
      rintro rfl
      rw [hfree] at hj
      cases hj
    simp [AuthDb.touchSession, hne, hm]
  edge x y hxy := .inl hxy

lemma authMove_createLoginSession {row : SessionRow} {userSession : Option ℕ}
    (hsession : db.sessions n = none) (htoken : db.refreshTokens t = none)
    (hfree : locks (.user row.userId) = none) :
    AuthMove locks db (db.createLoginSession env row userSession n t) where
  later := AuthDb.extends_createLoginSession hsession htoken
  session m row' hm := by
    by_cases heq : m = n
    · subst heq
      simp only [AuthDb.createLoginSession, Function.update_self] at hm
      exact .inr (Option.some.inj hm ▸ hfree)
    · simp only [AuthDb.createLoginSession, Function.update_of_ne heq] at hm
      exact .inl (by rw [hm]; exact Option.some_ne_none _)
  locked m row' j hm _ := by
    have hne : m ≠ n := by
      rintro rfl
      rw [hsession] at hm
      cases hm
    simp only [AuthDb.createLoginSession, Function.update_of_ne hne, hm]
  edge x y hxy := .inl (createLoginSession_succeeds hxy)

lemma authMove_rotateRefreshToken {token : ℕ} {row r : RefreshTokenRow} {session : SessionRow}
    {rotatedAt : ℤ} (hnew : db.sessions n = none) (htoken : db.refreshTokens t = none)
    (hsession : db.sessions row.sessionId = some session) (hlive : session.revokedAt = none)
    (hr : db.refreshTokens token = some r) (hsame : r.sessionId = row.sessionId)
    (hunlocked : locks (.session row.sessionId) = none)
    (hfree : locks (.user session.userId) = none) :
    AuthMove locks db (db.rotateRefreshToken env token row session n t rotatedAt) where
  later := AuthDb.extends_rotateRefreshToken hnew htoken hsession
  session m row' hm := by
    by_cases heq : m = n
    · subst heq
      simp only [AuthDb.rotateRefreshToken, Function.update_self] at hm
      exact .inr (Option.some.inj hm ▸ hfree)
    · by_cases hold : m = row.sessionId
      · exact .inl (by rw [hold, hsession]; exact Option.some_ne_none _)
      · simp only [AuthDb.rotateRefreshToken, Function.update_of_ne heq, Function.update_of_ne hold]
          at hm
        exact .inl (by rw [hm]; exact Option.some_ne_none _)
  locked m row' j hm hj := by
    have hne : m ≠ n := by
      rintro rfl
      rw [hnew] at hm
      cases hm
    have hne' : m ≠ row.sessionId := by
      rintro rfl
      rw [hunlocked] at hj
      cases hj
    simp only [AuthDb.rotateRefreshToken, Function.update_of_ne hne, Function.update_of_ne hne', hm]
  edge x y hxy := by
    rcases rotateRefreshToken_succeeds hr hsame hxy with hold | ⟨rfl, -⟩
    · exact .inl hold
    · refine .inr fun row' hrow' => ?_
      obtain rfl := Option.some.inj (hsession.symm.trans hrow')
      exact hlive

/-! ### Numbers -/

/-- A row has a number below the next one. -/
lemma lt_of_eq_some {α : Type*} {rows : ℕ → Option α} {row : α}
    (h : ∀ n, seq ≤ n → rows n = none) (hn : rows n = some row) : n < seq := by
  by_contra hge
  rw [h n (Nat.not_lt.1 hge)] at hn
  cases hn

/-- Rows have numbers below the next one, and a refresh keeps the user. -/
structure AuthNumbered (db : AuthDb) (seq : ℕ) : Prop where
  sessions : ∀ n, seq ≤ n → db.sessions n = none
  refreshTokens : ∀ n, seq ≤ n → db.refreshTokens n = none
  userSessions : ∀ n, seq ≤ n → db.userSessions n = none
  userRefreshTokens : ∀ n, seq ≤ n → db.userRefreshTokens n = none
  edge : ∀ x y, db.Succeeds x y → ∃ row row', db.sessions x = some row ∧
    db.sessions y = some row' ∧ row'.userId = row.userId

/-- Old links stay links between sessions of one user. -/
lemma AuthNumbered.edge_of_extends (h : AuthNumbered db seq) (hext : db.Extends db')
    (hxy : db.Succeeds x y) : ∃ row row', db'.sessions x = some row ∧ db'.sessions y = some row' ∧
      row'.userId = row.userId := by
  obtain ⟨row, row', hx, hy, huser⟩ := h.edge x y hxy
  obtain ⟨rowx, hx', hlaterx⟩ := hext.session x row hx
  obtain ⟨rowy, hy', hlatery⟩ := hext.session y row' hy
  exact ⟨rowx, rowy, hx', hy', by rw [hlatery.userId, huser, hlaterx.userId]⟩

lemma AuthNumbered.mono (h : AuthNumbered db seq) (hseq : seq ≤ seq') : AuthNumbered db seq' where
  sessions n hn := h.sessions n (hseq.trans hn)
  refreshTokens n hn := h.refreshTokens n (hseq.trans hn)
  userSessions n hn := h.userSessions n (hseq.trans hn)
  userRefreshTokens n hn := h.userRefreshTokens n (hseq.trans hn)
  edge := h.edge

/-- The organization sessions have their numbers and links still. -/
lemma AuthNumbered.of_same (h : AuthNumbered db seq) (hseq : seq ≤ seq')
    (hsessions : db'.sessions = db.sessions) (hrefresh : db'.refreshTokens = db.refreshTokens)
    (huser : ∀ n, seq' ≤ n → db'.userSessions n = none)
    (htokens : ∀ n, seq' ≤ n → db'.userRefreshTokens n = none) : AuthNumbered db' seq' where
  sessions n hn := by rw [hsessions, h.sessions n (hseq.trans hn)]
  refreshTokens n hn := by rw [hrefresh, h.refreshTokens n (hseq.trans hn)]
  userSessions := huser
  userRefreshTokens := htokens
  edge x y hxy := by
    rw [AuthDb.Succeeds, hrefresh] at hxy
    rw [hsessions]
    exact h.edge x y hxy

lemma AuthNumbered.revokeSessions (h : AuthNumbered db seq) :
    AuthNumbered (db.revokeSessions ids now) seq where
  sessions n hn := by simp [AuthDb.revokeSessions, h.sessions n hn]
  refreshTokens n hn := by simp [AuthDb.revokeSessions, h.refreshTokens n hn]
  userSessions := h.userSessions
  userRefreshTokens := h.userRefreshTokens
  edge x y hxy :=
    h.edge_of_extends (AuthDb.extends_revokeSessions ids now) (revokeSessions_succeeds hxy)

lemma AuthNumbered.touchSession (h : AuthNumbered db seq) :
    AuthNumbered (db.touchSession n now) seq where
  sessions m hm := by simp [AuthDb.touchSession, h.sessions m hm]
  refreshTokens := h.refreshTokens
  userSessions := h.userSessions
  userRefreshTokens := h.userRefreshTokens
  edge x y hxy := h.edge_of_extends (AuthDb.extends_touchSession n now) hxy

lemma AuthNumbered.createLoginSession (h : AuthNumbered db seq) {row : SessionRow}
    {userSession : Option ℕ} :
    AuthNumbered (db.createLoginSession env row userSession seq (seq + 1)) (seq + 2) where
  sessions m hm := by
    have hne : m ≠ seq := by omega
    simp [AuthDb.createLoginSession, hne, h.sessions m (by omega)]
  refreshTokens m hm := by
    have hne : m ≠ seq + 1 := by omega
    simp only [AuthDb.createLoginSession]
    split
    · exact h.refreshTokens m (by omega)
    · rw [Function.update_of_ne hne, h.refreshTokens m (by omega)]
  userSessions m hm := h.userSessions m (by omega)
  userRefreshTokens m hm := h.userRefreshTokens m (by omega)
  edge x y hxy := h.edge_of_extends (AuthDb.extends_createLoginSession (h.sessions seq le_rfl)
    (h.refreshTokens _ (by omega))) (createLoginSession_succeeds hxy)

lemma AuthNumbered.rotateRefreshToken (h : AuthNumbered db seq) {token : ℕ}
    {row r : RefreshTokenRow} {session : SessionRow} {rotatedAt : ℤ}
    (hsession : db.sessions row.sessionId = some session)
    (hr : db.refreshTokens token = some r) (hsame : r.sessionId = row.sessionId) :
    AuthNumbered (db.rotateRefreshToken env token row session seq (seq + 1) rotatedAt)
      (seq + 2) where
  sessions m hm := by
    have hne : m ≠ seq := by omega
    have hne' : m ≠ row.sessionId := by
      rintro rfl
      rw [h.sessions _ (by omega)] at hsession
      cases hsession
    simp [AuthDb.rotateRefreshToken, hne, hne', h.sessions m (by omega)]
  refreshTokens m hm := by
    have hne : m ≠ seq + 1 := by omega
    simp [AuthDb.rotateRefreshToken, hne, h.refreshTokens m (by omega)]
  userSessions m hm := h.userSessions m (by omega)
  userRefreshTokens m hm := h.userRefreshTokens m (by omega)
  edge x y hxy := by
    have hnew := h.sessions seq le_rfl
    rcases rotateRefreshToken_succeeds hr hsame hxy with hold | ⟨rfl, rfl⟩
    · exact h.edge_of_extends
        (AuthDb.extends_rotateRefreshToken hnew (h.refreshTokens _ (by omega)) hsession) hold
    · have hne : row.sessionId ≠ y := by
        intro heq
        rw [heq, hnew] at hsession
        cases hsession
      refine ⟨session.revoke rotatedAt, session.successor env rotatedAt, ?_, ?_, rfl⟩
      · simp [AuthDb.rotateRefreshToken, hne]
      · simp [AuthDb.rotateRefreshToken]

end Erasure
