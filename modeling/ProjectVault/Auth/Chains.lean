import ProjectVault.Auth.Credentials

/-!
Chains of refresh rotations.
-/

namespace Auth

variable {env : AuthEnv} {s s' : AuthState} {i n x y : ℕ} {tx tx' : AuthTx} {e : AuthState.End}
  {db db' : AuthDb} {P : ℕ → SessionRow → Prop}

/-! ### Chains -/

/-- A refresh token of `x` has been rotated for the session `y`. -/
def AuthDb.Succeeds (db : AuthDb) (x y : ℕ) : Prop :=
  ∃ t row, db.refreshTokens t = some row ∧ row.sessionId = x ∧ row.newSessionId = some y

/-- A session obtained by any chain of rotations from one with the property. -/
def Marked (db : AuthDb) (P : ℕ → SessionRow → Prop) (y : ℕ) : Prop :=
  ∃ x row, db.sessions x = some row ∧ P x row ∧ Relation.ReflTransGen db.Succeeds x y

lemma Marked.root {row : SessionRow} (hrow : db.sessions x = some row) (hP : P x row) :
    Marked db P x :=
  ⟨x, row, hrow, hP, .refl⟩

lemma Marked.tail (h : Marked db P x) (hxy : db.Succeeds x y) : Marked db P y := by
  obtain ⟨z, row, hrow, hP, hchain⟩ := h
  exact ⟨z, row, hrow, hP, hchain.tail hxy⟩

/-- What the roots have and successors inherit, every marked session has. -/
lemma Marked.induction {Q : ℕ → Prop} (h : Marked db P y)
    (hroot : ∀ x row, db.sessions x = some row → P x row → Q x)
    (htail : ∀ x y, Marked db P x → Q x → db.Succeeds x y → Q y) : Q y := by
  obtain ⟨x, row, hrow, hP, hchain⟩ := h
  induction hchain with
  | refl => exact hroot x row hrow hP
  | tail hprefix hlast ih => exact htail _ _ ⟨x, row, hrow, hP, hprefix⟩ ih hlast

/-- The refresh tokens decide the successors. -/
lemma Marked.congr (h : Marked db' P y) (hrefresh : db'.refreshTokens = db.refreshTokens)
    (hroot : ∀ x row, db'.sessions x = some row → P x row →
      ∃ row, db.sessions x = some row ∧ P x row) : Marked db P y := by
  obtain ⟨x, row, hrow, hP, hchain⟩ := h
  obtain ⟨row₀, hrow₀, hP₀⟩ := hroot x row hrow hP
  refine ⟨x, row₀, hrow₀, hP₀, Relation.ReflTransGen.mono (fun a b hab => ?_) _ _ hchain⟩
  simpa only [AuthDb.Succeeds, hrefresh] using hab

/-! ### The invariant -/

structure ChainInv (s : AuthState) : Prop where
  inv : AuthInv s
  edge : ∀ x y, s.db.Succeeds x y → ∃ row row', s.db.sessions x = some row ∧
    s.db.sessions y = some row' ∧ row'.userId = row.userId ∧ row'.orgId = row.orgId
  later : ∀ i token row session n rotatedAt, s.txs i = .rotated token row session n rotatedAt →
    row.sessionId < n

lemma ChainInv.moves (h : ChainInv s) (hmove : Moves env s i (s.txs i) tx') :
    ChainInv (s.put i tx') := by
  refine ⟨h.inv.moves hmove, h.edge, fun k token row session n rotatedAt hk => ?_⟩
  rw [put_txs] at hk
  split at hk
  · subst hk
    generalize htx : s.txs i = tx at hmove
    cases hmove with
    | rotated =>
      exact h.inv.session_lt _ _ (h.inv.rotation i token row session (by rw [htx]; rfl)).1
  · exact h.later k token row session n rotatedAt hk

/-- A rotation commits its successor with the user and the organization of the session it read. -/
lemma Finishes.rotated_sessions {token : ℕ} {row : RefreshTokenRow} {session : SessionRow}
    {rotatedAt : ℤ} (hend : Finishes env s (.rotated token row session n rotatedAt) e) :
    e.db.sessions n = some (session.successor env rotatedAt) := by
  cases hend with
  | rotated => exact Function.update_self ..

/-- The successors after an end: those before it, or the one its rotation has inserted. -/
lemma Finishes.succeeds_cases (hinv : AuthInv s) (hend : Finishes env s (s.txs i) e)
    (h : e.db.Succeeds x y) : s.db.Succeeds x y ∨ ∃ token row session,
      (s.txs i).rotation = some (token, row, session) ∧ (s.txs i).draws = some y ∧
        row.sessionId = x := by
  obtain ⟨t, r, ht, hx, hy⟩ := h
  rcases hend.refreshTokens_cases ht with ⟨r₀, hr₀, hsame, hnew⟩ | ⟨m, -, -, -, hnone⟩
  · rcases hnew with hnew | ⟨row, session, m, hrotation, hdraws, hnew⟩
    · exact .inl ⟨t, r₀, hr₀, hsame.symm.trans hx, hnew.symm.trans hy⟩
    · obtain rfl := Option.some.inj (hnew.symm.trans hy)
      obtain ⟨-, -, r', hr', hsame'⟩ := hinv.rotation i t row session hrotation
      obtain rfl := Option.some.inj (hr₀.symm.trans hr')
      exact .inr ⟨t, row, session, hrotation, hdraws, hsame'.symm.trans (hsame.symm.trans hx)⟩
  · exact nomatch hnone.symm.trans hy

/-- A transaction that has drawn a number and rotates is a rotation. -/
lemma AuthTx.rotated_of_rotation {token : ℕ} {row : RefreshTokenRow} {session : SessionRow}
    (hrotation : tx.rotation = some (token, row, session)) (hdraws : tx.draws = some n) :
    ∃ rotatedAt, tx = .rotated token row session n rotatedAt := by
  cases tx with
  | rotated token' row' session' n' rotatedAt =>
    obtain ⟨rfl, rfl, rfl⟩ : token' = token ∧ row' = row ∧ session' = session := by
      simpa [rotation] using hrotation
    cases hdraws
    exact ⟨rotatedAt, rfl⟩
  | inserted => cases hrotation
  | _ => cases hdraws

lemma ChainInv.ended (h : ChainInv s) (hend : Finishes env s (s.txs i) e) :
    ChainInv (s.ended i e) := by
  have hext := hend.extends h.inv
  refine ⟨h.inv.ended hend, fun x y hxy => ?_, fun k token row session n rotatedAt hk => ?_⟩
  · rcases hend.succeeds_cases h.inv hxy with hold | ⟨token, row, session, hrotation, hdraws, rfl⟩
    · obtain ⟨row, row', hx, hy, huser, horg⟩ := h.edge x y hold
      obtain ⟨rowx, hx', hlaterx⟩ := hext.session x row hx
      obtain ⟨rowy, hy', hlatery⟩ := hext.session y row' hy
      exact ⟨rowx, rowy, hx', hy', by rw [hlatery.userId, huser, hlaterx.userId],
        by rw [hlatery.orgId, horg, hlaterx.orgId]⟩
    · obtain ⟨hsession, -⟩ := h.inv.rotation i token row session hrotation
      obtain ⟨session', hsession', hlater⟩ := hext.session _ session hsession
      obtain ⟨rotatedAt, htx⟩ := AuthTx.rotated_of_rotation hrotation hdraws
      rw [htx] at hend
      exact ⟨session', _, hsession', hend.rotated_sessions, hlater.userId.symm, hlater.orgId.symm⟩
  · rw [ended_txs] at hk
    split at hk
    · have hnext := hend.next.2.2.1
      rw [hk] at hnext
      cases hnext
    · exact h.later k token row session n rotatedAt hk

lemma ChainInv.outside (h : ChainInv s) (hout : Outside env s s') : ChainInv s' := by
  have hext := hout.extends h.inv
  have hrefresh : s'.db.refreshTokens = s.db.refreshTokens := by cases hout <;> rfl
  refine ⟨h.inv.outside hout, fun x y hxy => ?_, ?_⟩
  · obtain ⟨row, row', hx, hy, huser, horg⟩ := h.edge x y (by
      simpa only [AuthDb.Succeeds, hrefresh] using hxy)
    obtain ⟨rowx, hx', hlaterx⟩ := hext.session x row hx
    obtain ⟨rowy, hy', hlatery⟩ := hext.session y row' hy
    exact ⟨rowx, rowy, hx', hy', by rw [hlatery.userId, huser, hlaterx.userId],
      by rw [hlatery.orgId, horg, hlaterx.orgId]⟩
  · rw [hout.txs]
    exact h.later

lemma chainInv_init : ChainInv (authSystem env).init where
  inv := authInv_init
  edge _ _ h := by
    obtain ⟨_, _, ht, -⟩ := h
    cases ht
  later _ _ _ _ _ _ h := nomatch h

/-- Marked sessions are sessions of the users and organizations of their roots. -/
lemma ChainInv.marked_row (h : ChainInv s) {Q : SessionRow → Prop}
    (hP : ∀ x row, P x row → Q row)
    (hQ : ∀ row row' : SessionRow, row'.userId = row.userId → row'.orgId = row.orgId → Q row →
      Q row')
    (hy : Marked s.db P y) : ∃ row, s.db.sessions y = some row ∧ Q row := by
  refine hy.induction (Q := fun y => ∃ row, s.db.sessions y = some row ∧ Q row)
    (fun x row hrow hx => ⟨row, hrow, hP x row hx⟩) ?_
  rintro x y - ⟨row, hrow, hq⟩ hxy
  obtain ⟨rowx, rowy, hx, hy, huser, horg⟩ := h.edge x y hxy
  obtain rfl := Option.some.inj (hrow.symm.trans hx)
  exact ⟨rowy, hy, hQ row rowy huser horg hq⟩

/-- **What an end adds to the marked sessions**: the successor of a marked session that the rotation
has read, as long as a new session with the property is such a successor itself. -/
lemma Marked.ended (h : ChainInv s) (hend : Finishes env s (s.txs i) e)
    (hP : ∀ x (row row' : SessionRow), row.Later row' → P x row' → P x row)
    (hnew : ∀ n row', (s.txs i).draws = some n → e.db.sessions n = some row' → P n row' →
      ∃ token row session, (s.txs i).rotation = some (token, row, session) ∧
        Marked s.db P row.sessionId)
    (hy : Marked e.db P y) : Marked s.db P y ∨ (s.txs i).draws = some y ∧
      ∃ token row session, (s.txs i).rotation = some (token, row, session) ∧
        Marked s.db P row.sessionId := by
  have hrow : ∀ token row session, (s.txs i).rotation = some (token, row, session) →
      s.db.sessions row.sessionId ≠ none := fun token row session hr => by
    rw [(h.inv.rotation i token row session hr).1]
    exact nofun
  refine hy.induction (Q := fun y => Marked s.db P y ∨ (s.txs i).draws = some y ∧
    ∃ token row session, (s.txs i).rotation = some (token, row, session) ∧
      Marked s.db P row.sessionId) ?_ ?_
  · intro x row' hrow' hx
    by_cases hdraws : (s.txs i).draws = some x
    · exact .inr ⟨hdraws, hnew x row' hdraws hrow' hx⟩
    · cases hold : s.db.sessions x with
      | none => exact nomatch hrow'.symm.trans (hend.sessions_none hold hdraws hrow)
      | some row =>
        obtain ⟨row'', hrow'', hlater⟩ := (hend.extends h.inv).session x row hold
        obtain rfl := Option.some.inj (hrow'.symm.trans hrow'')
        exact .inl (.root hold (hP x row row' hlater hx))
  · rintro x y - hx hxy
    rcases hend.succeeds_cases h.inv hxy with hold | ⟨token, row, session, hrotation, hdraws, rfl⟩
    · rcases hx with hx | ⟨hdraws, -⟩
      · exact .inl (hx.tail hold)
      · -- the number just drawn has no successor
        obtain ⟨_, _, hsession, -⟩ := h.edge x y hold
        exact nomatch hsession.symm.trans (h.inv.drawn i x hdraws).2.1
    · rcases hx with hx | ⟨-, hmarked⟩
      · exact .inr ⟨hdraws, token, row, session, hrotation, hx⟩
      · exact .inr ⟨hdraws, hmarked⟩

/-- Changes from outside add no marked session. -/
lemma Marked.outside (h : AuthInv s) (hout : Outside env s s')
    (hP : ∀ x (row row' : SessionRow), row.Later row' → P x row' → P x row)
    (hy : Marked s'.db P y) : Marked s.db P y := by
  have hext := hout.extends h
  refine hy.congr (by cases hout <;> rfl) fun x row hrow hx => ?_
  cases hold : s.db.sessions x with
  | none =>
    exfalso
    cases hout with
    | touchSession n hfree =>
      simp only [AuthDb.touchSession, hold, Option.map_none, ite_self] at hrow
      cases hrow
    | _ => cases hold.symm.trans hrow
  | some row₀ =>
    obtain ⟨row', hrow', hlater⟩ := hext.session x row₀ hold
    obtain rfl := Option.some.inj (hrow.symm.trans hrow')
    exact ⟨row₀, rfl, hP x row₀ row hlater hx⟩

/-! ### Closed sessions -/

/-- The session neither authenticates a request nor is refreshed. -/
structure AuthDb.Closed (env : AuthEnv) (db : AuthDb) (y : ℕ) : Prop where
  authenticate : ∀ claims now session, claims.jti = y →
    authenticateRequest env db claims now ≠ .ok session
  refresh : ∀ t row session now, db.refreshTokens t = some row → row.sessionId = y →
    db.sessions y = some session → ∃ error, refreshSession env db row session now = .rejects error

lemma closed_of_revoked (h : db.Revoked y) (hsucc : ∀ z, db.Succeeds y z → db.Revoked z) :
    db.Closed env y := by
  obtain ⟨row, hrow, hrevoked⟩ := h
  constructor
  · rintro claims now session rfl hok
    unfold authenticateRequest at hok
    split at hok
    · cases hok
    split_ifs at hok
    rw [hrow] at hok
    simp [hrevoked] at hok
  · intro t token session now ht hy hsession
    obtain rfl := Option.some.inj (hrow.symm.trans hsession)
    unfold refreshSession
    split
    · unfold handleGraceRefresh
      split
      · cases hnew : token.newSessionId with
        | none => exact ⟨_, rfl⟩
        | some z =>
          obtain ⟨rowz, hz, hdead⟩ := hsucc z ⟨t, token, ht, hy, hnew⟩
          have hlive : ¬ (rowz.revokedAt.isNone = true ∧ now < rowz.expiresAt) := fun hlive => by
            rw [Option.isNone_iff_eq_none.1 hlive.1] at hdead
            cases hdead
          simp only [Option.bind_some, hz, Option.map_some, if_neg hlive]
          exact ⟨_, rfl⟩
      · exact ⟨_, rfl⟩
    · exact ⟨_, rfl⟩

end Auth
