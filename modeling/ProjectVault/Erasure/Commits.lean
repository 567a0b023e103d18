import ProjectVault.Erasure.Statements

/-!
Commits, and requests of one step.
-/

namespace Erasure

open Auth

variable {env : AuthEnv} {s s' : State} {i : ℕ}

/-! ### The commit of an execution -/

lemma endTx_locks (s : State) (i : ℕ) (row : Row) :
    (s.endTx i).locks row = if s.locks row = some i then none else s.locks row := rfl

lemma endTx_locks_of_mine {row : Row} (h : s.locks row = some i) :
    (s.endTx i).locks row = none := by
  rw [endTx_locks, if_pos h]

/-- An identity token is renamed by a pseudonym, or stays. -/
lemma pseudonymize_cases (w : Writes) (n : ℕ) (row : IdentityToken) :
    (∃ p ∈ w.aliases, p.tokenId = n ∧ (w.pseudonymize n row).displayName = p.displayName ∧
      (w.pseudonymize n row).pseudonymizedAt.isSome = true) ∨ w.pseudonymize n row = row := by
  unfold Writes.pseudonymize
  split
  · rename_i p hp
    refine .inl ⟨p, List.mem_of_find?_eq_some hp, ?_, rfl, rfl⟩
    simpa using List.find?_some hp
  · exact .inr rfl

lemma pseudonymize_userId (w : Writes) (n : ℕ) (row : IdentityToken) :
    (w.pseudonymize n row).userId = row.userId := by
  unfold Writes.pseudonymize
  split <;> rfl

lemma isSome_pseudonymize {w : Writes} {n : ℕ} {p : Pseudonym} (hp : p ∈ w.aliases)
    (hid : p.tokenId = n) (row : IdentityToken) :
    (w.pseudonymize n row).pseudonymizedAt.isSome = true := by
  unfold Writes.pseudonymize
  split
  · rfl
  · rename_i hnone
    exact absurd (by simpa using hid) (List.find?_eq_none.1 hnone p hp)

section Commit

variable {e : Erasing} {completedAt : ℤ} {u count : ℕ}

lemma ErasingOk.change (h : ErasingOk s i (.returned (.completed u completedAt count)) e) :
    Change (s.endTx i) (e.writes.apply e.requestId e.userId s.db) s.seq where
  __ := Change.refl (s.endTx i)
  auth := authMove_revokeSessions fun n hn => endTx_locks_of_mine (h.revoked_held n hn)
  sessionMeta n _ := by
    simp only [Writes.apply]
    split
    · exact .inr rfl
    · exact .inl rfl
  credentials kind n v hn := by
    simp only [Writes.apply] at hn
    split_ifs at hn
    exact .inl hn
  identityTokens n row _ hn := by
    obtain ⟨row₀, hrow₀, rfl⟩ := Option.map_eq_some_iff.1 hn
    refine ⟨row₀, hrow₀, fun hsome => ?_⟩
    rcases pseudonymize_cases e.writes n row₀ with ⟨p, -, -, -, hnew⟩ | hsame
    · exact hnew
    · rw [hsame, hsome]
  requests n r hn hkept := by
    obtain ⟨hlock, r₀, hr₀, hpending⟩ := h.facts .claimed (show 2 ≤ 11 by omega)
    have hne : n ≠ e.requestId := by
      rintro rfl
      rcases hkept with hcompleted | hlocked
      · obtain rfl := Option.some.inj (hn.symm.trans hr₀)
        rw [hpending] at hcompleted
        cases hcompleted
      · exact hlocked (endTx_locks_of_mine hlock)
    have hn' : s.db.requests n = some r := hn
    simp [Writes.apply, hn', hne]

lemma Numbered.apply {db : Tables} {seq : ℕ} (h : Numbered db seq) (w : Writes)
    {requestId userId : ℕ} (hlt : userId < seq) : Numbered (w.apply requestId userId db) seq where
  auth := h.auth.revokeSessions
  users n hn := by
    have hne : n ≠ userId := by omega
    simp [Writes.apply, hne, h.users n hn]
  identityTokens n hn := by simp [Writes.apply, h.identityTokens n hn]
  credentials kind n hn := by simp [Writes.apply, h.credentials kind n hn]
  requests n hn := by simp [Writes.apply, h.requests n hn]
  owner n row hn := by
    obtain ⟨row₀, hrow₀, rfl⟩ := Option.map_eq_some_iff.1 hn
    rw [pseudonymize_userId]
    exact h.owner n row₀ hrow₀
  requester n r hn := by
    obtain ⟨r₀, hr₀, rfl⟩ := Option.map_eq_some_iff.1 hn
    have hold := h.requester n r₀ hr₀
    split <;> exact hold

/-- The names an execution commits are borne once. -/
lemma Names.apply {stage : Stage} (h : Names s) (htx : s.txs i = some (.erasing stage e)) :
    Names ((s.endTx i).setDb (e.writes.apply e.requestId e.userId s.db) s.seq) := by
  -- the row of a name committed is the token the pseudonym names
  have hrow : ∀ p : Pseudonym, (∃ j stage' e', s.txs j = some (.erasing stage' e') ∧
      p ∈ e'.writes.aliases) → ∀ n row, (s.db.identityTokens n).map (e.writes.pseudonymize n) =
        some row → row.displayName = p.displayName → n = p.tokenId := by
    rintro p ⟨j, stage', e', hj, hp⟩ n row hn hname
    obtain ⟨row₀, hrow₀, rfl⟩ := Option.map_eq_some_iff.1 hn
    rcases pseudonymize_cases e.writes n row₀ with ⟨q, hq, rfl, hq', -⟩ | hsame
    · exact h.apart i j _ _ _ _ htx hj q hq p hp (hq'.symm.trans hname)
    · rw [hsame] at hname
      exact (h.drawn j stage' e' hj p hp).2 n row₀ hrow₀ hname
  refine ⟨fun n row hn hnone => ?_, fun n row hn hsome => ?_, fun j stage' e' hj p hp => ?_,
    fun j k _ _ _ _ hj hk => h.apart j k _ _ _ _ (txs_of_endTx hj) (txs_of_endTx hk)⟩
  · obtain ⟨row₀, hrow₀, rfl⟩ := Option.map_eq_some_iff.1 hn
    rcases pseudonymize_cases e.writes n row₀ with ⟨p, -, -, -, hnew⟩ | hsame
    · rw [hnone] at hnew
      cases hnew
    · rw [hsame] at hnone ⊢
      exact h.address n row₀ hrow₀ hnone
  · obtain ⟨row₀, hrow₀, rfl⟩ := Option.map_eq_some_iff.1 hn
    rcases pseudonymize_cases e.writes n row₀ with ⟨p, hp, rfl, hname, -⟩ | hsame
    · rw [hname]
      exact ⟨(h.drawn i stage e htx p hp).1, hrow p ⟨i, stage, e, htx, hp⟩⟩
    · rw [hsame] at hsome ⊢
      obtain ⟨hdraw, hunique⟩ := h.pseudonym n row₀ hrow₀ hsome
      refine ⟨hdraw, fun m row' hm hname => ?_⟩
      obtain ⟨row₁, hrow₁, rfl⟩ := Option.map_eq_some_iff.1 hm
      rcases pseudonymize_cases e.writes m row₁ with ⟨q, hq, rfl, hq', -⟩ | hsame'
      · exact ((h.drawn i stage e htx q hq).2 n row₀ hrow₀ (hname.symm.trans hq')).symm
      · rw [hsame'] at hname
        exact hunique m row₁ hrow₁ hname
  · have hj' := txs_of_endTx hj
    exact ⟨(h.drawn j stage' e' hj' p hp).1, hrow p ⟨j, stage', e', hj', hp⟩⟩

/-- **What a completed execution leaves** when the user is over elsewhere. -/
lemma erasedOk_commit {before : Tables} (h : Inv s) {s' : State}
    (hok : ErasingOk s i (.returned (.completed u completedAt count)) e) (hover : OverElsewhere s e)
    (hdb : s'.db = e.writes.apply e.requestId e.userId s.db) (hseq : s'.seq = s.seq)
    (hnow : s'.now = s.now) (hbefore : before = s.db) :
    ErasedOk s' ⟨e.requestId, e.orgId, .completed u completedAt count, before, s'.db⟩ u := by
  subst hbefore
  obtain ⟨rfl, hstatus⟩ := hok.completed u completedAt count rfl
  have hfact : ∀ fact : Fact, fact.Holds s i e := fun fact =>
    hok.facts fact (fact.rank_le.trans (show 10 ≤ 11 by omega))
  have hrevoked : ∀ n row, s.db.auth.sessions n = some row → row.userId = e.userId →
      s'.db.auth.Revoked n := by
    intro n row hrow hu
    rw [hdb]
    obtain ⟨row', hrow', hlater⟩ :=
      (AuthDb.extends_revokeSessions e.writes.revoked e.writes.revokedAt).session n row hrow
    refine ⟨row', hrow', ?_⟩
    by_cases ho : row.orgId = e.orgId
    · rcases hfact .revoked n row hrow hu ho with hold | hmem
      · exact hlater.revoked hold
      · rw [AuthDb.revokeSessions_sessions, if_pos hmem, hrow] at hrow'
        exact Option.some.inj hrow' ▸ rfl
    · exact hlater.revoked (hover.sessions n row hrow hu ho).1
  refine ⟨?_, ?_, ?_, ?_, ?_, ?_, ?_, ?_, ?_, ?_⟩
  · rw [hseq]
    exact hok.user_lt
  · obtain ⟨-, r, hr, -⟩ := hfact .claimed
    refine ⟨_, by simp only [hdb, Writes.apply, hr, Option.map_some, if_true]; rfl, ?_⟩
    rw [hstatus]
    rfl
  · rw [hdb]
    exact hfact .counted
  · intro kind n hn
    simp only [hdb, Writes.apply] at hn
    split_ifs at hn with hnot
    exact hnot (hfact (.deleted kind) n hn)
  · rintro n ⟨row, hrow, -⟩
    rw [hseq]
    exact lt_of_eq_some h.numbered.auth.sessions hrow
  · rintro n ⟨row, hrow, hu⟩
    exact hrevoked n row hrow hu
  · rintro n ⟨row, hrow, hu⟩
    simp only [hdb, Writes.apply]
    split
    · rfl
    · rename_i hnot
      by_cases ho : row.orgId = e.orgId
      · exact absurd (hfact .scrubbed n row hrow hu ho) hnot
      · exact (hover.sessions n row hrow hu ho).2
  · rintro n m ⟨row, hrow, hu⟩ hnm
    rw [hdb] at hnm
    obtain ⟨row₁, row₂, hn, hm, hsame⟩ := h.numbered.auth.edge n m (revokeSessions_succeeds hnm)
    obtain rfl := Option.some.inj (hrow.symm.trans hn)
    exact ⟨row₂, hm, hsame.trans hu⟩
  · intro row hrow
    rw [hdb] at hrow
    obtain ⟨row₀, hrow₀, rfl⟩ := Option.map_eq_some_iff.1 hrow
    rcases hfact .renamed row₀ hrow₀ with hsome | ⟨p, hp, hid⟩
    · rcases pseudonymize_cases e.writes e.userId row₀ with ⟨p, -, -, -, hnew⟩ | hsame
      · exact hnew
      · rw [hsame, hsome]
    · exact isSome_pseudonymize hp hid row₀
  · intro n row hn hu
    rw [hdb, hnow]
    exact ⟨row, hn, hover.userSessions n row hn hu⟩

/-- An execution that erases nobody has written nothing. -/
lemma rank_returned {outcome : Outcome}
    (h : ∀ v completedAt count, outcome ≠ .completed v completedAt count) :
    (Stage.returned outcome).rank = 0 := by
  cases outcome with
  | completed v completedAt count => exact absurd rfl (h v completedAt count)
  | _ => rfl

lemma commit_erasing {outcome : Outcome} (h : Inv s)
    (htx : s.txs i = some (.erasing (.returned outcome) e))
    (hover : ∀ v completedAt count, outcome = .completed v completedAt count → OverElsewhere s e) :
    Inv { (s.endTx i).setDb (e.writes.apply e.requestId e.userId s.db) s.seq with
      log := ⟨e.requestId, e.orgId, outcome, s.db, e.writes.apply e.requestId e.userId s.db⟩ ::
        s.log } := by
  have hok : ErasingOk s i (.returned outcome) e := h.txs i _ htx
  by_cases hcompleted : ∃ v completedAt count, outcome = .completed v completedAt count
  · obtain ⟨v, completedAt, count, rfl⟩ := hcompleted
    have hinv : Inv ((s.endTx i).setDb (e.writes.apply e.requestId e.userId s.db) s.seq) :=
      h.endTx.change hok.change (h.numbered.apply e.writes hok.user_lt) (h.names.apply htx) le_rfl
        rfl rfl rfl rfl
    refine hinv.addEntry _ ?_ ?_ ?_
    · rintro w ⟨completedAt', count', heq⟩
      cases heq
      exact erasedOk_commit h hok (hover _ _ _ rfl) rfl rfl rfl rfl
    · exact fun hnone => absurd ⟨completedAt, count, rfl⟩ (hnone v)
    · -- a request that is completed is not claimed
      rintro earlier hearlier w w' - hw' heq
      obtain ⟨r, hr, hstatus⟩ := (h.erased earlier hearlier w' hw').request
      obtain ⟨-, r', hr', hpending⟩ := hok.facts .claimed (show 2 ≤ 11 by omega)
      rw [← heq] at hr
      obtain rfl := Option.some.inj (hr.symm.trans hr')
      rw [hpending] at hstatus
      cases hstatus
  · have hrank := rank_returned fun v completedAt count heq =>
      hcompleted ⟨v, completedAt, count, heq⟩
    have hwrites := hok.unwritten (by omega)
    rw [hwrites, Writes.apply_none]
    refine h.endTx.addEntry _ ?_ (fun _ => rfl) ?_
    · rintro w ⟨completedAt, count, heq⟩
      exact absurd ⟨w, completedAt, count, heq⟩ hcompleted
    · rintro earlier - w w' ⟨completedAt, count, heq⟩
      exact absurd ⟨w, completedAt, count, heq⟩ hcompleted

end Commit

/-! ### Other commits -/

/-- An insert commits while no execution holds the row of the user. -/
lemma endTx_user_free {u : ℕ} (h : Inv s) (hshare : (u, i) ∈ s.keyShares) :
    (s.endTx i).locks (.user u) = none := by
  rw [endTx_locks, h.shares u i hshare, if_neg nofun]

lemma Numbered.mono {db : Tables} {seq seq' : ℕ} (h : Numbered db seq) (hseq : seq ≤ seq') :
    Numbered db seq' where
  auth := h.auth.mono hseq
  users n hn := h.users n (hseq.trans hn)
  identityTokens n hn := h.identityTokens n (hseq.trans hn)
  credentials kind n hn := h.credentials kind n (hseq.trans hn)
  requests n hn := h.requests n (hseq.trans hn)
  owner := h.owner
  requester _ _ hr := (h.requester _ _ hr).trans_le hseq

lemma Names.setDb (h : Names s) {db : Tables} {seq : ℕ}
    (hdb : db.identityTokens = s.db.identityTokens) : Names (s.setDb db seq) :=
  h.keep hdb fun _ stage e hj => .inr ⟨stage, e, hj, rfl⟩

/-- Tables of other columns change with sign-in. -/
lemma Change.withMeta {db : AuthDb} {seq : ℕ} {requestMeta : RequestMeta}
    (h : AuthMove s.locks s.db.auth db) (hseq : s.seq ≤ seq) :
    Change s { s.db with
      auth := db
      sessionMeta := Function.update s.db.sessionMeta s.seq requestMeta } seq where
  __ := Change.refl s
  seq_le := hseq
  auth := h
  sessionMeta _ hn := .inl (Function.update_of_ne hn.ne ..)

lemma commitInsert_inv {u seq : ℕ} {ins : Insert} {db : Tables} (h : Inv s)
    (hsound : Sound s (.commit i)) (htx : s.txs i = some (.inserting u ins))
    (hcommit : commitInsert env s u ins = some (db, seq)) : Inv ((s.endTx i).setDb db seq) := by
  obtain ⟨hjoin, hcredentials, -⟩ := hsound
  obtain ⟨hshare, hlt, hok⟩ : TxOk s i (.inserting u ins) := h.txs i _ htx
  have hfree := endTx_user_free h hshare
  have hinv : Inv (s.endTx i) := h.endTx
  cases ins with
  | membership orgId =>
    simp only [commitInsert] at hcommit
    split at hcommit
    · cases hcommit
      exact hinv
    cases hcommit
    refine hinv.change { Change.refl (s.endTx i) with memberships := fun m hm => ?_ }
      ⟨h.numbered.auth, h.numbered.users, h.numbered.identityTokens, h.numbered.credentials,
        h.numbered.requests, h.numbered.owner, h.numbered.requester⟩
      (hinv.names.setDb rfl) le_rfl rfl rfl rfl rfl
    rcases List.mem_cons.1 hm with rfl | hold
    · exact .inr fun j stage e hj => hjoin u orgId htx j stage e (txs_of_endTx hj)
    · exact .inl ⟨m, hold, rfl, rfl⟩
  | session row requestMeta signedOut userSession =>
    cases hcommit
    obtain ⟨huser, hlocked⟩ := hok
    have hnumbered : AuthNumbered (s.db.auth.revokeSessions signedOut s.now) s.seq :=
      h.numbered.auth.revokeSessions
    have hmove : AuthMove (s.endTx i).locks s.db.auth ((s.db.auth.revokeSessions signedOut
        s.now).createLoginSession env row userSession s.seq (s.seq + 1)) := by
      refine (authMove_revokeSessions fun n hn => endTx_locks_of_mine (hlocked n hn)).trans
        (authMove_createLoginSession (hnumbered.sessions _ le_rfl)
          (hnumbered.refreshTokens _ (by omega)) ?_)
      rw [huser]
      exact hfree
    have hmono := h.numbered.mono (Nat.le_add_right s.seq 2)
    refine hinv.change (.withMeta hmove (Nat.le_add_right _ 2)) ?_ (hinv.names.setDb rfl) le_rfl
      rfl rfl rfl rfl
    exact ⟨hnumbered.createLoginSession, hmono.users, hmono.identityTokens, hmono.credentials,
      hmono.requests, hmono.owner, hmono.requester⟩
  | userSession =>
    cases hcommit
    have hnew := h.numbered.auth.userSessions s.seq le_rfl
    have htoken := h.numbered.auth.userRefreshTokens (s.seq + 1) (by omega)
    refine hinv.setAuth (.of_same (AuthDb.extends_issueUserSession hnew htoken) rfl rfl) ?_
      (Nat.le_add_right _ 2)
    refine h.numbered.auth.of_same (Nat.le_add_right _ 2) rfl rfl (fun n hn => ?_) fun n hn => ?_
    · have hne : n ≠ s.seq := by omega
      simp [AuthDb.issueUserSession, hne, h.numbered.auth.userSessions n (by omega)]
    · have hne : n ≠ s.seq + 1 := by omega
      simp [AuthDb.issueUserSession, hne, h.numbered.auth.userRefreshTokens n (by omega)]
  | credentials kind count =>
    cases hcommit
    have hmono := h.numbered.mono (Nat.le_add_right s.seq count)
    refine hinv.change { Change.refl (s.endTx i) with
        seq_le := Nat.le_add_right _ count, credentials := fun kind' n v hn => ?_ }
      ⟨hmono.auth, hmono.users, hmono.identityTokens, fun kind' n hn => ?_, hmono.requests,
        hmono.owner, hmono.requester⟩ (hinv.names.setDb rfl) le_rfl rfl rfl rfl rfl
    · by_cases hkind : kind' = kind
      · subst hkind
        simp only [State.setDb, Function.update_self] at hn
        split at hn
        · cases hn
          exact .inr ⟨hfree, hcredentials u kind' count htx⟩
        · exact .inl hn
      · simp only [State.setDb, Function.update_of_ne hkind] at hn
        exact .inl hn
    · have hn' : s.seq + count ≤ n := hn
      by_cases hkind : kind' = kind
      · subst hkind
        have hout : ¬(s.seq ≤ n ∧ n < s.seq + count) := by omega
        simp only [State.setDb, Function.update_self, if_neg hout]
        exact h.numbered.credentials kind' n (by omega)
      · simp only [State.setDb, Function.update_of_ne hkind]
        exact h.numbered.credentials kind' n (by omega)
  | request orgId =>
    simp only [commitInsert] at hcommit
    split_ifs at hcommit
    cases hcommit
    have hmono := h.numbered.mono (Nat.le_add_right s.seq 1)
    refine hinv.change { Change.refl (s.endTx i) with
        seq_le := Nat.le_add_right _ 1, requests := fun n r hn hkept => ?_ }
      ⟨hmono.auth, hmono.users, hmono.identityTokens, hmono.credentials, fun n hn => ?_,
        hmono.owner, fun n r hn => ?_⟩ (hinv.names.setDb rfl) le_rfl rfl rfl rfl rfl
    · have hne : n ≠ s.seq := by
        rintro rfl
        cases (h.numbered.requests _ le_rfl).symm.trans hn
      exact (Function.update_of_ne hne ..).trans hn
    · have hne : n ≠ s.seq := by
        have := hn
        simp only [State.setDb] at this
        omega
      exact (Function.update_of_ne hne ..).trans (hmono.requests n hn)
    · by_cases hne : n = s.seq
      · subst hne
        simp only [State.setDb, Function.update_self] at hn
        cases hn
        exact hlt.trans_le (Nat.le_add_right _ 1)
      · simp only [State.setDb, Function.update_of_ne hne] at hn
        exact hmono.requester n r hn

lemma commit_inv (h : Inv s) (hsound : Sound s (.commit i)) (hstep : commit env s i = some s') :
    Inv s' := by
  unfold commit at hstep
  split at hstep
  · rename_i outcome e htx
    cases hstep
    refine commit_erasing h htx fun v completedAt count heq => ?_
    subst heq
    exact hsound.2.2 v completedAt count e htx
  · rename_i u ins htx
    obtain ⟨⟨db, seq⟩, hcommit, rfl⟩ := Option.map_eq_some_iff.1 hstep
    exact commitInsert_inv h hsound htx hcommit
  · rename_i token row session requestMeta rotatedAt htx
    cases hstep
    obtain ⟨hrotating, hshare⟩ : TxOk s i (.rotated token row session requestMeta rotatedAt) :=
      h.txs i _ htx
    obtain ⟨r, hr, hsame⟩ := hrotating.token
    have hinv : Inv (s.endTx i) := h.endTx
    have hmono := h.numbered.mono (Nat.le_add_right s.seq 2)
    have hmove : AuthMove (s.endTx i).locks s.db.auth (s.db.auth.rotateRefreshToken env token row
        session s.seq (s.seq + 1) rotatedAt) :=
      authMove_rotateRefreshToken (h.numbered.auth.sessions _ le_rfl)
        (h.numbered.auth.refreshTokens _ (by omega)) hrotating.current hrotating.live hr hsame
        (endTx_locks_of_mine hrotating.locked) (endTx_user_free h hshare)
    refine hinv.change (.withMeta hmove (Nat.le_add_right _ 2)) ?_ (hinv.names.setDb rfl) le_rfl
      rfl rfl rfl rfl
    exact ⟨h.numbered.auth.rotateRefreshToken hrotating.current hr hsame, hmono.users,
      hmono.identityTokens, hmono.credentials, hmono.requests, hmono.owner, hmono.requester⟩
  · cases hstep

/-! ### Requests of one step -/

lemma register_inv {email passwordHash : String} {orgId : ℕ} (h : Inv s)
    (hstep : register s email passwordHash orgId = some s') : Inv s' := by
  unfold register at hstep
  split at hstep
  swap
  · cases hstep
  rename_i hat
  cases hstep
  have hmono := h.numbered.mono (Nat.le_add_right s.seq 1)
  have hfresh := h.numbered.identityTokens s.seq le_rfl
  -- a row is the new one or an old one
  have hcases : ∀ n row, Function.update s.db.identityTokens s.seq (some ⟨s.seq, email, none⟩) n =
      some row → n = s.seq ∧ row = ⟨s.seq, email, none⟩ ∨ s.db.identityTokens n = some row := by
    intro n row hn
    by_cases hne : n = s.seq
    · rw [hne, Function.update_self] at hn
      exact .inl ⟨hne, (Option.some.inj hn).symm⟩
    · rw [Function.update_of_ne hne] at hn
      exact .inr hn
  -- no pseudonym is the address
  have haddress : ∀ draw, generatePseudonymAlias draw ≠ email := by
    rintro draw rfl
    exact at_notMem_alias draw hat
  refine h.change { Change.refl s with
      seq_le := Nat.le_add_right _ 1, memberships := fun m hm => ?_,
      identityTokens := fun n row hlt hn => ?_ }
    ⟨hmono.auth, fun n hn => ?_, fun n hn => ?_, hmono.credentials, hmono.requests,
      fun n row hn => ?_, hmono.requester⟩
    ⟨fun n row hn hnone => ?_, fun n row hn hsome => ?_, fun j stage e hj p hp => ?_, h.names.apart⟩
    le_rfl rfl rfl rfl rfl
  · rcases List.mem_cons.1 hm with rfl | hold
    · refine .inr fun j stage e hj huser _ => absurd (h.txs j _ hj).user_lt ?_
      rw [huser]
      exact Nat.lt_irrefl _
    · exact .inl ⟨m, hold, rfl, rfl⟩
  · rcases hcases n row hn with ⟨rfl, -⟩ | hold
    · exact absurd hlt (Nat.lt_irrefl _)
    · exact ⟨row, hold, id⟩
  · have hn' : s.seq + 1 ≤ n := hn
    exact (Function.update_of_ne (by omega) ..).trans (hmono.users n hn)
  · have hn' : s.seq + 1 ≤ n := hn
    exact (Function.update_of_ne (by omega) ..).trans (hmono.identityTokens n hn)
  · rcases hcases n row hn with ⟨rfl, rfl⟩ | hold
    · rfl
    · exact hmono.owner n row hold
  · rcases hcases n row hn with ⟨rfl, rfl⟩ | hold
    · exact hat
    · exact h.names.address n row hold hnone
  · rcases hcases n row hn with ⟨rfl, rfl⟩ | hold
    · cases hsome
    obtain ⟨⟨draw, hdraw⟩, hunique⟩ := h.names.pseudonym n row hold hsome
    refine ⟨⟨draw, hdraw⟩, fun m row' hm hname => ?_⟩
    rcases hcases m row' hm with ⟨rfl, rfl⟩ | hold'
    · exact absurd (hdraw.symm.trans hname.symm) (haddress draw)
    · exact hunique m row' hold' hname
  · obtain ⟨⟨draw, hdraw⟩, hunique⟩ := h.names.drawn j stage e hj p hp
    refine ⟨⟨draw, hdraw⟩, fun n row hn hname => ?_⟩
    rcases hcases n row hn with ⟨rfl, rfl⟩ | hold
    · exact absurd (hdraw.symm.trans hname.symm) (haddress draw)
    · exact hunique n row hold hname

lemma pseudonymizeUser_inv {u : ℕ} {draw : AliasDraw} (h : Inv s)
    (hsound : Sound s (.pseudonymizeUser u draw))
    (hstep : pseudonymizeUser s u (generatePseudonymAlias draw) = some s') : Inv s' := by
  simp only [pseudonymizeUser] at hstep
  split at hstep
  · cases hstep
    exact h
  rename_i hnew
  split at hstep
  swap
  · cases hstep
  cases hstep
  -- the identity token of the user is renamed, and no other
  have hcases : ∀ n row, ((s.db.identityTokens n).map fun row => if row.userId = u then
      { row with displayName := generatePseudonymAlias draw, pseudonymizedAt := some s.now }
      else row) = some row → ∃ row₀, s.db.identityTokens n = some row₀ ∧ row.userId = row₀.userId ∧
      (row = row₀ ∨ n = u ∧ row.displayName = generatePseudonymAlias draw ∧
        row.pseudonymizedAt.isSome = true ∧ Unborne s u (generatePseudonymAlias draw)) := by
    intro n row hn
    obtain ⟨row₀, hrow₀, rfl⟩ := Option.map_eq_some_iff.1 hn
    refine ⟨row₀, hrow₀, ?_⟩
    by_cases huser : row₀.userId = u
    · obtain rfl : n = u := (h.numbered.owner n row₀ hrow₀).symm.trans huser
      rw [if_pos huser]
      refine ⟨rfl, .inr ⟨rfl, rfl, rfl, hsound row₀ hrow₀ ?_⟩⟩
      by_contra hsome
      have hlt := lt_of_eq_some h.numbered.identityTokens hrow₀
      exact hnew (List.any_eq_true.2 ⟨(n, row₀), mem_identityTokensOf.2 ⟨hlt, hrow₀, huser⟩,
        Option.isSome_iff_ne_none.2 hsome⟩)
    · rw [if_neg huser]
      exact ⟨rfl, .inl rfl⟩
  refine h.change { Change.refl s with identityTokens := fun n row _ hn => ?_ }
    ⟨h.numbered.auth, h.numbered.users, fun n hn => ?_, h.numbered.credentials, h.numbered.requests,
      fun n row hn => ?_, h.numbered.requester⟩
    ⟨fun n row hn hnone => ?_, fun n row hn hsome => ?_, fun j stage e hj p hp => ?_, h.names.apart⟩
    le_rfl rfl rfl rfl rfl
  · obtain ⟨row₀, hrow₀, -, rfl | ⟨-, -, hsome, -⟩⟩ := hcases n row hn
    · exact ⟨row, hrow₀, id⟩
    · exact ⟨row₀, hrow₀, fun _ => hsome⟩
  · simp only [State.setDb, h.numbered.identityTokens n hn, Option.map_none]
  · obtain ⟨row₀, hrow₀, huser, -⟩ := hcases n row hn
    exact huser.trans (h.numbered.owner n row₀ hrow₀)
  · obtain ⟨row₀, hrow₀, -, rfl | ⟨-, -, hsome, -⟩⟩ := hcases n row hn
    · exact h.names.address n row hrow₀ hnone
    · rw [hnone] at hsome
      cases hsome
  · obtain ⟨row₀, hrow₀, -, rfl | ⟨rfl, hname, -, hborne⟩⟩ := hcases n row hn
    · obtain ⟨hdraw, hunique⟩ := h.names.pseudonym n row hrow₀ hsome
      refine ⟨hdraw, fun m row' hm hsame => ?_⟩
      obtain ⟨row₁, hrow₁, -, rfl | ⟨rfl, hname, -, hborne⟩⟩ := hcases m row' hm
      · exact hunique m row' hrow₁ hsame
      · exact (hborne.1 n row hrow₀ (hsame.symm.trans hname)).symm
    · refine ⟨⟨draw, hname⟩, fun m row' hm hsame => ?_⟩
      obtain ⟨row₁, hrow₁, -, rfl | ⟨rfl, -, -, -⟩⟩ := hcases m row' hm
      · exact hborne.1 m row' hrow₁ (hsame.trans hname)
      · rfl
  · obtain ⟨hdraw, hunique⟩ := h.names.drawn j stage e hj p hp
    refine ⟨hdraw, fun n row hn hsame => ?_⟩
    obtain ⟨row₀, hrow₀, -, rfl | ⟨rfl, hname, -, hborne⟩⟩ := hcases n row hn
    · exact hunique n row hrow₀ hsame
    · exact (hborne.2 j stage e hj p hp (hsame.symm.trans hname)).symm

/-- The memberships are old ones. -/
lemma memberships_inv {memberships : List OrgMembership} (h : Inv s)
    (hold : ∀ m ∈ memberships, ∃ m₀ ∈ s.db.memberships, m₀.userId = m.userId ∧ m₀.orgId = m.orgId) :
    Inv (s.setDb { s.db with memberships } s.seq) := by
  refine h.change { Change.refl s with memberships := fun m hm => .inl (hold m hm) }
    ⟨h.numbered.auth, h.numbered.users, h.numbered.identityTokens, h.numbered.credentials,
      h.numbered.requests, h.numbered.owner, h.numbered.requester⟩ (h.names.setDb rfl) le_rfl
    rfl rfl rfl rfl

lemma deleteCredentials_inv {kind : Credential} {ids : List ℕ} (h : Inv s) :
    Inv (s.setDb { s.db with
      credentials := Function.update s.db.credentials kind fun n =>
        if n ∈ ids then none else s.db.credentials kind n } s.seq) := by
  have hold : ∀ kind' n u, Function.update s.db.credentials kind (fun n =>
      if n ∈ ids then none else s.db.credentials kind n) kind' n = some u →
        s.db.credentials kind' n = some u := by
    intro kind' n u hn
    by_cases hkind : kind' = kind
    · subst hkind
      rw [Function.update_self] at hn
      split_ifs at hn
      exact hn
    · rwa [Function.update_of_ne hkind] at hn
  refine h.change { Change.refl s with credentials := fun kind' n u hn => .inl (hold kind' n u hn) }
    ⟨h.numbered.auth, h.numbered.users, h.numbered.identityTokens, fun kind' n hn => ?_,
      h.numbered.requests, h.numbered.owner, h.numbered.requester⟩ (h.names.setDb rfl) le_rfl
    rfl rfl rfl rfl
  refine Option.eq_none_iff_forall_ne_some.2 fun u hu => ?_
  exact nomatch (h.numbered.credentials kind' n hn).symm.trans (hold kind' n u hu)

/-- The user sessions change, and the organization sessions stay. -/
lemma userSessions_inv {auth : AuthDb} {seq : ℕ} (h : Inv s) (hext : s.db.auth.Extends auth)
    (hseq : s.seq ≤ seq) (hsessions : auth.sessions = s.db.auth.sessions)
    (hrefresh : auth.refreshTokens = s.db.auth.refreshTokens)
    (huser : ∀ n, seq ≤ n → auth.userSessions n = none)
    (htokens : ∀ n, seq ≤ n → auth.userRefreshTokens n = none) :
    Inv (s.setDb { s.db with auth } seq) :=
  h.setAuth (.of_same hext hsessions hrefresh)
    (h.numbered.auth.of_same hseq hsessions hrefresh huser htokens) hseq

lemma refreshUserSession_inv {token : ℕ} (h : Inv s)
    (hstep : step env s (.refreshUserSession token) = some s') : Inv s' := by
  simp only [step] at hstep
  split at hstep
  · cases hstep
    exact h
  rename_i row hrow
  split at hstep
  · cases hstep
    exact h
  rename_i session hsession
  split at hstep
  swap
  · cases hstep
    exact h
  cases hstep
  refine userSessions_inv h (AuthDb.extends_rotateUserRefresh
    (h.numbered.auth.userRefreshTokens _ le_rfl)) (Nat.le_add_right _ 1) rfl rfl (fun n hn => ?_)
    fun n hn => ?_
  · simp [AuthDb.rotateUserRefresh, h.numbered.auth.userSessions n (by omega)]
  · have hne : n ≠ s.seq := by omega
    simp [AuthDb.rotateUserRefresh, hne, h.numbered.auth.userRefreshTokens n (by omega)]

lemma verifyUserSession_inv {claims : UserAccessClaims} (h : Inv s)
    (hstep : step env s (.verifyUserSession claims) = some s') : Inv s' := by
  simp only [step] at hstep
  split at hstep
  · cases hstep
    refine userSessions_inv h (AuthDb.extends_touchUserSession ..) le_rfl rfl rfl (fun n hn => ?_)
      h.numbered.auth.userRefreshTokens
    simp [AuthDb.touchUserSession, h.numbered.auth.userSessions n hn]
  · cases hstep
    exact h

lemma revokeUserSession_inv {n : ℕ} (h : Inv s) :
    Inv (s.setDb { s.db with auth := s.db.auth.revokeUserSession n s.now } s.seq) := by
  refine userSessions_inv h (AuthDb.extends_revokeUserSession ..) le_rfl rfl rfl (fun m hm => ?_)
    fun m hm => ?_
  · simp [AuthDb.revokeUserSession, h.numbered.auth.userSessions m hm]
  · simp [AuthDb.revokeUserSession, h.numbered.auth.userRefreshTokens m hm]

lemma tick_inv {t : ℤ} (h : Inv s) (ht : s.now ≤ t) : Inv { s with now := t } :=
  h.change (.refl s) h.numbered (h.names.keep rfl fun _ stage e hj => .inr ⟨stage, e, hj, rfl⟩) ht
    rfl rfl rfl rfl

end Erasure
