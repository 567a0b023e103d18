import ProjectVault.Auth.RevokeAll

/-!
Account recovery and the credentials issued before it.
-/

namespace Auth

variable {env : AuthEnv} {s s' : AuthState} {i j n u x y : ℕ} {tx tx' : AuthTx}
  {e : AuthState.End} {before : AuthDb}

/-- The user and the organization of the session a transaction is about to commit. -/
def AuthTx.inserts : AuthTx → Option (ℕ × ℕ)
  | inserted l _ _ _ => some (l.userId, l.orgId)
  | rotated _ _ session _ _ => some (session.userId, session.orgId)
  | _ => none

/-- The memberships a recovery has read leave no unrevoked session of the user out; while it goes
through the organizations, sessions of the user are issued only in those it has still to come to; and
when it commits, the user sessions of the user are over. -/
def RecoversAll (s : AuthState) : AuthLabel → Prop
  | .runs i _ => ∀ u found, s.txs i = .recovering u [] found →
      s.select [] (fun row => row.userId == u && decide (row.orgId ∉ found)) = []
  | .finish i =>
    (∀ u pending, s.txs i = .revoking (.recovery u []) [] pending →
      ∀ n row, s.db.userSessions n = some row → row.userId = u → Barred s n) ∧
    ∀ u o, (s.txs i).inserts = some (u, o) → ∀ j orgs targets pending,
      s.txs j = .revoking (.recovery u orgs) targets pending → o ∈ orgs
  | _ => True

/-- The sessions of the user that existed before the commit. -/
def recoveredSessions (u : ℕ) (before : AuthDb) (x : ℕ) (row : SessionRow) : Prop :=
  (before.sessions x).isSome = true ∧ row.userId = u

lemma recoveredSessions_later (x : ℕ) (row row' : SessionRow) (h : row.Later row')
    (hx : recoveredSessions u before x row') : recoveredSessions u before x row :=
  ⟨hx.1, h.userId.symm.trans hx.2⟩

/-- Job of a call that has not read its targets. -/
def AuthTx.asks : AuthTx → Option Job
  | asking job => some job
  | enumerating job => some job
  | _ => none

structure RecoveryInv (s : AuthState) : Prop where
  chains : ChainInv s
  asked : ∀ i job, (s.txs i).asks = some job → ∀ u orgs, job ≠ .recovery u orgs
  covered : ∀ i u orgs targets pending, s.txs i = .revoking (.recovery u orgs) targets pending →
    ∀ x row, s.db.sessions x = some row → row.userId = u →
      row.orgId ∈ orgs ∨ Targeted s.db targets pending x
  before : ∀ u before, .recovered u before ∈ s.log → before.Extends s.db
  revoked : ∀ u before, .recovered u before ∈ s.log →
    ∀ y, Marked s.db (recoveredSessions u before) y → s.db.Revoked y
  barred : ∀ u before, .recovered u before ∈ s.log → ∀ n row, before.userSessions n = some row →
    row.userId = u → Barred s n
  quiet : s.log.Pairwise fun newer older => ∀ u before n row, older = .recovered u before →
    before.userSessions n = some row → row.userId = u → newer ≠ .accepted n

/-! ### Moves -/

lemma Moves.asks {job : Job} (hmove : Moves env s i tx tx') (h : tx'.asks = some job) :
    tx.asks = some job ∨ ∀ u orgs, job ≠ .recovery u orgs := by
  cases hmove with
  | enumerating job' hfree => exact .inl h
  | exchanging | login | revokesSessions | revokesUserInOrg | revokesOrg =>
    cases h
    exact .inr fun _ _ => nofun
  | _ => cases h

/-- The sessions of the user in the organization a recovery comes to are its next targets. -/
lemma targeted_of_org {orgId : ℕ} {pending : List ℕ} {row : SessionRow} (h : AuthInv s)
    (hrow : s.db.sessions x = some row) (hu : row.userId = u) (ho : row.orgId = orgId) :
    Targeted s.db (s.selectUserInOrg pending u orgId) pending x := by
  by_cases hrevoked : row.revokedAt.isSome = true
  · exact .revoked ⟨row, hrow, hrevoked⟩
  by_cases hpending : x ∈ pending
  · exact .pending hpending ⟨row, hrow⟩
  refine .target ⟨x, some u, some orgId⟩ (List.mem_map.2 ⟨x, ?_, rfl⟩) rfl
    ⟨row, hrow, by simp [Target.matches, hu, ho]⟩
  refine List.mem_filter.2 ⟨List.mem_range.2 (h.session_lt x row hrow), ?_⟩
  have hnone : row.revokedAt = none := by simpa using hrevoked
  simp [hrow, hpending, hnone, hu, ho]

/-- Memberships that leave no unrevoked session out. -/
lemma covered_of_select {found : List ℕ} {row : SessionRow} (h : AuthInv s)
    (hselect : s.select [] (fun row => row.userId == u && decide (row.orgId ∉ found)) = [])
    (hrow : s.db.sessions x = some row) (hu : row.userId = u) :
    row.orgId ∈ found ∨ Targeted s.db [] [] x := by
  by_cases hrevoked : row.revokedAt.isSome = true
  · exact .inr (.revoked ⟨row, hrow, hrevoked⟩)
  by_contra hout
  rw [not_or] at hout
  have hnone : row.revokedAt = none := by simpa using hrevoked
  have hmem : x ∈ s.select [] (fun row => row.userId == u && decide (row.orgId ∉ found)) := by
    refine List.mem_filter.2 ⟨List.mem_range.2 (h.session_lt x row hrow), ?_⟩
    simp [hrow, hnone, hu, hout.1]
  rw [hselect] at hmem
  cases hmem

lemma RecoveryInv.moves (h : RecoveryInv s) {a : AuthLabel} (hok : RecoversAll s a)
    (hstep : authStep env s a = some (s.put i tx')) (hmove : Moves env s i (s.txs i) tx')
    (ha : tx' = .idle ∨ (∃ request, s.call (s.txs i) request = some tx') ∨
      ∃ choice, a = .runs i choice) : RecoveryInv (s.put i tx') := by
  refine ⟨h.chains.moves hmove, ?_, ?_, h.before, h.revoked, ?_, h.quiet⟩
  · intro k job hk
    rw [put_txs] at hk
    split at hk
    · rcases hmove.asks hk with hold | hnew
      · exact h.asked i job hold
      · exact hnew
    · exact h.asked k job hk
  · intro k u orgs targets pending hk
    rw [put_txs] at hk
    split at hk
    · subst hk
      have hasked := h.asked i
      generalize htx : s.txs i = tx at hmove ha hasked
      cases hmove with
      | memberships u found =>
        rcases ha with ha | ⟨request, ha⟩ | ⟨choice, rfl⟩
        · cases ha
        · cases ha
        · exact fun x row hrow hu =>
          covered_of_select (s := s) h.chains.inv (hok u _ htx) hrow hu
      | nextOrg u orgId orgs pending =>
        intro x row hrow hu
        rcases h.covered i u _ _ _ htx x row hrow hu with horg | htargeted
        · rcases List.mem_cons.1 horg with horg | horg
          · exact .inr (targeted_of_org h.chains.inv hrow hu horg)
          · exact .inl horg
        · cases htargeted with
          | revoked hrevoked => exact .inr (.revoked hrevoked)
          | pending hpending hrow => exact .inr (.pending hpending hrow)
          | target target htarget => cases htarget
      | next job targets pending target hmem hfree =>
        intro x row hrow hu
        exact (h.covered i u _ _ _ htx x row hrow hu).imp_right fun ht => ht.next target
      | enumerated job choice => exact absurd rfl (hasked _ rfl u orgs)
    · exact h.covered k u orgs targets pending hk
  · intro u before hevent n row hrow hu
    exact ((h.barred u before hevent n row hrow hu).step h.chains.inv hstep).1

/-! ### Ends -/

lemma Finishes.recovered (hend : Finishes env s tx e) (h : .recovered u before ∈ e.events) :
    ∃ pending, tx = .revoking (.recovery u []) [] pending ∧ before = s.db ∧
      e.db = s.db.revokeSessions pending s.now := by
  cases hend with
  | recovery userId pending =>
    obtain ⟨rfl, rfl⟩ := AuthEvent.recovered.inj (List.mem_singleton.1 h)
    exact ⟨pending, rfl, rfl, rfl⟩
  | throwing token reused =>
    obtain ⟨m, -, heq⟩ := List.mem_map.1 h
    cases heq
  | inserted l m row pending =>
    obtain ⟨m, -, heq⟩ := List.mem_map.1 h
    cases heq
  | userRotated _ _ _ _ | touched _ _ _ | userThrown _ _ _ | userInOrg _ _ _ _ | org _ _ _ =>
    exact nomatch List.mem_singleton.1 h
  | verified _ _ | userRevoked _ _ _ | sessions _ _ | rotated _ _ _ _ _ => cases h

/-- A new session is of the user and the organization the transaction inserts for. -/
lemma AuthInv.inserts (h : AuthInv s) (hend : Finishes env s (s.txs i) e) {row : SessionRow}
    (hdraws : (s.txs i).draws = some n) (hrow : e.db.sessions n = some row) :
    (s.txs i).inserts = some (row.userId, row.orgId) := by
  generalize htx : s.txs i = tx at hend hdraws
  cases tx with
  | inserted l m row' pending =>
    obtain rfl := Option.some.inj hdraws
    obtain rfl := Option.some.inj (hrow.symm.trans hend.inserted_session.1)
    obtain ⟨huser, horg⟩ := h.login i l m row pending htx
    rw [AuthTx.inserts, huser, horg]
  | rotated token row' session m rotatedAt =>
    cases hdraws
    obtain rfl := Option.some.inj (hrow.symm.trans hend.rotated_sessions)
    rfl
  | _ => cases hdraws

lemma RecoveryInv.ended (h : RecoveryInv s) (hok : RecoversAll s (.finish i))
    (hstep : authStep env s (.finish i) = some (s.ended i e))
    (hend : Finishes env s (s.txs i) e) : RecoveryInv (s.ended i e) := by
  have hext := hend.extends h.chains.inv
  have hrotating : ∀ token row session, (s.txs i).rotation = some (token, row, session) →
      s.db.sessions row.sessionId ≠ none := fun token row session hr => by
    rw [(h.chains.inv.rotation i token row session hr).1]
    exact nofun
  have hbarred : ∀ n, Barred s n → Barred (s.ended i e) n ∧ .accepted n ∉ e.events := by
    intro n hn
    obtain ⟨hnext, events, hlog, hnot⟩ := hn.step h.chains.inv hstep
    exact ⟨hnext, List.append_cancel_right hlog ▸ hnot⟩
  refine ⟨h.chains.ended hend, ?_, ?_, ?_, ?_, ?_, ?_⟩
  · intro k job hk
    rw [ended_txs] at hk
    split at hk
    · exfalso
      generalize s.txs i = tx at hend
      cases hend <;> cases hk
    · exact h.asked k job hk
  · intro k u orgs targets pending hk x row hrow hu
    rw [ended_txs] at hk
    split at hk
    · exact absurd hk (hend.next_ne_revoking _ _ _)
    by_cases hdraws : (s.txs i).draws = some x
    · -- a session issued meanwhile is in an organization still to come to
      subst hu
      exact .inl (hok.2 _ _ (h.chains.inv.inserts hend hdraws hrow) k orgs targets pending hk)
    · cases hold : s.db.sessions x with
      | none => exact nomatch hrow.symm.trans (hend.sessions_none hold hdraws hrotating)
      | some row₀ =>
        obtain ⟨row', hrow', hlater⟩ := hext.session x row₀ hold
        obtain rfl := Option.some.inj (hrow.symm.trans hrow')
        rw [hlater.orgId]
        exact (h.covered k u orgs targets pending hk x row₀ hold
          (hlater.userId.symm.trans hu)).imp_right fun ht => ht.extends hext
  · intro u before hevent
    rcases List.mem_append.1 hevent with hevent | hevent
    · obtain ⟨pending, -, rfl, -⟩ := hend.recovered hevent
      exact hext
    · exact (h.before u before hevent).trans hext
  · intro u before hevent y hy
    rcases List.mem_append.1 hevent with hevent | hevent
    · obtain ⟨pending, htx, rfl, hdb⟩ := hend.recovered hevent
      -- the commit of the recovery itself
      have hold : Marked s.db (recoveredSessions u s.db) y := by
        rcases hy.ended h.chains hend recoveredSessions_later (fun n row' hdraws => by
          rw [htx] at hdraws
          exact nomatch hdraws) with hy | ⟨hdraws, -⟩
        · exact hy
        · rw [htx] at hdraws
          cases hdraws
      obtain ⟨row, hrow, hu⟩ := h.chains.marked_row (Q := fun row => row.userId = u)
        (fun _ _ hx => hx.2) (fun row row' huser _ hq => huser.trans hq) hold
      change e.db.Revoked y
      rw [hdb]
      rcases h.covered i u [] [] pending htx y row hrow hu with horg | htargeted
      · cases horg
      · exact htargeted.commit s.now
    · refine (h.revoked u before hevent y ?_).extends hext
      have hnew : ∀ n row', (s.txs i).draws = some n → e.db.sessions n = some row' →
          recoveredSessions u before n row' → ∃ token row session,
            (s.txs i).rotation = some (token, row, session) ∧
              Marked s.db (recoveredSessions u before) row.sessionId := by
        -- a number just drawn was not a session before the recovery
        intro n row' hdraws _ hn
        obtain ⟨row₀, hrow₀⟩ := Option.isSome_iff_exists.1 hn.1
        obtain ⟨row₁, hrow₁, -⟩ := (h.before u before hevent).session n row₀ hrow₀
        exact nomatch hrow₁.symm.trans (h.chains.inv.drawn i n hdraws).2.1
      rcases hy.ended h.chains hend recoveredSessions_later hnew with
        hy | ⟨-, token, row, session, hrotation, hm⟩
      · exact hy
      · obtain ⟨hsession, hlive, -⟩ := h.chains.inv.rotation i token row session hrotation
        obtain ⟨row', hrow', hsome⟩ := h.revoked u before hevent _ hm
        obtain rfl := Option.some.inj (hsession.symm.trans hrow')
        rw [hlive] at hsome
        cases hsome
  · intro u before hevent n row hrow hu
    rcases List.mem_append.1 hevent with hevent | hevent
    · obtain ⟨pending, htx, rfl, -⟩ := hend.recovered hevent
      exact (hbarred n (hok.1 u pending htx n row hrow hu)).1
    · exact (hbarred n (h.barred u before hevent n row hrow hu)).1
  · refine List.pairwise_append.2 ⟨pairwise_of_length_le_one hend.events_length, h.quiet, ?_⟩
    rintro event hevent _ holder u before n row rfl hrow hu rfl
    exact (hbarred n (h.barred u before holder n row hrow hu)).2 hevent

lemma RecoveryInv.outside (h : RecoveryInv s) {a : AuthLabel} (hstep : authStep env s a = some s')
    (hout : Outside env s s') : RecoveryInv s' := by
  have hext := hout.extends h.chains.inv
  refine ⟨h.chains.outside hout, ?_, ?_, ?_, ?_, ?_, ?_⟩
  · rw [hout.txs]
    exact h.asked
  · intro k u orgs targets pending hk x row hrow hu
    rw [hout.txs] at hk
    obtain ⟨row₀, hrow₀, hu₀, horg⟩ : ∃ row₀, s.db.sessions x = some row₀ ∧ row₀.userId = u ∧
        row₀.orgId = row.orgId := by
      cases hout with
      | touchSession m hfree =>
        simp only [AuthDb.touchSession] at hrow
        split at hrow
        · obtain ⟨row₀, hrow₀, rfl⟩ := Option.map_eq_some_iff.1 hrow
          exact ⟨row₀, hrow₀, hu, rfl⟩
        · exact ⟨row, hrow, hu, rfl⟩
      | _ => exact ⟨row, hrow, hu, rfl⟩
    rw [← horg]
    exact (h.covered k u orgs targets pending hk x row₀ hrow₀ hu₀).imp_right fun ht =>
      ht.extends hext
  · rw [hout.log]
    exact fun u before hevent => (h.before u before hevent).trans hext
  · rw [hout.log]
    exact fun u before hevent y hy => (h.revoked u before hevent y
      (hy.outside h.chains.inv hout recoveredSessions_later)).extends hext
  · rw [hout.log]
    exact fun u before hevent n row hrow hu =>
      ((h.barred u before hevent n row hrow hu).step h.chains.inv hstep).1
  · rw [hout.log]
    exact h.quiet

/-- **One step** of a run whose recoveries leave nothing out. -/
lemma RecoveryInv.step {a : AuthLabel} (h : RecoveryInv s) (hok : RecoversAll s a)
    (hstep : authStep env s a = some s') : RecoveryInv s' := by
  cases authStep_cases hstep with
  | moves i hmove ha => exact h.moves hok hstep hmove ha
  | finish i hend => exact h.ended hok hstep hend
  | outside hout => exact h.outside hstep hout

lemma recoveryInv_init : RecoveryInv (authSystem env).init where
  chains := chainInv_init
  asked _ _ h := nomatch h
  covered _ _ _ _ _ h := nomatch h
  before _ _ h := nomatch h
  revoked _ _ h := nomatch h
  barred _ _ h := nomatch h
  quiet := List.Pairwise.nil

/-! ### Runs -/

/-- Nothing issued to the user before the commit of a recovery authenticates a request or is
refreshed, and no request has succeeded since with a user session of the time before. -/
structure RecoveryKills (env : AuthEnv) (s : AuthState) : Prop where
  sessions : ∀ u before, .recovered u before ∈ s.log → ∀ x row, before.sessions x = some row →
    row.userId = u → ∀ y, Relation.ReflTransGen s.db.Succeeds x y → s.db.Closed env y
  userSessions : s.log.Pairwise fun newer older => ∀ u before n row, older = .recovered u before →
    before.userSessions n = some row → row.userId = u → newer ≠ .accepted n

/-- **Account recovery kills every earlier credential** where the recoveries leave nothing out. -/
theorem recovery_kills (h : (authSystem env).Reaches RecoversAll s) : RecoveryKills env s := by
  have hinv : RecoveryInv s := by
    refine Run.System.Reaches.invariant (P := RecoveryInv) recoveryInv_init
      (fun _ _ _ hinv hok hstep => hinv.step hok hstep) h
  refine ⟨fun u before hevent x row hrow hu y hchain => ?_, hinv.quiet⟩
  obtain ⟨row', hrow', hlater⟩ := (hinv.before u before hevent).session x row hrow
  have hy : Marked s.db (recoveredSessions u before) y :=
    ⟨x, row', hrow', ⟨by rw [hrow]; rfl, hlater.userId.trans hu⟩, hchain⟩
  exact closed_of_revoked (hinv.revoked u before hevent y hy)
    fun z hyz => hinv.revoked u before hevent z (hy.tail hyz)

/-- The memberships are complete, and nobody ends while a recovery goes through the organizations. -/
def RecoversAlone (s : AuthState) : AuthLabel → Prop
  | .runs i _ =>
    match s.txs i with
    | .recovering u [] found =>
      s.select [] (fun row => row.userId == u && decide (row.orgId ∉ found)) = []
    | _ => True
  | .finish _ => ∀ j ∈ s.slots, ∀ u orgs targets pending,
      s.txs j ≠ .revoking (.recovery u orgs) targets pending
  | _ => True

instance (s : AuthState) : (a : AuthLabel) → Decidable (RecoversAlone s a)
  | .runs i _ => decidable_of_iff
      ((match s.txs i with
        | .recovering u [] found =>
          decide (s.select [] (fun row => row.userId == u && decide (row.orgId ∉ found)) = [])
        | _ => true) = true) (by
        rw [RecoversAlone]
        split <;> simp)
  | .finish _ => decidable_of_iff (∀ j ∈ s.slots,
      (match s.txs j with | .revoking (.recovery _ _) _ _ => true | _ => false) = false) (by
        refine forall₂_congr fun j _ => ?_
        split
        · rename_i u orgs targets pending htx
          simp [htx]
        · rename_i hne
          simpa using fun u orgs targets pending htx => hne u orgs targets pending htx)
  | .tick _ | .issueUserSession _ | .setMember .. | .createOrganization _ | .touchSession _
  | .prune _ | .call .. | .rollback _ => .isTrue trivial

lemma recoversAll_of_alone (h : AuthInv s) {a : AuthLabel} (halone : RecoversAlone s a) :
    RecoversAll s a := by
  cases a with
  | runs i choice =>
    intro u found htx
    simpa only [RecoversAlone, htx] using halone
  | finish i =>
    have hnone : ∀ j u orgs targets pending,
        s.txs j ≠ .revoking (.recovery u orgs) targets pending := fun j u orgs targets pending hj =>
      halone j (h.opened j (by rw [hj]; exact nofun)) u orgs targets pending hj
    exact ⟨fun u pending htx => absurd htx (hnone i u _ _ _),
      fun u o _ j orgs targets pending hj => absurd hj (hnone j u _ _ _)⟩
  | _ => trivial

lemma reaches_recoversAll (h : (authSystem env).Reaches RecoversAlone s) :
    (authSystem env).Reaches RecoversAll s := by
  induction h with
  | refl => exact Relation.ReflTransGen.refl
  | tail hprefix hlast ih =>
    obtain ⟨a, halone, hstep⟩ := hlast
    exact ih.step (recoversAll_of_alone (authInv_of_reaches hprefix) halone) hstep

/-- User 7 signs in to organization 1 and on the command line, signs out there, and recovers the
account. -/
def recoveryRun : List AuthLabel :=
  [.createOrganization 1, .setMember 7 1 true, .issueUserSession 7, .call 0 (.login 7 1)] ++
    AuthLabel.runsFor 0 3 ++ [.finish 0, .call 1 (.revokeUserSessionById 0 7)] ++
    AuthLabel.runsFor 1 4 ++ [.finish 1, .call 1 (.completeAccountRecovery 7)] ++
    AuthLabel.runsFor 1 3 ++ [.runs 1 [8]]

/-- The recovery of an account whose user session has been signed out. -/
theorem recovery_kills_signedOut :
    ∃ s before, (authSystem .default).Reaches RecoversAll s ∧ .recovered 7 before ∈ s.log ∧
      RecoveryKills .default s := by
  obtain ⟨s, hexec, htx, hdead, hone, hunused⟩ :=
    Run.System.exists_of_exec (authSystem .default) RecoversAlone (authSystem .default).init
      recoveryRun
      (fun s => s.txs 1 = .revoking (.recovery 7 []) [] [8] ∧
        (s.db.userSessions 0).any (·.revokedAt.isSome) = true ∧
        (∀ n ∈ List.range s.seq, (s.db.userSessions n).isSome = true → n = 0) ∧
        ∀ j ∈ s.slots, (s.txs j).uses 0 = false) (by decide +kernel)
  have hreach := reaches_recoversAll (Run.System.steps_of_exec hexec)
  have hinv := authInv_of_reaches hreach
  have hbarred : ∀ n row, s.db.userSessions n = some row → Barred s n := by
    intro n row hrow
    obtain rfl := hone n (List.mem_range.2 (hinv.userSession_lt n row hrow)) (by rw [hrow]; rfl)
    refine ⟨fun j => ?_, row, hrow, .inl ?_⟩
    · by_cases hj : s.txs j = .idle
      · rw [hj]
        rfl
      · exact hunused j (hinv.opened j hj)
    · rw [hrow] at hdead
      exact hdead
  have hlast : (authSystem .default).Reaches RecoversAll
      (s.ended 1 ⟨s.db.revokeSessions [8] s.now, [.recovered 7 s.db], .idle⟩) :=
    hreach.step (a := .finish 1) ?_ ?_
  · exact ⟨_, s.db, hlast, List.mem_cons_self, recovery_kills hlast⟩
  · refine ⟨fun u pending _ n row hrow _ => hbarred n row hrow, fun u o hinserts => ?_⟩
    rw [htx] at hinserts
    cases hinserts
  · change authStep .default s (.finish 1) = _
    rw [authStep, htx]
    rfl

/-- A refresh of a user session is accepted after the recovery of its user. -/
def acceptsRecovered (s : AuthState) : Bool :=
  match s.log with
  | .accepted 0 :: .recovered 7 before :: _ =>
    (before.userSessions 0).any fun row => row.userId = 7
  | _ => false

/-- A recovery does not touch user sessions: the refresh token of the command line client goes on
working after it. -/
theorem userSession_survives_recovery :
    ∃ s, (authSystem .default).Reaches (fun _ _ => True) s ∧ ¬ RecoveryKills .default s := by
  obtain ⟨s, hexec, hP⟩ := Run.System.exists_of_exec (authSystem .default) (fun _ _ => True)
    (authSystem .default).init
    ([.createOrganization 1, .setMember 7 1 true, .issueUserSession 7,
        .call 1 (.completeAccountRecovery 7)] ++ AuthLabel.runsFor 1 3 ++
      [.finish 1, .call 0 (.refreshUserSession 1)] ++ AuthLabel.runsFor 0 3 ++ [.finish 0])
    (fun s => acceptsRecovered s = true) (by decide +kernel)
  refine ⟨s, Run.System.steps_of_exec hexec, fun hkills => ?_⟩
  unfold acceptsRecovered at hP
  split at hP
  · rename_i before older hlog
    obtain ⟨row, hrow, hu⟩ := (Option.any_eq_true _ _).1 hP
    have hquiet := hkills.userSessions
    rw [hlog] at hquiet
    exact (List.pairwise_cons.1 hquiet).1 _ List.mem_cons_self 7 before 0 row rfl hrow
      (of_decide_eq_true hu) rfl
  · cases hP

end Auth
