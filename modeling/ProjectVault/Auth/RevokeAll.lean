import ProjectVault.Auth.Chains

/-!
Revocation of all sessions of a user in an organization, or of an organization.
-/

namespace Auth

variable {env : AuthEnv} {s s' : AuthState} {i j n x y : ℕ} {tx tx' : AuthTx} {e : AuthState.End}

/-! ### Calls -/

/-- A call of `revokeAllUserSessionsInOrg` or, without a user, of `revokeAllSessionsForOrg`. -/
structure RevokeAll where
  userId : Option ℕ
  orgId : ℕ
  since : ℕ
  deriving DecidableEq

/-- The sessions of the user and the organization. -/
def RevokeAll.covers (r : RevokeAll) (userId orgId : ℕ) : Bool :=
  (r.userId.all fun u => userId == u) && orgId == r.orgId

/-- The sessions it covers that were inserted before the call. -/
def RevokeAll.marks (r : RevokeAll) (x : ℕ) (row : SessionRow) : Prop :=
  x < r.since ∧ r.covers row.userId row.orgId = true

def Job.revokeAll : Job → Option RevokeAll
  | .userInOrg userId orgId since => some ⟨some userId, orgId, since⟩
  | .org orgId since => some ⟨none, orgId, since⟩
  | _ => none

def AuthEvent.revokeAll : AuthEvent → Option RevokeAll
  | .revokedUserInOrg userId orgId since => some ⟨some userId, orgId, since⟩
  | .revokedOrg orgId since => some ⟨none, orgId, since⟩
  | _ => none

/-- The revocation a transaction has begun. -/
def AuthTx.revokeAll : AuthTx → Option RevokeAll
  | asking job => job.revokeAll
  | enumerating job => job.revokeAll
  | revoking job _ _ => job.revokeAll
  | _ => none

/-- The sessions a revocation under way has still to come to. -/
def AuthTx.awaits (x : ℕ) : AuthTx → Bool
  | revoking job targets _ => job.revokeAll.isSome && targets.any fun target => target.sessionId = x
  | _ => false

/-- A login has inserted a session that the call covers before the call. -/
def AuthTx.precedes (r : RevokeAll) : AuthTx → Bool
  | inserted l n _ _ => n < r.since ∧ r.covers l.userId l.orgId = true
  | _ => false

/-- A rotation ends while no revocation has still to come to the session it rotates, and
`revokeAllUserSessionsInOrg` reads its targets while no login that began before the call is open. -/
def EnumeratedInTime (s : AuthState) : AuthLabel → Prop
  | .finish i => ∀ rotation ∈ (s.txs i).rotation, ∀ j ∈ s.slots,
      (s.txs j).awaits rotation.2.1.sessionId = false
  | .runs i _ =>
    match s.txs i with
    | .enumerating (.userInOrg userId orgId since) =>
      ∀ j ∈ s.slots, (s.txs j).precedes ⟨some userId, orgId, since⟩ = false
    | _ => True
  | _ => True

instance (s : AuthState) : (a : AuthLabel) → Decidable (EnumeratedInTime s a)
  | .finish i => inferInstanceAs (Decidable (∀ rotation ∈ (s.txs i).rotation, ∀ j ∈ s.slots,
      (s.txs j).awaits rotation.2.1.sessionId = false))
  | .runs i _ => by
    simp only [EnumeratedInTime]
    split <;> infer_instance
  | .tick _ | .issueUserSession _ | .setMember .. | .createOrganization _ | .touchSession _
  | .prune _ | .call .. | .rollback _ => .isTrue trivial

variable {r : RevokeAll}

lemma RevokeAll.marks_later (x : ℕ) (row row' : SessionRow) (h : row.Later row')
    (hx : r.marks x row') : r.marks x row := by
  rw [RevokeAll.marks, h.userId, h.orgId] at hx
  exact hx

/-! ### The invariant -/

structure RevokeAllInv (s : AuthState) : Prop where
  chains : ChainInv s
  since : ∀ i r, (s.txs i).revokeAll = some r → r.since ≤ s.seq
  targeted : ∀ i job targets pending r, s.txs i = .revoking job targets pending →
    job.revokeAll = some r → ∀ y, Marked s.db r.marks y → Targeted s.db targets pending y
  behind : ∀ i job targets pending r, s.txs i = .revoking job targets pending →
    job.revokeAll = some r → ∀ j, (s.txs j).precedes r = false
  revoked : ∀ event ∈ s.log, ∀ r ∈ event.revokeAll, ∀ y, Marked s.db r.marks y → s.db.Revoked y
  passed : ∀ event ∈ s.log, ∀ r ∈ event.revokeAll,
    r.since ≤ s.seq ∧ ∀ j, (s.txs j).precedes r = false

/-- A call covers what is inserted before it. -/
lemma Moves.revokeAll (hmove : Moves env s i tx tx') (hr : tx'.revokeAll = some r) :
    tx.revokeAll = some r ∨ r.since = s.seq := by
  cases hmove with
  | revokesUserInOrg userId orgId => exact .inr (Option.some.inj hr ▸ rfl)
  | revokesOrg orgId => exact .inr (Option.some.inj hr ▸ rfl)
  | enumerating job hfree => exact .inl hr
  | enumerated job choice => exact .inl hr
  | nextOrg => cases hr
  | next job targets pending target hmem hfree => exact .inl hr
  | _ => cases hr

/-- What is inserted after a call does not precede it. -/
lemma Moves.precedes (hmove : Moves env s i tx tx') (hr : r.since ≤ s.seq) :
    tx'.precedes r = false := by
  cases hmove with
  | inserted l pending ttl => exact decide_eq_false fun h => absurd h.1 (Nat.not_lt.2 hr)
  | _ => rfl

/-- A marked session that is unrevoked is among the targets a revocation reads. -/
lemma ChainInv.targeted (h : ChainInv s) {job : Job} (choice : List ℕ) (hr : job.revokeAll = some r)
    (hy : Marked s.db r.marks y) :
    Targeted s.db (s.targets choice job) [] y := by
  obtain ⟨row, hrow, hcovers⟩ := h.marked_row (Q := fun row => r.covers row.userId row.orgId = true)
    (fun _ _ hx => hx.2) (fun row row' huser horg hq => by rw [huser, horg]; exact hq) hy
  by_cases hrevoked : row.revokedAt.isSome = true
  · exact .revoked ⟨row, hrow, hrevoked⟩
  have hnone : row.revokedAt.isNone = true := by
    rw [Option.isNone_iff_eq_none]
    simpa using hrevoked
  have hselect : ∀ predicate : SessionRow → Bool, predicate row = true →
      y ∈ s.select [] predicate := fun predicate hpredicate => by
    refine List.mem_filter.2 ⟨List.mem_range.2 (h.inv.session_lt y row hrow), ?_⟩
    rw [hrow]
    simp [hnone, hpredicate]
  cases job with
  | userInOrg userId orgId since =>
    cases hr
    simp only [RevokeAll.covers, Option.all_some, Bool.and_eq_true, beq_iff_eq] at hcovers
    refine .target ⟨y, some userId, some orgId⟩ (List.mem_map.2 ⟨y, ?_, rfl⟩) rfl
      ⟨row, hrow, by simp [Target.matches, hcovers]⟩
    exact hselect _ (by simp [hcovers])
  | org orgId since =>
    cases hr
    simp only [RevokeAll.covers, Option.all_none, Bool.true_and, beq_iff_eq] at hcovers
    refine .target ⟨y, none, none⟩ (List.mem_map.2 ⟨y, ?_, rfl⟩) rfl ⟨row, hrow, rfl⟩
    exact hselect _ (by simp [hcovers])
  | _ => cases hr

/-- A revocation that reads its targets has no login before it: `revokeAllSessionsForOrg` holds the
advisory lock that every login of the organization holds. -/
lemma AuthInv.behind (h : AuthInv s) {choice : List ℕ} {job : Job}
    (hok : EnumeratedInTime s (.runs i choice)) (htx : s.txs i = .enumerating job)
    (hr : job.revokeAll = some r) (j : ℕ) : (s.txs j).precedes r = false := by
  cases job with
  | userInOrg userId orgId since =>
    cases hr
    simp only [EnumeratedInTime, htx] at hok
    by_cases hj : s.txs j = .idle
    · rw [hj]
      rfl
    · exact hok j (h.opened j hj)
  | org orgId since =>
    cases hr
    rw [Bool.eq_false_iff]
    intro hj
    cases htxj : s.txs j with
    | inserted l n row pending =>
      rw [htxj] at hj
      have hcovers := (of_decide_eq_true hj).2
      simp only [RevokeAll.covers, Option.all_none, Bool.true_and, beq_iff_eq] at hcovers
      have hij := h.org i j orgId (by rw [htx]; exact decide_eq_true rfl)
        (by rw [htxj]; exact decide_eq_true hcovers)
      rw [hij, htxj] at htx
      cases htx
    | _ => rw [htxj] at hj; cases hj
  | _ => cases hr

/-! ### Steps -/

lemma RevokeAllInv.moves (h : RevokeAllInv s) {a : AuthLabel} (hok : EnumeratedInTime s a)
    (hmove : Moves env s i (s.txs i) tx')
    (ha : tx' = .idle ∨ (∃ request, s.call (s.txs i) request = some tx') ∨
      ∃ choice, a = .runs i choice) : RevokeAllInv (s.put i tx') := by
  have hprecedes : ∀ r : RevokeAll, r.since ≤ s.seq → (∀ j, (s.txs j).precedes r = false) →
      ∀ j, ((s.put i tx').txs j).precedes r = false := fun r hr hnone =>
    forall_txs_put (P := fun tx => tx.precedes r = false) hnone (hmove.precedes hr)
  -- what a transaction that has read its targets knows
  have hknown : ∀ job targets pending r, tx' = .revoking job targets pending →
      job.revokeAll = some r →
      (∀ y, Marked s.db r.marks y → Targeted s.db targets pending y) ∧
        ∀ j, (s.txs j).precedes r = false := by
    rintro job targets pending r rfl hr
    generalize htx : s.txs i = tx at hmove ha
    cases hmove with
    | enumerated job choice =>
      refine ⟨fun y hy => h.chains.targeted choice hr hy, ?_⟩
      rcases ha with ha | ⟨request, ha⟩ | ⟨choice', rfl⟩
      · cases ha
      · cases ha
      · exact h.chains.inv.behind hok htx hr
    | next job targets pending target hmem hfree =>
      exact ⟨fun y hy => (h.targeted i _ _ _ r htx hr y hy).next target,
        h.behind i _ _ _ r htx hr⟩
    | revokeLinks | memberships | nextOrg | expires => cases hr
  refine ⟨h.chains.moves hmove, ?_, ?_, ?_, h.revoked, ?_⟩
  · intro k r hk
    rw [put_txs] at hk
    split at hk
    · rcases hmove.revokeAll hk with hold | hnew
      · exact Nat.le_add_right_of_le (h.since i r hold)
      · exact hnew ▸ Nat.le_add_right _ 2
    · exact Nat.le_add_right_of_le (h.since k r hk)
  · intro k job targets pending r hk hr
    rw [put_txs] at hk
    split at hk
    · exact (hknown job targets pending r hk hr).1
    · exact h.targeted k job targets pending r hk hr
  · intro k job targets pending r hk hr
    rw [put_txs] at hk
    split at hk
    · refine hprecedes r ?_ (hknown job targets pending r hk hr).2
      rcases hmove.revokeAll (r := r) (by rw [hk]; exact hr) with hold | hnew
      · exact h.since i r hold
      · exact hnew.le
    · exact hprecedes r (h.since k r (by rw [hk]; exact hr))
        (h.behind k job targets pending r hk hr)
  · intro event hevent r hr
    obtain ⟨hsince, hnone⟩ := h.passed event hevent r hr
    exact ⟨Nat.le_add_right_of_le hsince, hprecedes r hsince hnone⟩

/-- The only new event of a revocation is its own. -/
lemma Finishes.revokeAll {event : AuthEvent} (hend : Finishes env s tx e)
    (hevent : event ∈ e.events) (hr : event.revokeAll = some r) :
    ∃ job pending, tx = .revoking job [] pending ∧ job.revokeAll = some r ∧
      e.db = s.db.revokeSessions pending s.now := by
  cases hend with
  | userInOrg userId orgId since pending =>
    obtain rfl := List.mem_singleton.1 hevent
    exact ⟨_, pending, rfl, hr, rfl⟩
  | org orgId since pending =>
    obtain rfl := List.mem_singleton.1 hevent
    exact ⟨_, pending, rfl, hr, rfl⟩
  | throwing token reused =>
    obtain ⟨n, -, rfl⟩ := List.mem_map.1 hevent
    cases hr
  | inserted l n row pending =>
    obtain ⟨n, -, rfl⟩ := List.mem_map.1 hevent
    cases hr
  | userRotated _ _ _ _ | touched _ _ _ | userThrown _ _ _ | recovery _ _ =>
    obtain rfl := List.mem_singleton.1 hevent
    cases hr
  | verified _ _ | userRevoked _ _ _ | sessions _ _ | rotated _ _ _ _ _ => cases hevent

/-- An end adds no marked session of a call that no login precedes, when the rotated session, if
there is one, is not marked. -/
lemma RevokeAllInv.marked_ended (h : RevokeAllInv s) (hend : Finishes env s (s.txs i) e)
    (hbehind : ∀ j, (s.txs j).precedes r = false)
    (hunmarked : ∀ token row session, (s.txs i).rotation = some (token, row, session) →
      ¬ Marked s.db r.marks row.sessionId) (hy : Marked e.db r.marks y) :
    Marked s.db r.marks y := by
  -- a new session that the call covers would precede it, or follow an older one
  have hnew : ∀ n row', (s.txs i).draws = some n → e.db.sessions n = some row' → r.marks n row' →
      ∃ token row session, (s.txs i).rotation = some (token, row, session) ∧
        Marked s.db r.marks row.sessionId := by
    intro n row' hdraws hrow' hn
    generalize htx : s.txs i = tx at hend hdraws
    cases tx with
    | inserted l m row pending =>
      obtain rfl := Option.some.inj hdraws
      obtain rfl := Option.some.inj (hrow'.symm.trans hend.inserted_session.1)
      obtain ⟨huser, horg⟩ := h.chains.inv.login i l m row' pending htx
      have hfalse := hbehind i
      rw [htx] at hfalse
      rw [RevokeAll.marks, huser, horg] at hn
      exact absurd hn (of_decide_eq_false hfalse)
    | rotated token row session m rotatedAt =>
      cases hdraws
      obtain rfl := Option.some.inj (hrow'.symm.trans hend.rotated_sessions)
      obtain ⟨hsession, -⟩ := h.chains.inv.rotation i token row session (by rw [htx]; rfl)
      exact ⟨token, row, session, rfl, .root hsession
        ⟨(h.chains.later i _ _ _ _ _ htx).trans hn.1, hn.2⟩⟩
    | _ => cases hdraws
  rcases hy.ended h.chains hend RevokeAll.marks_later hnew with hy | ⟨-, token, row, session, hr, hm⟩
  · exact hy
  · exact absurd hm (hunmarked token row session hr)

lemma Finishes.next_precedes (hend : Finishes env s tx e) (r : RevokeAll) :
    e.next.precedes r = false := by
  cases hend <;> rfl

lemma RevokeAllInv.ended (h : RevokeAllInv s) (hok : EnumeratedInTime s (.finish i))
    (hend : Finishes env s (s.txs i) e) : RevokeAllInv (s.ended i e) := by
  have hext := hend.extends h.chains.inv
  have hprecedes : ∀ r : RevokeAll, (∀ j, (s.txs j).precedes r = false) →
      ∀ j, ((s.ended i e).txs j).precedes r = false := fun r hnone =>
    forall_txs_put (P := fun tx => tx.precedes r = false) hnone
      (hend.next_precedes r)
  have hopen : ∀ {k : ℕ} {job targets pending},
      (s.ended i e).txs k = .revoking job targets pending →
      k ≠ i ∧ s.txs k = .revoking job targets pending := fun {k job targets pending} hk => by
    rw [ended_txs] at hk
    split at hk
    · exact absurd hk (hend.next_ne_revoking _ _ _)
    · rename_i hki
      exact ⟨hki, hk⟩
  -- the marked sessions of a revocation under way are those before the end
  have hmarked : ∀ {k : ℕ} {job targets pending r}, k ≠ i → s.txs k = .revoking job targets pending →
      job.revokeAll = some r → ∀ y, Marked e.db r.marks y → Marked s.db r.marks y := by
    intro k job targets pending r hki hk hr y hy
    refine h.marked_ended hend (h.behind k _ _ _ r hk hr) ?_ hy
    intro token row session hrotation hm
    obtain ⟨hsession, hlive, -⟩ := h.chains.inv.rotation i token row session hrotation
    cases h.targeted k _ _ _ r hk hr _ hm with
    | revoked hrevoked =>
      obtain ⟨row', hrow', hsome⟩ := hrevoked
      obtain rfl := Option.some.inj (hsession.symm.trans hrow')
      rw [hlive] at hsome
      cases hsome
    | pending hpending _ =>
      exact hki (h.chains.inv.exclusive k i _ (by rw [hk]; exact decide_eq_true hpending)
        (AuthTx.holdsSession_of_rotation hrotation))
    | target target htarget hx _ =>
      have hawaits := hok _ hrotation k (h.chains.inv.opened k (by rw [hk]; exact nofun))
      rw [hk] at hawaits
      simp only [AuthTx.awaits, hr, Option.isSome_some, Bool.true_and, List.any_eq_false,
        decide_eq_true_eq] at hawaits
      exact hawaits target htarget hx
  refine ⟨h.chains.ended hend, ?_, ?_, ?_, ?_, ?_⟩
  · intro k r hk
    rw [ended_txs] at hk
    split at hk
    · exfalso
      generalize s.txs i = tx at hend
      cases hend <;> cases hk
    · exact Nat.le_add_right_of_le (h.since k r hk)
  · intro k job targets pending r hk hr y hy
    obtain ⟨hki, hk⟩ := hopen hk
    exact (h.targeted k job targets pending r hk hr y (hmarked hki hk hr y hy)).extends hext
  · intro k job targets pending r hk hr
    obtain ⟨-, hk⟩ := hopen hk
    exact hprecedes r (h.behind k job targets pending r hk hr)
  · intro event hevent r hr y hy
    rcases List.mem_append.1 hevent with hevent | hevent
    · obtain ⟨job, pending, htx, hjob, hdb⟩ := hend.revokeAll hevent hr
      have hold := h.marked_ended hend (h.behind i _ _ _ r htx hjob) (fun _ _ _ hrotation => by
        rw [htx] at hrotation
        exact nomatch hrotation) hy
      change e.db.Revoked y
      rw [hdb]
      exact (h.targeted i job [] pending r htx hjob y hold).commit s.now
    · refine (h.revoked event hevent r hr y ?_).extends hext
      refine h.marked_ended hend (h.passed event hevent r hr).2 ?_ hy
      intro token row session hrotation hm
      obtain ⟨hsession, hlive, -⟩ := h.chains.inv.rotation i token row session hrotation
      obtain ⟨row', hrow', hsome⟩ := h.revoked event hevent r hr _ hm
      obtain rfl := Option.some.inj (hsession.symm.trans hrow')
      rw [hlive] at hsome
      cases hsome
  · intro event hevent r hr
    rcases List.mem_append.1 hevent with hevent | hevent
    · obtain ⟨job, pending, htx, hjob, -⟩ := hend.revokeAll hevent hr
      exact ⟨Nat.le_add_right_of_le (h.since i r (by rw [htx]; exact hjob)),
        hprecedes r (h.behind i _ _ _ r htx hjob)⟩
    · obtain ⟨hsince, hnone⟩ := h.passed event hevent r hr
      exact ⟨Nat.le_add_right_of_le hsince, hprecedes r hnone⟩

lemma Outside.log (hout : Outside env s s') : s'.log = s.log := by cases hout <;> rfl

lemma Outside.seq_le (hout : Outside env s s') : s.seq ≤ s'.seq := by
  cases hout with
  | issueUserSession userId => exact Nat.le_add_right _ 2
  | _ => exact le_rfl

lemma RevokeAllInv.outside (h : RevokeAllInv s) (hout : Outside env s s') : RevokeAllInv s' := by
  have hext := hout.extends h.chains.inv
  have hmarked : ∀ (r : RevokeAll) y, Marked s'.db r.marks y → Marked s.db r.marks y :=
    fun r y hy => hy.outside h.chains.inv hout RevokeAll.marks_later
  refine ⟨h.chains.outside hout, ?_, ?_, ?_, ?_, ?_⟩
  · rw [hout.txs]
    exact fun k r hk => (h.since k r hk).trans hout.seq_le
  · rw [hout.txs]
    exact fun k job targets pending r hk hr y hy =>
      (h.targeted k job targets pending r hk hr y (hmarked r y hy)).extends hext
  · rw [hout.txs]
    exact h.behind
  · rw [hout.log]
    exact fun event hevent r hr y hy => (h.revoked event hevent r hr y (hmarked r y hy)).extends hext
  · rw [hout.log, hout.txs]
    exact fun event hevent r hr => ⟨(h.passed event hevent r hr).1.trans hout.seq_le,
      (h.passed event hevent r hr).2⟩

/-- **One step** of a run in which revocations are enumerated in time. -/
lemma RevokeAllInv.step {a : AuthLabel} (h : RevokeAllInv s) (hok : EnumeratedInTime s a)
    (hstep : authStep env s a = some s') : RevokeAllInv s' := by
  cases authStep_cases hstep with
  | moves i hmove ha => exact h.moves hok hmove ha
  | finish i hend => exact h.ended hok hend
  | outside hout => exact h.outside hout

lemma revokeAllInv_init : RevokeAllInv (authSystem env).init where
  chains := chainInv_init
  since _ _ h := nomatch h
  targeted _ _ _ _ _ h := nomatch h
  behind _ _ _ _ _ h := nomatch h
  revoked _ h := nomatch h
  passed _ h := nomatch h

/-! ### Runs -/

/-- What existed at the call of a committed revocation, or is obtained from it by refreshes, is
closed. -/
def RevokeAllCloses (env : AuthEnv) (s : AuthState) : Prop :=
  ∀ event ∈ s.log, ∀ r ∈ event.revokeAll, ∀ x row, s.db.sessions x = some row → r.marks x row →
    ∀ y, Relation.ReflTransGen s.db.Succeeds x y → s.db.Closed env y

/-- User 7 signs in to organization 1, as session 6 with refresh token 7. -/
def loginRun : List AuthLabel :=
  [.setMember 7 1 true, .call 0 (.login 7 1)] ++ AuthLabel.runsFor 0 3 ++ [.finish 0]

/-- A refresh of that session, and a revocation up to the read of its targets. -/
def refreshRun : List AuthLabel :=
  [.call 0 (.refreshSession 7)] ++ AuthLabel.runsFor 0 2 ++ [.finish 0]

def enumerateRun (request : Request) : List AuthLabel :=
  [.call 1 request] ++ AuthLabel.runsFor 1 2

/-- A committed revocation has left a successor of a session it covers that authenticates a
request. -/
def leavesAlive (r : RevokeAll) (x token y : ℕ) (claims : AccessTokenClaims) (s : AuthState) : Bool :=
  (s.log.any fun event => event.revokeAll = some r) && decide (x < r.since) &&
    ((s.db.sessions x).any fun row => r.covers row.userId row.orgId) &&
    ((s.db.refreshTokens token).any fun row => row.sessionId = x && row.newSessionId = some y) &&
    decide (claims.jti = y) && (authenticateRequest .default s.db claims s.now).isOk

lemma not_closes_of_leavesAlive {token : ℕ} {claims : AccessTokenClaims}
    (h : leavesAlive r x token y claims s = true) : ¬ RevokeAllCloses .default s := by
  intro hcloses
  simp only [leavesAlive, Bool.and_eq_true, List.any_eq_true, decide_eq_true_eq,
    Option.any_eq_true] at h
  obtain ⟨⟨⟨⟨⟨⟨event, hevent, hr⟩, hlt⟩, row, hrow, hcovers⟩, t, ht, hx, hy⟩, hjti⟩, hok⟩ := h
  have hclosed := hcloses event hevent r hr x row hrow ⟨hlt, hcovers⟩ y
    (.single ⟨token, t, ht, hx, hy⟩)
  cases hauth : authenticateRequest .default s.db claims s.now with
  | ok session => exact hclosed.authenticate claims s.now session hjti hauth
  | error error =>
    rw [hauth] at hok
    cases hok

end Auth
