import ProjectVault.Erasure.SignIn

/-!
What an erasure leaves behind, and when.

An execution holds the row of the user from its update on, and with it every insert for the user
waits: what its later statements do not see is not there at its commit.
-/

namespace Erasure

open Auth

/-! ### What is to hold -/

/-- The execution has erased the user. -/
def Entry.Erases (entry : Entry) (u : ℕ) : Prop :=
  ∃ completedAt count, entry.outcome = .completed u completedAt count

/-- The session of the user was there before the commit. -/
def Entry.Held (entry : Entry) (u n : ℕ) : Prop :=
  ∃ row, entry.before.auth.sessions n = some row ∧ row.userId = u

/-- The user session authenticates nothing from a time on, and is not refreshed. -/
structure Shut (env : AuthEnv) (db : AuthDb) (n : ℕ) (since : ℤ) : Prop where
  verify : ∀ claims now, claims.jti = n → since ≤ now →
    verifyUserSession env claims (db.userSessions n) now ≠ .touches
  refresh : ∀ t row session now, db.userRefreshTokens t = some row → row.userSessionId = n →
    db.userSessions n = some session → since ≤ now →
      rotateUserRefresh env row session now ≠ .rotates

/-- What is gone behind an erasure of the user. -/
structure Gone (env : AuthEnv) (s : State) (entry : Entry) (u : ℕ) : Prop where
  credentials : ∀ kind n, s.db.credentials kind n ≠ some u
  sessionMeta : ∀ n, entry.Held u n → s.db.sessionMeta n = .scrubbed
  identityTokens : ∀ n row, s.db.identityTokens n = some row → row.userId = u →
    row.pseudonymizedAt.isSome = true ∧ (∃ draw, row.displayName = generatePseudonymAlias draw) ∧
      ∀ m row', s.db.identityTokens m = some row' → row'.displayName = row.displayName → m = n
  sessions : ∀ n, entry.Held u n → s.db.signIn.Closed env n
  userSessions : ∀ n row, entry.before.auth.userSessions n = some row → row.userId = u →
    Shut env s.db.auth n s.now

structure Confined (env : AuthEnv) (s : State) : Prop where
  once : s.log.Pairwise fun later earlier => ∀ u v, later.Erases u → earlier.Erases v →
    later.requestId ≠ earlier.requestId
  alone : ∀ entry ∈ s.log, ∀ u, entry.Erases u → ∀ m ∈ entry.after.memberships, m.userId = u →
    m.orgId = entry.orgId
  unchanged : ∀ entry ∈ s.log, (∀ u, ¬entry.Erases u) → entry.after = entry.before
  gone : ∀ entry ∈ s.log, ∀ u, entry.Erases u → Gone env s entry u

/-- A committed execution has erased the user. -/
def State.Erased (s : State) (u : ℕ) : Prop := ∃ entry ∈ s.log, entry.Erases u

/-- How far an execution has come; one that returns without an erasure is nowhere. -/
def Stage.rank : Stage → ℕ
  | counting => 0
  | claiming => 1
  | reading => 2
  | drawing _ _ => 3
  | updating _ _ _ => 3
  | overwriting => 4
  | deleting .enrollment => 5
  | deleting .recoveryCode => 6
  | deleting .recoveryToken => 7
  | scrubbing => 8
  | revoking => 9
  | completing => 10
  | returned (.completed _ _ _) => 11
  | returned _ => 0

/-- No other identity token bears the name, committed or renamed by an open execution. -/
def Unborne (s : State) (tokenId : ℕ) (name : String) : Prop :=
  (∀ n row, s.db.identityTokens n = some row → row.displayName = name → n = tokenId) ∧
    ∀ j stage e, s.txs j = some (.erasing stage e) → ∀ p ∈ e.writes.aliases,
      p.displayName = name → p.tokenId = tokenId

/-- The user's sessions in other organizations are revoked and hold no metadata, and the user's
user sessions are over. -/
structure OverElsewhere (s : State) (e : Erasing) : Prop where
  sessions : ∀ n row, s.db.auth.sessions n = some row → row.userId = e.userId →
    row.orgId ≠ e.orgId → row.revokedAt.isSome = true ∧ s.db.sessionMeta n = .scrubbed
  userSessions : ∀ n row, s.db.auth.userSessions n = some row → row.userId = e.userId →
    row.revokedAt.isSome = true ∨ row.expiresAt ≤ s.now

/-- Between the count of an execution and its end the user joins no other organization; nothing is
enrolled for an erased user; the user is over elsewhere when an erasure commits; and a name drawn is
borne by no other identity token when it is written. -/
def Sound (s : State) : Label → Prop
  | .commit i =>
    (∀ u orgId, s.txs i = some (.inserting u (.membership orgId)) →
      ∀ j stage e, s.txs j = some (.erasing stage e) → e.userId = u → 1 ≤ stage.rank →
        orgId = e.orgId) ∧
    (∀ u kind count, s.txs i = some (.inserting u (.credentials kind count)) → ¬s.Erased u) ∧
    ∀ u completedAt count e,
      s.txs i = some (.erasing (.returned (.completed u completedAt count)) e) → OverElsewhere s e
  | .erase i _ => ∀ tokenId todo name e,
      s.txs i = some (.erasing (.updating tokenId todo name) e) → Unborne s tokenId name
  | .pseudonymizeUser u draw => ∀ row, s.db.identityTokens u = some row →
      row.pseudonymizedAt = none → Unborne s u (generatePseudonymAlias draw)
  | _ => True

/-! ### The invariant -/

/-- Rows have numbers below the next one; the identity token of a user has the user's number. -/
structure Numbered (db : Tables) (seq : ℕ) : Prop where
  auth : AuthNumbered db.auth seq
  users : ∀ n, seq ≤ n → db.users n = none
  identityTokens : ∀ n, seq ≤ n → db.identityTokens n = none
  credentials : ∀ kind n, seq ≤ n → db.credentials kind n = none
  requests : ∀ n, seq ≤ n → db.requests n = none
  owner : ∀ n row, db.identityTokens n = some row → row.userId = n
  requester : ∀ n r, db.requests n = some r → r.userId < seq

/-- Names are addresses or pseudonyms, and a pseudonym is borne once, drawn ones included. -/
structure Names (s : State) : Prop where
  address : ∀ n row, s.db.identityTokens n = some row → row.pseudonymizedAt = none →
    '@' ∈ row.displayName.toList
  pseudonym : ∀ n row, s.db.identityTokens n = some row → row.pseudonymizedAt.isSome = true →
    (∃ draw, row.displayName = generatePseudonymAlias draw) ∧
      ∀ m row', s.db.identityTokens m = some row' → row'.displayName = row.displayName → m = n
  drawn : ∀ j stage e, s.txs j = some (.erasing stage e) → ∀ p ∈ e.writes.aliases,
    (∃ draw, p.displayName = generatePseudonymAlias draw) ∧
      ∀ n row, s.db.identityTokens n = some row → row.displayName = p.displayName → n = p.tokenId
  apart : ∀ j k stage stage' e e', s.txs j = some (.erasing stage e) →
    s.txs k = some (.erasing stage' e') → ∀ p ∈ e.writes.aliases, ∀ q ∈ e'.writes.aliases,
      p.displayName = q.displayName → p.tokenId = q.tokenId

/-- What an execution knows from a stage on. -/
inductive Fact where
  | counted | claimed | renamed | locked
  | deleted (kind : Credential)
  | scrubbed | revoked

/-- The stage behind the statement that establishes it. -/
def Fact.rank : Fact → ℕ
  | counted => 1
  | claimed => 2
  | renamed => 4
  | locked => 5
  | deleted .enrollment => 6
  | deleted .recoveryCode => 7
  | deleted .recoveryToken => 8
  | scrubbed => 9
  | revoked => 10

lemma Fact.rank_pos (fact : Fact) : 1 ≤ fact.rank := by
  cases fact with
  | deleted kind => cases kind <;> decide
  | _ => decide

lemma Fact.six_le_rank_deleted (kind : Credential) : 6 ≤ (deleted kind).rank := by
  cases kind <;> decide

lemma Fact.rank_le (fact : Fact) : fact.rank ≤ 10 := by
  cases fact with
  | deleted kind => cases kind <;> decide
  | _ => decide

/-- The identity tokens are known when all of them are renamed. -/
lemma Fact.rank_ne_three (fact : Fact) : fact.rank ≠ 3 := by
  cases fact with
  | deleted kind => cases kind <;> decide
  | _ => decide

/-- Each statement establishes one fact. -/
lemma Fact.rank_injective : Function.Injective rank := by
  intro fact fact' h
  cases fact with
  | deleted kind =>
    cases fact' with
    | deleted kind' => cases kind <;> cases kind' <;> first | rfl | cases h
    | _ => cases kind <;> cases h
  | _ =>
    cases fact' with
    | deleted kind' => cases kind' <;> cases h
    | _ => first | rfl | cases h

/-- The old facts and the one of the statement. -/
lemma forall_facts_succ {P : Fact → Prop} {r : ℕ} (new : Fact) (hrank : new.rank = r + 1)
    (hold : ∀ fact : Fact, fact.rank ≤ r → P fact) (hnew : P new) (fact : Fact)
    (h : fact.rank ≤ r + 1) : P fact := by
  rcases Nat.le_succ_iff.1 h with hle | heq
  · exact hold fact hle
  · rwa [Fact.rank_injective (heq.trans hrank.symm)]

def Fact.Holds (s : State) (i : ℕ) (e : Erasing) : Fact → Prop
  | counted => ∀ m ∈ s.db.memberships, m.userId = e.userId → m.orgId = e.orgId
  | claimed => s.locks (.request e.requestId) = some i ∧
      ∃ r, s.db.requests e.requestId = some r ∧ r.status = .pending
  | renamed => ∀ row, s.db.identityTokens e.userId = some row →
      row.pseudonymizedAt.isSome = true ∨ ∃ p ∈ e.writes.aliases, p.tokenId = e.userId
  | locked => s.locks (.user e.userId) = some i
  | deleted kind => ∀ n, s.db.credentials kind n = some e.userId → n ∈ e.writes.deleted kind
  | scrubbed => ∀ n row, s.db.auth.sessions n = some row → row.userId = e.userId →
      row.orgId = e.orgId → n ∈ e.writes.scrubbed
  | revoked => ∀ n row, s.db.auth.sessions n = some row → row.userId = e.userId →
      row.orgId = e.orgId → row.revokedAt.isSome = true ∨ n ∈ e.writes.revoked

/-- The identity tokens an execution has read and still to come to. -/
def Stage.ahead : Stage → List (ℕ × IdentityToken)
  | drawing todo _ => todo
  | updating _ todo _ => todo
  | _ => []

/-- An execution has still to come to the identity token, or is about to write it. -/
def Stage.Awaits (n : ℕ) : Stage → Prop
  | drawing todo _ => n ∈ todo.map (·.1)
  | updating tokenId todo _ => n = tokenId ∨ n ∈ todo.map (·.1)
  | _ => False

/-- What an open execution knows. -/
structure ErasingOk (s : State) (i : ℕ) (stage : Stage) (e : Erasing) : Prop where
  user_lt : e.userId < s.seq
  unwritten : stage.rank ≤ 1 → e.writes = .none
  facts : ∀ fact : Fact, fact.rank ≤ stage.rank → fact.Holds s i e
  awaits : stage.rank = 3 → ∀ row, s.db.identityTokens e.userId = some row →
    row.pseudonymizedAt.isSome = true ∨ (∃ p ∈ e.writes.aliases, p.tokenId = e.userId) ∨
      stage.Awaits e.userId
  read : ∀ token ∈ stage.ahead, token.1 < s.seq ∧ (token.2.pseudonymizedAt.isSome = true →
    ∀ row, s.db.identityTokens token.1 = some row → row.pseudonymizedAt.isSome = true)
  name : ∀ tokenId todo name, stage = .updating tokenId todo name →
    ∃ draw, name = generatePseudonymAlias draw
  held : ∀ n ∈ e.writes.scrubbed, s.locks (.session n) = some i
  revoked_held : ∀ n ∈ e.writes.revoked, s.locks (.session n) = some i
  completed : ∀ u completedAt count, stage = .returned (.completed u completedAt count) →
    u = e.userId ∧ e.writes.status = some .completed

/-- What a refresh knows of the rows it has locked. -/
structure Rotating (s : State) (i token : ℕ) (row : RefreshTokenRow) (session : SessionRow) :
    Prop where
  locked : s.locks (.session row.sessionId) = some i
  current : s.db.auth.sessions row.sessionId = some session
  live : session.revokedAt = none
  token : ∃ r, s.db.auth.refreshTokens token = some r ∧ r.sessionId = row.sessionId

/-- What the insert knows. -/
def Insert.Ok (s : State) (i userId : ℕ) : Insert → Prop
  | session row _ signedOut _ =>
    row.userId = userId ∧ ∀ n ∈ signedOut, s.locks (.session n) = some i
  | _ => True

/-- What a transaction may rely on. -/
def TxOk (s : State) (i : ℕ) : Tx → Prop
  | .erasing stage e => ErasingOk s i stage e
  | .inserting userId ins => (userId, i) ∈ s.keyShares ∧ userId < s.seq ∧ ins.Ok s i userId
  | .refreshing token row session _ => Rotating s i token row session
  | .rotated token row session _ _ =>
    Rotating s i token row session ∧ (session.userId, i) ∈ s.keyShares

/-- What an erasure has left. -/
structure ErasedOk (s : State) (entry : Entry) (u : ℕ) : Prop where
  user_lt : u < s.seq
  request : ∃ r, s.db.requests entry.requestId = some r ∧ r.status = .completed
  alone : ∀ m ∈ entry.after.memberships, m.userId = u → m.orgId = entry.orgId
  credentials : ∀ kind n, s.db.credentials kind n ≠ some u
  lt : ∀ n, entry.Held u n → n < s.seq
  revoked : ∀ n, entry.Held u n → s.db.auth.Revoked n
  sessionMeta : ∀ n, entry.Held u n → s.db.sessionMeta n = .scrubbed
  successor : ∀ n m, entry.Held u n → s.db.auth.Succeeds n m → entry.Held u m
  token : ∀ row, s.db.identityTokens u = some row → row.pseudonymizedAt.isSome = true
  userSessions : ∀ n row, entry.before.auth.userSessions n = some row → row.userId = u →
    ∃ row', s.db.auth.userSessions n = some row' ∧
      (row'.revokedAt.isSome = true ∨ row'.expiresAt ≤ s.now)

structure Inv (s : State) : Prop where
  numbered : Numbered s.db s.seq
  names : Names s
  txs : ∀ i tx, s.txs i = some tx → TxOk s i tx
  shares : ∀ u j, (u, j) ∈ s.keyShares → s.locks (.user u) = none
  erased : ∀ entry ∈ s.log, ∀ u, entry.Erases u → ErasedOk s entry u
  unchanged : ∀ entry ∈ s.log, (∀ u, ¬entry.Erases u) → entry.after = entry.before
  once : s.log.Pairwise fun later earlier => ∀ u v, later.Erases u → earlier.Erases v →
    later.requestId ≠ earlier.requestId

/-! ### Changes of the tables -/

/-- What a commit may do to the tables while the transactions of the state are open. -/
structure Change (s : State) (db : Tables) (seq : ℕ) : Prop where
  seq_le : s.seq ≤ seq
  auth : AuthMove s.locks s.db.auth db.auth
  sessionMeta : ∀ n, n < s.seq →
    db.sessionMeta n = s.db.sessionMeta n ∨ db.sessionMeta n = .scrubbed
  memberships : ∀ m ∈ db.memberships,
    (∃ m₀ ∈ s.db.memberships, m₀.userId = m.userId ∧ m₀.orgId = m.orgId) ∨
      ∀ j stage e, s.txs j = some (.erasing stage e) → e.userId = m.userId → 1 ≤ stage.rank →
        m.orgId = e.orgId
  credentials : ∀ kind n u, db.credentials kind n = some u → s.db.credentials kind n = some u ∨
    s.locks (.user u) = none ∧ ¬s.Erased u
  identityTokens : ∀ n row, n < s.seq → db.identityTokens n = some row →
    ∃ row₀, s.db.identityTokens n = some row₀ ∧
      (row₀.pseudonymizedAt.isSome = true → row.pseudonymizedAt.isSome = true)
  requests : ∀ n r, s.db.requests n = some r → r.status = .completed ∨ s.locks (.request n) ≠ none →
    db.requests n = some r

section Moves

variable {env : AuthEnv} {s s' : State} {i j : ℕ}

lemma Change.refl (s : State) : Change s s.db s.seq where
  seq_le := le_rfl
  auth := .refl
  sessionMeta _ _ := .inl rfl
  memberships m hm := .inl ⟨m, hm, rfl, rfl⟩
  credentials _ _ _ h := .inl h
  identityTokens _ row _ h := ⟨row, h, id⟩
  requests _ _ h _ := h

/-- A write to the sign-in tables. -/
lemma Change.ofAuth {auth : AuthDb} {seq : ℕ} (h : AuthMove s.locks s.db.auth auth)
    (hseq : s.seq ≤ seq) : Change s { s.db with auth } seq where
  __ := Change.refl s
  seq_le := hseq
  auth := h

/-- What an execution knows stays so; the row of the user, once locked, keeps new rows away. -/
lemma Fact.later {fact : Fact} {e : Erasing} (h : fact.Holds s i e)
    (hcounted : ∀ m : OrgMembership, (∀ j stage e', s.txs j = some (.erasing stage e') →
      e'.userId = m.userId → 1 ≤ stage.rank → m.orgId = e'.orgId) → m.userId = e.userId →
        m.orgId = e.orgId)
    (huser : 5 ≤ fact.rank → s.locks (.user e.userId) = some i) (hlt : e.userId < s.seq)
    (hchange : Change s s'.db s'.seq)
    (hlocks : ∀ row, s.locks row = some i → s'.locks row = some i) : fact.Holds s' i e := by
  -- the session was there before
  have hsession : 5 ≤ fact.rank → ∀ n row, s'.db.auth.sessions n = some row →
      row.userId = e.userId → ∃ row₀, s.db.auth.sessions n = some row₀ ∧ row₀.Later row := by
    intro hrank n row hn hu
    rcases hchange.auth.session n row hn with hold | hfree
    · obtain ⟨row₀, hrow₀⟩ := Option.ne_none_iff_exists'.1 hold
      obtain ⟨row', hrow', hlater⟩ := hchange.auth.later.session n row₀ hrow₀
      obtain rfl := Option.some.inj (hn.symm.trans hrow')
      exact ⟨row₀, hrow₀, hlater⟩
    · rw [hu, huser hrank] at hfree
      cases hfree
  cases fact with
  | counted =>
    intro m hm hu
    rcases hchange.memberships m hm with ⟨m₀, hm₀, hu₀, ho₀⟩ | hnew
    · exact ho₀ ▸ h m₀ hm₀ (hu₀.trans hu)
    · exact hcounted m hnew hu
  | claimed =>
    obtain ⟨hlock, r, hr, hstatus⟩ := h
    have hheld : s.locks (.request e.requestId) ≠ none := by
      rw [hlock]
      exact nofun
    exact ⟨hlocks _ hlock, r, hchange.requests _ r hr (.inr hheld), hstatus⟩
  | renamed =>
    intro row hrow
    obtain ⟨row₀, hrow₀, hmono⟩ := hchange.identityTokens _ row hlt hrow
    exact (h row₀ hrow₀).imp_left hmono
  | locked => exact hlocks _ h
  | deleted kind =>
    intro n hn
    rcases hchange.credentials kind n _ hn with hold | ⟨hfree, -⟩
    · exact h n hold
    · rw [huser (le_trans (by decide) (Fact.six_le_rank_deleted kind))] at hfree
      cases hfree
  | scrubbed =>
    intro n row hn hu ho
    obtain ⟨row₀, hrow₀, hlater⟩ := hsession (by simp [Fact.rank]) n row hn hu
    exact h n row₀ hrow₀ (hlater.userId.symm.trans hu) (hlater.orgId.symm.trans ho)
  | revoked =>
    intro n row hn hu ho
    obtain ⟨row₀, hrow₀, hlater⟩ := hsession (by simp [Fact.rank]) n row hn hu
    exact (h n row₀ hrow₀ (hlater.userId.symm.trans hu)
      (hlater.orgId.symm.trans ho)).imp_left hlater.revoked

lemma ErasingOk.later {stage : Stage} {e : Erasing} (h : ErasingOk s i stage e)
    (htx : s.txs i = some (.erasing stage e)) (hchange : Change s s'.db s'.seq)
    (hlocks : ∀ row, s.locks row = some i → s'.locks row = some i) : ErasingOk s' i stage e where
  user_lt := h.user_lt.trans_le hchange.seq_le
  unwritten := h.unwritten
  facts fact hrank := by
    refine Fact.later (h.facts fact hrank) (fun m hnew hu => ?_) (fun hfive => ?_) h.user_lt hchange
      hlocks
    · exact hnew i stage e htx hu.symm (fact.rank_pos.trans hrank)
    · exact h.facts .locked (hfive.trans hrank)
  awaits hrank row hrow := by
    obtain ⟨row₀, hrow₀, hmono⟩ := hchange.identityTokens _ row h.user_lt hrow
    exact (h.awaits hrank row₀ hrow₀).imp_left hmono
  read token htoken := by
    obtain ⟨hlt, hread⟩ := h.read token htoken
    refine ⟨hlt.trans_le hchange.seq_le, fun hsome row hrow => ?_⟩
    obtain ⟨row₀, hrow₀, hmono⟩ := hchange.identityTokens _ row hlt hrow
    exact hmono (hread hsome row₀ hrow₀)
  name := h.name
  held n hn := hlocks _ (h.held n hn)
  revoked_held n hn := hlocks _ (h.revoked_held n hn)
  completed := h.completed

lemma Rotating.later {token : ℕ} {row : RefreshTokenRow} {session : SessionRow}
    (h : Rotating s i token row session) (hchange : Change s s'.db s'.seq)
    (hlocks : ∀ row, s.locks row = some i → s'.locks row = some i) :
    Rotating s' i token row session where
  locked := hlocks _ h.locked
  current := hchange.auth.locked _ _ i h.current h.locked
  live := h.live
  token := by
    obtain ⟨r, hr, hsame⟩ := h.token
    obtain ⟨r', hr', hsame'⟩ := hchange.auth.later.refreshToken _ r hr
    exact ⟨r', hr', hsame'.trans hsame⟩

/-- **What a transaction may rely on stays so** while it keeps its locks. -/
lemma TxOk.later {tx : Tx} (h : TxOk s i tx) (htx : s.txs i = some tx)
    (hchange : Change s s'.db s'.seq) (hlocks : ∀ row, s.locks row = some i → s'.locks row = some i)
    (hshares : ∀ u, (u, i) ∈ s.keyShares → (u, i) ∈ s'.keyShares) : TxOk s' i tx := by
  cases tx with
  | erasing stage e => exact ErasingOk.later h htx hchange hlocks
  | inserting userId ins =>
    obtain ⟨hshare, hlt, hok⟩ := h
    refine ⟨hshares _ hshare, hlt.trans_le hchange.seq_le, ?_⟩
    cases ins with
    | session row requestMeta signedOut userSession =>
      exact ⟨hok.1, fun n hn => hlocks _ (hok.2 n hn)⟩
    | _ => exact trivial
  | refreshing token row session requestMeta => exact Rotating.later h hchange hlocks
  | rotated token row session requestMeta rotatedAt =>
    exact ⟨Rotating.later h.1 hchange hlocks, hshares _ h.2⟩

/-- **What an erasure has left stays so.** -/
lemma ErasedOk.later {entry : Entry} {u : ℕ} (h : ErasedOk s entry u) (hmem : entry ∈ s.log)
    (herases : entry.Erases u) (hchange : Change s s'.db s'.seq) (hnow : s.now ≤ s'.now) :
    ErasedOk s' entry u where
  user_lt := h.user_lt.trans_le hchange.seq_le
  request := by
    obtain ⟨r, hr, hstatus⟩ := h.request
    exact ⟨r, hchange.requests _ r hr (.inl hstatus), hstatus⟩
  alone := h.alone
  credentials kind n hn := by
    rcases hchange.credentials kind n u hn with hold | ⟨-, hnot⟩
    · exact h.credentials kind n hold
    · exact hnot ⟨entry, hmem, herases⟩
  lt n hn := (h.lt n hn).trans_le hchange.seq_le
  revoked n hn := by
    obtain ⟨row, hrow, hrevoked⟩ := h.revoked n hn
    obtain ⟨row', hrow', hlater⟩ := hchange.auth.later.session n row hrow
    exact ⟨row', hrow', hlater.revoked hrevoked⟩
  sessionMeta n hn := by
    rcases hchange.sessionMeta n (h.lt n hn) with hold | hnew
    · rw [hold, h.sessionMeta n hn]
    · exact hnew
  successor n m hn hnm := by
    rcases hchange.auth.edge n m hnm with hold | hlive
    · exact h.successor n m hn hold
    · obtain ⟨row, hrow, hrevoked⟩ := h.revoked n hn
      rw [hlive row hrow] at hrevoked
      cases hrevoked
  token row hrow := by
    obtain ⟨row₀, hrow₀, hmono⟩ := hchange.identityTokens u row h.user_lt hrow
    exact hmono (h.token row₀ hrow₀)
  userSessions n row hn hu := by
    obtain ⟨row', hrow', hover⟩ := h.userSessions n row hn hu
    obtain ⟨row'', hrow'', hlater⟩ := hchange.auth.later.userSession n row' hrow'
    refine ⟨row'', hrow'', hover.imp hlater.revoked fun hexpired => ?_⟩
    rw [hlater.expiresAt]
    exact hexpired.trans hnow

/-! ### Names -/

/-- The identity tokens stay, and no execution has renamed more. -/
lemma Names.keep (h : Names s) (hdb : s'.db.identityTokens = s.db.identityTokens)
    (hold : ∀ j stage e, s'.txs j = some (.erasing stage e) → e.writes.aliases = [] ∨
      ∃ stage' e', s.txs j = some (.erasing stage' e') ∧ e'.writes.aliases = e.writes.aliases) :
    Names s' where
  address := by
    rw [hdb]
    exact h.address
  pseudonym := by
    rw [hdb]
    exact h.pseudonym
  drawn j stage e hj p hp := by
    rw [hdb]
    rcases hold j stage e hj with hnil | ⟨stage', e', hj', halias⟩
    · rw [hnil] at hp
      cases hp
    · exact h.drawn j stage' e' hj' p (halias ▸ hp)
  apart j k stage stage' e e' hj hk p hp q hq := by
    rcases hold j stage e hj with hnil | ⟨_, _, hj', halias⟩
    · rw [hnil] at hp
      cases hp
    rcases hold k stage' e' hk with hnil | ⟨_, _, hk', halias'⟩
    · rw [hnil] at hq
      cases hq
    exact h.apart j k _ _ _ _ hj' hk' p (halias ▸ hp) q (halias' ▸ hq)

/-! ### Moves of transactions -/

/-- A transaction goes on; nothing is committed. -/
lemma Inv.goOn (h : Inv s) (hdb : s'.db = s.db) (hseq : s'.seq = s.seq) (hnow : s'.now = s.now)
    (hlog : s'.log = s.log) (htxs : ∀ j, j ≠ i → s'.txs j = s.txs j)
    (hlocks : ∀ j, j ≠ i → ∀ row, s.locks row = some j → s'.locks row = some j)
    (hshares : ∀ j, j ≠ i → ∀ u, (u, j) ∈ s.keyShares → (u, j) ∈ s'.keyShares)
    (hmine : ∀ tx, s'.txs i = some tx → TxOk s' i tx) (hnames : Names s')
    (hapart : ∀ u j, (u, j) ∈ s'.keyShares → s'.locks (.user u) = none) : Inv s' := by
  have hchange : Change s s'.db s'.seq := by
    rw [hdb, hseq]
    exact .refl s
  refine ⟨?_, hnames, fun j tx hj => ?_, hapart, fun entry hentry u hu => ?_, ?_, ?_⟩
  · rw [hdb, hseq]
    exact h.numbered
  · by_cases hji : j = i
    · subst hji
      exact hmine tx hj
    · rw [htxs j hji] at hj
      exact (h.txs j tx hj).later hj hchange (hlocks j hji) (hshares j hji)
  · rw [hlog] at hentry
    exact (h.erased entry hentry u hu).later hentry hu hchange hnow.ge
  · rw [hlog]
    exact h.unchanged
  · rw [hlog]
    exact h.once

/-- An open transaction was open before another one ended. -/
lemma txs_of_endTx {tx : Tx} (h : (s.endTx i).txs j = some tx) : s.txs j = some tx := by
  by_cases hji : j = i
  · rw [hji, show (s.endTx i).txs i = none from Function.update_self ..] at h
    cases h
  · exact (Function.update_of_ne hji ..).symm.trans h

/-- The transaction ends, and nothing is committed. -/
lemma Inv.endTx (h : Inv s) : Inv (s.endTx i) := by
  have hlocks : ∀ row, (s.endTx i).locks row = if s.locks row = some i then none else s.locks row :=
    fun _ => rfl
  refine h.goOn (i := i) rfl rfl rfl rfl (fun j hj => Function.update_of_ne hj ..)
    (fun j hj row hrow => ?_) (fun j hj u hu => ?_) (fun tx htx => ?_) ?_ fun u j hu => ?_
  · rw [hlocks, hrow, if_neg fun heq => hj (Option.some.inj heq)]
  · exact List.mem_filter.2 ⟨hu, by simpa using hj⟩
  · rw [show (s.endTx i).txs i = none from Function.update_self ..] at htx
    cases htx
  · exact h.names.keep rfl fun j stage e hj => .inr ⟨stage, e, txs_of_endTx hj, rfl⟩
  · rw [hlocks, h.shares u j (List.mem_filter.1 hu).1, if_neg nofun]

/-- The tables change, and an execution may be logged. -/
lemma Inv.change (h : Inv s) (hchange : Change s s'.db s'.seq) (hnumbered : Numbered s'.db s'.seq)
    (hnames : Names s') (hnow : s.now ≤ s'.now) (htxs : s'.txs = s.txs)
    (hlocks : s'.locks = s.locks) (hshares : s'.keyShares = s.keyShares)
    (hlog : s'.log = s.log) : Inv s' where
  numbered := hnumbered
  names := hnames
  txs i tx hi := by
    rw [htxs] at hi
    refine (h.txs i tx hi).later hi hchange ?_ ?_
    · rw [hlocks]
      exact fun _ => id
    · rw [hshares]
      exact fun _ => id
  shares := by
    rw [hshares, hlocks]
    exact h.shares
  erased entry hentry u hu := by
    rw [hlog] at hentry
    exact (h.erased entry hentry u hu).later hentry hu hchange hnow
  unchanged := by
    rw [hlog]
    exact h.unchanged
  once := by
    rw [hlog]
    exact h.once

end Moves

end Erasure
