import ProjectVault.Erasure.Confined

/-!
What is known stays known until an execution commits.
-/

namespace Erasure

open Auth

variable {env : AuthEnv} {s s' : State} {i : ℕ}

/-! ### Statements of an execution -/

@[simp] lemma lock_nil (s : State) (i : ℕ) : s.lock i [] = s := by
  simp [State.lock]

/-- An execution that has written nothing and is nowhere knows nothing yet. -/
lemma ErasingOk.start {stage : Stage} {e : Erasing} (hlt : e.userId < s.seq)
    (hwrites : e.writes = .none) (hrank : stage.rank = 0) : ErasingOk s i stage e where
  user_lt := hlt
  unwritten _ := hwrites
  facts fact hfact := by
    have hpos := fact.rank_pos
    omega
  awaits h := by omega
  read token htoken := by
    cases stage with
    | drawing todo attempts => exact absurd hrank (by simp [Stage.rank])
    | updating tokenId todo name => exact absurd hrank (by simp [Stage.rank])
    | _ => cases htoken
  name tokenId todo name heq := by
    rw [heq] at hrank
    cases hrank
  held n hn := by
    rw [hwrites] at hn
    cases hn
  revoked_held n hn := by
    rw [hwrites] at hn
    cases hn
  completed u completedAt count heq := by
    rw [heq] at hrank
    cases hrank

/-- An execution goes on and locks free rows. -/
lemma Inv.setErasing (h : Inv s) {stage : Stage} {e : Erasing} {rows : List Row}
    (hfree : ∀ row ∈ rows, s.locks row = none)
    (hok : ErasingOk ((s.setTx i (.erasing stage e)).lock i rows) i stage e)
    (hnames : Names ((s.setTx i (.erasing stage e)).lock i rows))
    (huser : ∀ u, .user u ∈ rows → ∀ j, (u, j) ∉ s.keyShares) :
    Inv ((s.setTx i (.erasing stage e)).lock i rows) := by
  refine h.goOn (i := i) rfl rfl rfl rfl (fun j hj => Function.update_of_ne hj ..)
    (fun j _ row hrow => ?_) (fun j _ u hu => hu) (fun tx htx => ?_) hnames fun u j hu => ?_
  · have hnot : row ∉ rows := fun hmem => by
      rw [hfree row hmem] at hrow
      cases hrow
    simp [State.lock, State.setTx, hnot, hrow]
  · have hself : ((s.setTx i (.erasing stage e)).lock i rows).txs i = some (.erasing stage e) :=
      Function.update_self ..
    obtain rfl := Option.some.inj (hself.symm.trans htx)
    exact hok
  · have hnot : Row.user u ∉ rows := fun hmem => huser u hmem j hu
    simp [State.lock, State.setTx, hnot, h.shares u j hu]

/-- Nothing more is renamed. -/
lemma Names.setErasing (h : Names s) {stage : Stage} {e : Erasing} {rows : List Row}
    (halias : e.writes.aliases = [] ∨
      ∃ stage' e', s.txs i = some (.erasing stage' e') ∧ e'.writes.aliases = e.writes.aliases) :
    Names ((s.setTx i (.erasing stage e)).lock i rows) := by
  refine h.keep rfl fun j stage' e' hj => ?_
  by_cases hji : j = i
  · subst hji
    obtain ⟨rfl, rfl⟩ : stage = stage' ∧ e = e' := by
      simpa [State.lock, State.setTx] using hj
    exact halias
  · exact .inr ⟨stage', e', (Function.update_of_ne hji ..).symm.trans hj, rfl⟩

/-- A statement without a lock. -/
lemma Inv.setStage (h : Inv s) {stage stage' : Stage} {e e' : Erasing}
    (htx : s.txs i = some (.erasing stage e)) (halias : e.writes.aliases = e'.writes.aliases)
    (hok : ErasingOk (s.setTx i (.erasing stage' e')) i stage' e') :
    Inv (s.setTx i (.erasing stage' e')) := by
  have hlock : (s.setTx i (.erasing stage' e')).lock i [] = s.setTx i (.erasing stage' e') :=
    lock_nil ..
  rw [← hlock] at hok ⊢
  exact h.setErasing (fun _ hrow => nomatch hrow) hok
    (h.names.setErasing (.inr ⟨_, _, htx, halias⟩)) fun _ hrow => nomatch hrow

lemma lock_locks {s : State} {rows : List Row} {row : Row} :
    (s.lock i rows).locks row = if row ∈ rows then some i else s.locks row := rfl

/-- What it knows it knows still when it has locked free rows. -/
lemma ErasingOk.moved {stage : Stage} {e : Erasing} (h : ErasingOk s i stage e)
    (htx : s.txs i = some (.erasing stage e)) (tx : Tx) (rows : List Row) :
    ErasingOk ((s.setTx i tx).lock i rows) i stage e := by
  refine h.later htx (Change.refl s) fun row hrow => ?_
  rw [lock_locks]
  split
  · rfl
  · exact hrow

/-- Behind the identity tokens only facts matter. -/
lemma ErasingOk.late {stage stage' : Stage} {e e' : Erasing} (h : ErasingOk s i stage e)
    (hrank : 4 ≤ stage'.rank) (huser : e'.userId = e.userId)
    (hfacts : ∀ fact : Fact, fact.rank ≤ stage'.rank → fact.Holds s i e')
    (hheld : ∀ n ∈ e'.writes.scrubbed, s.locks (.session n) = some i)
    (hrevoked : ∀ n ∈ e'.writes.revoked, s.locks (.session n) = some i)
    (hcompleted : ∀ u completedAt count, stage' = .returned (.completed u completedAt count) →
      u = e'.userId ∧ e'.writes.status = some .completed) : ErasingOk s i stage' e' where
  user_lt := huser ▸ h.user_lt
  unwritten hone := by omega
  facts := hfacts
  awaits hthree := by omega
  read token htoken := by
    cases stage' with
    | drawing todo attempts => exact absurd hrank (by simp [Stage.rank])
    | updating tokenId todo name => exact absurd hrank (by simp [Stage.rank])
    | _ => cases htoken
  name tokenId todo name heq := by
    rw [heq] at hrank
    exact absurd hrank (by simp [Stage.rank])
  held := hheld
  revoked_held := hrevoked
  completed := hcompleted

section Statements

variable {e : Erasing}

/-- A statement of the late stages without a lock. -/
lemma late_inv {stage stage' : Stage} {e' : Erasing} (h : Inv s)
    (htx : s.txs i = some (.erasing stage e)) (hrank : 4 ≤ stage'.rank)
    (huser : e'.userId = e.userId) (halias : e'.writes.aliases = e.writes.aliases)
    (hfacts : ∀ fact : Fact, fact.rank ≤ stage'.rank → fact.Holds s i e')
    (hheld : ∀ n ∈ e'.writes.scrubbed, s.locks (.session n) = some i)
    (hrevoked : ∀ n ∈ e'.writes.revoked, s.locks (.session n) = some i)
    (hcompleted : ∀ u completedAt count, stage' = .returned (.completed u completedAt count) →
      u = e'.userId ∧ e'.writes.status = some .completed) :
    Inv (s.setTx i (.erasing stage' e')) := by
  refine h.setStage htx halias.symm ?_
  have hok := ErasingOk.late (h.txs i _ htx) hrank huser hfacts hheld hrevoked hcompleted
  exact ⟨hok.user_lt, hok.unwritten, hok.facts, hok.awaits, hok.read, hok.name, hok.held,
    hok.revoked_held, hok.completed⟩

/-- Another execution has ended. -/
lemma Inv.addEntry (h : Inv s) (entry : Entry)
    (herased : ∀ u, entry.Erases u → ErasedOk s entry u)
    (hunchanged : (∀ u, ¬entry.Erases u) → entry.after = entry.before)
    (honce : ∀ earlier ∈ s.log, ∀ u v, entry.Erases u → earlier.Erases v →
      entry.requestId ≠ earlier.requestId) : Inv { s with log := entry :: s.log } where
  numbered := h.numbered
  names := h.names.keep rfl fun _ stage e hj => .inr ⟨stage, e, hj, rfl⟩
  txs j tx hj := (h.txs j tx hj).later hj (.refl s) (fun _ => id) fun _ => id
  shares := h.shares
  erased earlier hearlier u hu := by
    have hok : ErasedOk s earlier u := by
      rcases List.mem_cons.1 hearlier with rfl | hold
      · exact herased u hu
      · exact h.erased earlier hold u hu
    exact ⟨hok.user_lt, hok.request, hok.alone, hok.credentials, hok.lt, hok.revoked,
      hok.sessionMeta, hok.successor, hok.token, hok.userSessions⟩
  unchanged earlier hearlier hnone := by
    rcases List.mem_cons.1 hearlier with rfl | hold
    · exact hunchanged hnone
    · exact h.unchanged earlier hold hnone
  once := List.pairwise_cons.2 ⟨honce, h.once⟩

/-- An execution that knows nothing yet. -/
lemma start_inv {stage : Stage} (h : Inv s) (hlt : e.userId < s.seq) (hwrites : e.writes = .none)
    (hrank : stage.rank = 0) : Inv (s.setTx i (.erasing stage e)) := by
  have hlock : (s.setTx i (.erasing stage e)).lock i [] = s.setTx i (.erasing stage e) :=
    lock_nil ..
  rw [← hlock]
  exact h.setErasing (fun _ hrow => nomatch hrow) (.start hlt hwrites hrank)
    (h.names.setErasing (.inl (by rw [hwrites]; rfl))) fun _ hrow => nomatch hrow

lemma execute_inv {requestId orgId : ℕ} (h : Inv s)
    (hstep : execute s i requestId orgId = some s') : Inv s' := by
  unfold execute at hstep
  split at hstep
  · cases hstep
  split at hstep
  · cases hstep
    refine h.addEntry _ ?_ (fun _ => rfl) ?_
    · rintro u ⟨completedAt, count, heq⟩
      cases heq
    · rintro earlier - u v ⟨completedAt, count, heq⟩
      cases heq
  rename_i existing hexisting
  have hlt : existing.userId < s.seq :=
    h.numbered.requester _ _ (Option.filter_eq_some_iff.1 hexisting).1
  simp only at hstep
  split at hstep
  · cases hstep
    exact start_inv h hlt rfl rfl
  · cases hstep
    exact h
  · cases hstep
    exact start_inv h hlt rfl rfl

lemma count_inv (h : Inv s) (htx : s.txs i = some (.erasing .counting e))
    (hcount : ¬0 < s.db.countOtherOrgMemberships e.userId e.orgId) :
    Inv (s.setTx i (.erasing .claiming e)) := by
  have hok : ErasingOk s i .counting e := h.txs i _ htx
  refine h.setStage htx rfl ⟨hok.user_lt, fun _ => hok.unwritten (by decide), ?_,
    (fun heq => nomatch heq), (fun _ htoken => nomatch htoken), (fun _ _ _ heq => nomatch heq),
    hok.held, hok.revoked_held, fun _ _ _ heq => nomatch heq⟩
  refine forall_facts_succ .counted rfl (fun fact hfact => ?_) fun m hm hu => ?_
  · have hpos := fact.rank_pos
    omega
  · rw [Tables.countOtherOrgMemberships, List.countP_pos_iff, not_exists] at hcount
    by_contra hne
    exact hcount m ⟨hm, by simpa using ⟨hu, hne⟩⟩

lemma claim_inv (h : Inv s) (htx : s.txs i = some (.erasing .claiming e))
    (hstep : claim s i e = some s') : Inv s' := by
  have hok : ErasingOk s i .claiming e := h.txs i _ htx
  have hwrites := hok.unwritten le_rfl
  unfold claim at hstep
  split_ifs at hstep with hfree
  split at hstep
  · cases hstep
    exact start_inv h hok.user_lt hwrites rfl
  rename_i row hrow
  split at hstep
  · cases hstep
    rename_i hstatus
    have hmoved := hok.moved htx (.erasing .reading
      { e with writes := { e.writes with status := some .inProgress } }) [.request e.requestId]
    refine h.setErasing (fun row hrow => ?_) ⟨hmoved.user_lt, fun hle => ?_, ?_,
      (fun heq => nomatch heq), (fun _ htoken => nomatch htoken), (fun _ _ _ heq => nomatch heq),
      hmoved.held, hmoved.revoked_held, fun _ _ _ heq => nomatch heq⟩
      (h.names.setErasing (.inr ⟨_, _, htx, rfl⟩)) fun u hu => ?_
    · rw [List.mem_singleton.1 hrow, not_not.1 hfree]
    · exact absurd hle (by decide)
    · refine forall_facts_succ .claimed rfl (fun fact hfact => ?_)
        ⟨if_pos (List.mem_singleton_self _), row, hrow, hstatus⟩
      have hold := hmoved.facts fact hfact
      cases fact <;> exact hold
    · exact nomatch List.mem_singleton.1 hu
  · cases hstep
    exact start_inv h hok.user_lt hwrites rfl
  · cases hstep
    exact h.endTx
  · cases hstep
    exact start_inv h hok.user_lt hwrites rfl

lemma mem_identityTokensOf {seq u : ℕ} {token : ℕ × IdentityToken} {db : Tables} :
    token ∈ db.identityTokensOf seq u ↔
      token.1 < seq ∧ db.identityTokens token.1 = some token.2 ∧ token.2.userId = u := by
  obtain ⟨n, row⟩ := token
  simp only [Tables.identityTokensOf, List.mem_filterMap, List.mem_range, Option.bind_eq_some_iff]
  constructor
  · rintro ⟨m, hm, row', hrow', heq⟩
    split_ifs at heq with hu
    cases heq
    exact ⟨hm, hrow', hu⟩
  · rintro ⟨hlt, hrow, hu⟩
    exact ⟨n, hlt, row, hrow, if_pos hu⟩

lemma tokens_inv {stage stage' : Stage} (h : Inv s) (htx : s.txs i = some (.erasing stage e))
    (hrank : 2 ≤ stage.rank) (hrank' : stage'.rank = 3)
    (hawaits : ∀ row, s.db.identityTokens e.userId = some row →
      row.pseudonymizedAt.isSome = true ∨ (∃ p ∈ e.writes.aliases, p.tokenId = e.userId) ∨
        stage'.Awaits e.userId)
    (hread : ∀ token ∈ stage'.ahead, token.1 < s.seq ∧ (token.2.pseudonymizedAt.isSome = true →
      ∀ row, s.db.identityTokens token.1 = some row → row.pseudonymizedAt.isSome = true))
    (hname : ∀ tokenId todo name, stage' = .updating tokenId todo name →
      ∃ draw, name = generatePseudonymAlias draw) : Inv (s.setTx i (.erasing stage' e)) := by
  have hok : ErasingOk s i stage e := h.txs i _ htx
  refine h.setStage htx rfl ⟨hok.user_lt, fun hle => ?_, fun fact hfact => ?_, fun _ => hawaits,
    hread, hname, hok.held, hok.revoked_held, fun _ _ _ heq => ?_⟩
  · omega
  · rw [hrank'] at hfact
    refine hok.facts fact ?_
    have hthree := fact.rank_ne_three
    omega
  · rw [heq] at hrank'
    cases hrank'

lemma read_inv (h : Inv s) (htx : s.txs i = some (.erasing .reading e)) :
    Inv (s.setTx i (.erasing (.drawing (s.db.identityTokensOf s.seq e.userId) 0) e)) := by
  have hok : ErasingOk s i .reading e := h.txs i _ htx
  refine tokens_inv h htx le_rfl rfl (fun row hrow => .inr (.inr ?_)) (fun token htoken => ?_)
    fun _ _ _ heq => nomatch heq
  · refine List.mem_map.2 ⟨(e.userId, row), mem_identityTokensOf.2 ⟨hok.user_lt, hrow, ?_⟩, rfl⟩
    exact h.numbered.owner _ _ hrow
  · obtain ⟨hlt, hrow, -⟩ := mem_identityTokensOf.1 htoken
    refine ⟨hlt, fun hsome row' hrow' => ?_⟩
    obtain rfl := Option.some.inj (hrow.symm.trans hrow')
    exact hsome

lemma draw_inv {todo : List (ℕ × IdentityToken)} {attempts : ℕ} {drawn : AliasDraw} (h : Inv s)
    (htx : s.txs i = some (.erasing (.drawing todo attempts) e))
    (hstep : draw s i e todo attempts (generatePseudonymAlias drawn) = some s') : Inv s' := by
  have hok : ErasingOk s i (.drawing todo attempts) e := h.txs i _ htx
  unfold draw at hstep
  split at hstep
  · cases hstep
    refine late_inv h htx le_rfl rfl rfl ?_ hok.held hok.revoked_held fun _ _ _ heq => nomatch heq
    refine forall_facts_succ .renamed rfl (fun fact hfact => hok.facts fact hfact)
      fun row hrow => ?_
    rcases hok.awaits rfl row hrow with hsome | hnamed | hawaits
    · exact .inl hsome
    · exact .inr hnamed
    · cases hawaits
  rename_i tokenId row rest
  have hrest : ∀ token ∈ rest, token.1 < s.seq ∧ (token.2.pseudonymizedAt.isSome = true →
      ∀ row, s.db.identityTokens token.1 = some row → row.pseudonymizedAt.isSome = true) :=
    fun token htoken => hok.read token (List.mem_cons_of_mem _ htoken)
  split at hstep
  · rename_i hsome
    cases hstep
    refine tokens_inv h htx (by simp [Stage.rank]) rfl (fun row' hrow' => ?_) hrest
      fun _ _ _ heq => nomatch heq
    rcases hok.awaits rfl row' hrow' with hdone | hnamed | hawaits
    · exact .inl hdone
    · exact .inr (.inl hnamed)
    · rcases List.mem_cons.1 hawaits with heq | hmem
      · rw [heq] at hrow'
        exact .inl ((hok.read _ List.mem_cons_self).2 hsome row' hrow')
      · exact .inr (.inr hmem)
  split at hstep
  · cases hstep
    exact h.endTx
  split at hstep
  · cases hstep
    exact tokens_inv h htx (by simp [Stage.rank]) rfl (hok.awaits rfl) hok.read
      fun _ _ _ heq => nomatch heq
  · cases hstep
    refine tokens_inv h htx (by simp [Stage.rank]) rfl (fun row' hrow' => ?_) hrest
      fun tokenId' todo' name' heq => ⟨drawn, (Stage.updating.inj heq).2.2.symm⟩
    refine (hok.awaits rfl row' hrow').imp_right fun hrest => hrest.imp_right fun hawaits => ?_
    exact List.mem_cons.1 hawaits

/-- A name that no other identity token bears may be written. -/
lemma Names.rename {stage stage' : Stage} {e' : Erasing} {p : Pseudonym} {rows : List Row}
    (h : Names s) (htx : s.txs i = some (.erasing stage e))
    (halias : e'.writes.aliases = e.writes.aliases ++ [p])
    (hname : ∃ draw, p.displayName = generatePseudonymAlias draw)
    (hborne : Unborne s p.tokenId p.displayName) :
    Names ((s.setTx i (.erasing stage' e')).lock i rows) := by
  -- the names drawn: the old ones and the new one
  have hcases : ∀ j stage'' e'', ((s.setTx i (.erasing stage' e')).lock i rows).txs j =
      some (.erasing stage'' e'') → ∀ q ∈ e''.writes.aliases, q = p ∨
        ∃ stage₀ e₀, s.txs j = some (.erasing stage₀ e₀) ∧ q ∈ e₀.writes.aliases := by
    intro j stage'' e'' hj q hq
    by_cases hji : j = i
    · subst hji
      obtain ⟨rfl, rfl⟩ : stage' = stage'' ∧ e' = e'' := by
        simpa [State.lock, State.setTx] using hj
      rw [halias] at hq
      rcases List.mem_append.1 hq with hold | hnew
      · exact .inr ⟨_, _, htx, hold⟩
      · exact .inl (List.mem_singleton.1 hnew)
    · exact .inr ⟨stage'', e'', (Function.update_of_ne hji ..).symm.trans hj, hq⟩
  refine ⟨h.address, h.pseudonym, fun j stage'' e'' hj q hq => ?_,
    fun j k _ _ _ _ hj hk q hq r hr hqr => ?_⟩
  · rcases hcases j stage'' e'' hj q hq with rfl | ⟨stage₀, e₀, hj₀, hold⟩
    · exact ⟨hname, hborne.1⟩
    · exact h.drawn j stage₀ e₀ hj₀ q hold
  · rcases hcases j _ _ hj q hq with rfl | ⟨_, _, hj₀, hq₀⟩
    · rcases hcases k _ _ hk r hr with rfl | ⟨_, _, hk₀, hr₀⟩
      · rfl
      · exact (hborne.2 k _ _ hk₀ r hr₀ hqr.symm).symm
    · rcases hcases k _ _ hk r hr with rfl | ⟨_, _, hk₀, hr₀⟩
      · exact hborne.2 j _ _ hj₀ q hq₀ hqr
      · exact h.apart j k _ _ _ _ hj₀ hk₀ q hq₀ r hr₀ hqr

lemma rename_inv {tokenId : ℕ} {todo : List (ℕ × IdentityToken)} {name : String} (h : Inv s)
    (htx : s.txs i = some (.erasing (.updating tokenId todo name) e))
    (hborne : Unborne s tokenId name) (hstep : rename s i e tokenId todo name = some s') :
    Inv s' := by
  have hok : ErasingOk s i (.updating tokenId todo name) e := h.txs i _ htx
  unfold rename at hstep
  split_ifs at hstep with hfree
  split at hstep
  · rename_i hnone
    cases hstep
    refine tokens_inv h htx (by simp [Stage.rank]) rfl (fun row hrow => ?_) hok.read
      fun _ _ _ heq => by cases heq
    refine (hok.awaits rfl row hrow).imp_right fun hrest => hrest.imp_right fun hawaits => ?_
    rcases hawaits with heq | hmem
    · rw [heq, hnone] at hrow
      cases hrow
    · exact hmem
  split at hstep
  · cases hstep
    exact h.endTx
  cases hstep
  have hmoved := hok.moved htx (.erasing (.drawing todo 0) { e with writes := { e.writes with
    aliases := e.writes.aliases ++ [⟨tokenId, name, s.now⟩] } }) [.identityToken tokenId]
  refine h.setErasing (fun row hrow => ?_) ⟨hmoved.user_lt, fun hle => ?_, fun fact hfact => ?_,
    fun _ row hrow => ?_, hmoved.read, (fun _ _ _ heq => by cases heq), hmoved.held,
    hmoved.revoked_held, fun _ _ _ heq => by cases heq⟩
    (h.names.rename htx rfl (hok.name _ _ _ rfl) hborne) fun u hu => ?_
  · rw [List.mem_singleton.1 hrow, not_not.1 hfree]
  · exact absurd hle (by simp [Stage.rank])
  · have hold := hmoved.facts fact hfact
    cases fact with
    | renamed => exact absurd hfact (by simp [Fact.rank, Stage.rank])
    | _ => exact hold
  · rcases hok.awaits rfl row hrow with hdone | ⟨p, hp, hid⟩ | hawaits
    · exact .inl hdone
    · exact .inr (.inl ⟨p, List.mem_append_left _ hp, hid⟩)
    · rcases hawaits with heq | hmem
      · exact .inr (.inl ⟨_, List.mem_append_right _ (List.mem_singleton_self _), heq.symm⟩)
      · exact .inr (.inr hmem)
  · cases List.mem_singleton.1 hu

lemma overwrite_inv {email passwordHash : String} (h : Inv s)
    (htx : s.txs i = some (.erasing .overwriting e))
    (hstep : overwrite s i e email passwordHash = some s') : Inv s' := by
  unfold overwrite at hstep
  split at hstep
  · cases hstep
  rename_i hfree
  split at hstep
  · cases hstep
    exact h.endTx
  cases hstep
  simp only [ne_eq, not_or, not_not, Bool.not_eq_true, List.any_eq_false, decide_eq_true_eq]
    at hfree
  obtain ⟨hlock, hshares⟩ := hfree
  have hok := ErasingOk.moved (h.txs i _ htx) htx (.erasing (.deleting .enrollment)
    { e with writes := { e.writes with user := some ⟨email, passwordHash, none⟩ } })
    [.user e.userId]
  refine h.setErasing (fun row hrow => ?_) (hok.late (by decide) rfl ?_ hok.held hok.revoked_held
    fun _ _ _ heq => nomatch heq) (h.names.setErasing (.inr ⟨_, _, htx, rfl⟩)) ?_
  · rw [List.mem_singleton.1 hrow, hlock]
  · refine forall_facts_succ .locked rfl (fun fact hfact => ?_) (if_pos (List.mem_singleton_self _))
    have hold := hok.facts fact hfact
    cases fact <;> exact hold
  · rintro u hu j hj
    obtain rfl := Row.user.inj (List.mem_singleton.1 hu)
    exact hshares _ hj rfl

lemma delete_inv {kind : Credential} (h : Inv s)
    (htx : s.txs i = some (.erasing (.deleting kind) e)) :
    Inv (s.setTx i (.erasing (afterDeleting kind) (deleteOf s e kind))) := by
  have hok : ErasingOk s i (.deleting kind) e := h.txs i _ htx
  have hrank : (afterDeleting kind).rank = (Stage.deleting kind).rank + 1 := by cases kind <;> rfl
  have hkind : (Fact.deleted kind).rank = (Stage.deleting kind).rank + 1 := by cases kind <;> rfl
  refine late_inv h htx (by cases kind <;> decide) rfl rfl ?_ hok.held hok.revoked_held ?_
  · rw [hrank]
    refine forall_facts_succ (.deleted kind) hkind (fun fact hfact => ?_) fun n hn => ?_
    · have hold := hok.facts fact hfact
      cases fact with
      | deleted kind' =>
        have hne : kind' ≠ kind := by
          rintro rfl
          omega
        intro n hn
        simp only [deleteOf, Function.update_of_ne hne]
        exact hold n hn
      | _ => exact hold
    · simp only [deleteOf, Function.update_self, List.mem_filter, List.mem_range, decide_eq_true_eq]
      exact ⟨lt_of_eq_some (h.numbered.credentials kind) hn, hn⟩
  · cases kind <;> exact fun _ _ _ heq => nomatch heq

/-- The sessions of the user in the organization are those the statement selects. -/
lemma mem_sessionsInOrg (h : Inv s) {u o n : ℕ} :
    n ∈ s.db.sessionsInOrg s.seq u o ↔
      ∃ row, s.db.auth.sessions n = some row ∧ row.userId = u ∧ row.orgId = o := by
  simp only [Tables.sessionsInOrg, List.mem_filter, List.mem_range, Option.any_eq_true,
    decide_eq_true_eq]
  refine ⟨fun hn => hn.2, fun hrow => ⟨?_, hrow⟩⟩
  obtain ⟨row, hrow, -⟩ := hrow
  exact lt_of_eq_some h.numbered.auth.sessions hrow

lemma scrub_inv (h : Inv s) (htx : s.txs i = some (.erasing .scrubbing e))
    (hstep : scrub s i e = some s') : Inv s' := by
  simp only [scrub] at hstep
  split at hstep
  swap
  · cases hstep
  rename_i hfree
  cases hstep
  have hok := ErasingOk.moved (h.txs i _ htx) htx (.erasing .revoking { e with
    writes := { e.writes with scrubbed := s.db.sessionsInOrg s.seq e.userId e.orgId } })
    ((s.db.sessionsInOrg s.seq e.userId e.orgId).map .session)
  refine h.setErasing (fun row hrow => ?_) (hok.late (by decide) rfl ?_ ?_ hok.revoked_held
    fun _ _ _ heq => nomatch heq) (h.names.setErasing (.inr ⟨_, _, htx, rfl⟩)) ?_
  · exact of_decide_eq_true (List.all_eq_true.1 hfree row hrow)
  · refine forall_facts_succ .scrubbed rfl (fun fact hfact => ?_) fun n row hn hu ho =>
      (mem_sessionsInOrg h).2 ⟨row, hn, hu, ho⟩
    have hold := hok.facts fact hfact
    cases fact with
    | scrubbed => exact absurd hfact (by decide)
    | _ => exact hold
  · exact fun n hn => if_pos (List.mem_map_of_mem hn)
  · intro u hu
    simp at hu

lemma revoke_inv (h : Inv s) (htx : s.txs i = some (.erasing .revoking e)) :
    Inv (revoke s i e) := by
  have hok : ErasingOk s i .revoking e := h.txs i _ htx
  refine late_inv h htx (by decide) rfl rfl ?_ hok.held ?_ fun _ _ _ heq => nomatch heq
  · refine forall_facts_succ .revoked rfl (fun fact hfact => ?_) fun n row hn hu ho => ?_
    · have hold := hok.facts fact hfact
      cases fact with
      | revoked => exact absurd hfact (by decide)
      | _ => exact hold
    · by_cases hrevoked : row.revokedAt.isSome = true
      · exact .inl hrevoked
      · refine .inr (List.mem_filter.2 ⟨(mem_sessionsInOrg h).2 ⟨row, hn, hu, ho⟩, ?_⟩)
        rw [hn]
        simpa using hrevoked
  · intro n hn
    obtain ⟨row, hrow, hu, ho⟩ := (mem_sessionsInOrg h).1 (List.mem_filter.1 hn).1
    exact hok.held n (hok.facts .scrubbed le_rfl n row hrow hu ho)

lemma complete_inv (h : Inv s) (htx : s.txs i = some (.erasing .completing e)) :
    Inv (complete s i e) := by
  have hok : ErasingOk s i .completing e := h.txs i _ htx
  refine late_inv h htx (by simp [Stage.rank]) rfl rfl ?_ hok.held hok.revoked_held ?_
  · intro fact _
    have hold := hok.facts fact fact.rank_le
    cases fact <;> exact hold
  · rintro u completedAt count heq
    obtain ⟨rfl, -, -⟩ : e.userId = u ∧ s.now = completedAt ∧ e.writes.revoked.length = count := by
      simpa using heq
    exact ⟨rfl, rfl⟩

lemma erase_inv {drawn : Drawn} (h : Inv s) (hok : Sound s (.erase i drawn))
    (hstep : erase s i drawn = some s') : Inv s' := by
  unfold erase at hstep
  split at hstep
  swap
  · cases hstep
  rename_i stage e htx
  have hlt : e.userId < s.seq := (h.txs i _ htx).user_lt
  cases stage with
  | counting =>
    simp only at hstep
    split at hstep
    · cases hstep
      exact start_inv h hlt ((h.txs i _ htx).unwritten (by decide)) rfl
    · rename_i hcount
      cases hstep
      exact count_inv h htx hcount
  | claiming => exact claim_inv h htx hstep
  | reading =>
    cases hstep
    exact read_inv h htx
  | drawing todo attempts => exact draw_inv h htx hstep
  | updating tokenId todo name => exact rename_inv h htx (hok tokenId todo name e htx) hstep
  | overwriting => exact overwrite_inv h htx hstep
  | deleting kind =>
    cases hstep
    exact delete_inv h htx
  | scrubbing => exact scrub_inv h htx hstep
  | revoking =>
    cases hstep
    exact revoke_inv h htx
  | completing =>
    cases hstep
    exact complete_inv h htx
  | returned outcome => cases hstep

end Statements

/-! ### Other requests -/

/-- The tables of sign-in change. -/
lemma Inv.setAuth (h : Inv s) {auth : AuthDb} {seq : ℕ} (hmove : AuthMove s.locks s.db.auth auth)
    (hnumbered : AuthNumbered auth seq) (hseq : s.seq ≤ seq) :
    Inv (s.setDb { s.db with auth } seq) := by
  refine h.change (.ofAuth hmove hseq) ?_
    (h.names.keep rfl fun _ stage e hj => .inr ⟨stage, e, hj, rfl⟩) le_rfl rfl rfl rfl rfl
  exact ⟨hnumbered, fun n hn => h.numbered.users n (hseq.trans hn),
    fun n hn => h.numbered.identityTokens n (hseq.trans hn),
    fun kind n hn => h.numbered.credentials kind n (hseq.trans hn),
    fun n hn => h.numbered.requests n (hseq.trans hn), h.numbered.owner,
    fun n r hr => (h.numbered.requester n r hr).trans_le hseq⟩

/-- A transaction that is not an execution goes on. -/
lemma Names.setOther (h : Names s) {tx : Tx} (hdb : s'.db.identityTokens = s.db.identityTokens)
    (htxs : s'.txs = Function.update s.txs i (some tx)) (htx : ∀ stage e, tx ≠ .erasing stage e) :
    Names s' := by
  refine h.keep hdb fun j stage e hj => ?_
  rw [htxs] at hj
  by_cases hji : j = i
  · rw [hji, Function.update_self] at hj
    exact absurd (Option.some.inj hj) (htx stage e)
  · rw [Function.update_of_ne hji] at hj
    exact .inr ⟨stage, e, hj, rfl⟩

lemma Numbered.user_lt {db : Tables} {seq u : ℕ} (h : Numbered db seq)
    (hu : (db.users u).isSome = true) : u < seq := by
  obtain ⟨row, hrow⟩ := Option.isSome_iff_exists.1 hu
  exact lt_of_eq_some h.users hrow

lemma insert_inv {u : ℕ} {ins : Insert} (ids : List ℕ) (h : Inv s)
    (hins : ∀ s' : State, (∀ n ∈ ids, s'.locks (.session n) = some i) → ins.Ok s' i u)
    (hstep : insert s i u ins (ids.map .session) = some s') : Inv s' := by
  unfold insert at hstep
  split at hstep
  swap
  · cases hstep
  rename_i hguard
  obtain ⟨-, huser, hlock, hfree⟩ := hguard
  cases hstep
  have hfree' : ∀ row ∈ ids.map Row.session, s.locks row = none := fun row hrow =>
    of_decide_eq_true (List.all_eq_true.1 hfree row hrow)
  refine h.goOn (i := i) rfl rfl rfl rfl (fun j hj => Function.update_of_ne hj ..)
    (fun j _ row hrow => ?_) (fun j _ u' hu' => List.mem_cons_of_mem _ hu') (fun tx htx => ?_)
    (h.names.setOther rfl rfl fun _ _ heq => nomatch heq) fun u' j hu' => ?_
  · have hnot : row ∉ ids.map Row.session := fun hmem => by
      rw [hfree' row hmem] at hrow
      cases hrow
    exact (if_neg hnot).trans hrow
  · obtain rfl : Tx.inserting u ins = tx := by simpa [State.lock, State.setTx] using htx
    exact ⟨List.mem_cons_self, h.numbered.user_lt huser, hins _ fun n hn =>
      if_pos (List.mem_map_of_mem hn)⟩
  · have hnone : s.locks (.user u') = none := by
      rcases List.mem_cons.1 hu' with heq | hold
      · cases heq
        exact hlock
      · exact h.shares u' j hold
    exact (if_neg (by simp)).trans hnone

lemma refresh_inv {token : ℕ} {requestMeta : RequestMeta} (h : Inv s)
    (hstep : refresh env s i token requestMeta = some s') : Inv s' := by
  unfold refresh at hstep
  split at hstep
  swap
  · cases hstep
  rename_i row _ hrow
  split_ifs at hstep with hfree
  rw [not_not] at hfree
  split at hstep
  · cases hstep
    exact h
  rename_i session hsession
  split at hstep
  · cases hstep
    exact h
  · cases hstep
    exact h
  · cases hstep
    refine h.setAuth (authMove_revokeSessions fun n hn => ?_) h.numbered.auth.revokeSessions le_rfl
    rw [List.mem_singleton.1 hn, hfree]
  · rename_i hrotates
    cases hstep
    refine h.goOn (i := i) rfl rfl rfl rfl (fun j hj => Function.update_of_ne hj ..)
      (fun j _ row' hrow' => ?_) (fun j _ u hu => hu) (fun tx htx => ?_)
      (h.names.setOther rfl rfl fun _ _ heq => nomatch heq) fun u j hu => ?_
    · have hnot : row' ∉ [Row.session row.sessionId] := fun hmem => by
        rw [List.mem_singleton.1 hmem, hfree] at hrow'
        cases hrow'
      exact (if_neg hnot).trans hrow'
    · obtain rfl : Tx.refreshing token row session requestMeta = tx := by
        simpa [State.lock, State.setTx] using htx
      exact ⟨if_pos (List.mem_singleton_self _), hsession, (refreshSession_rotates hrotates).1, row,
        hrow, rfl⟩
    · rw [lock_locks, if_neg (by simp)]
      exact h.shares u j hu

lemma rotate_inv (h : Inv s) (hstep : rotate s i = some s') : Inv s' := by
  unfold rotate at hstep
  split at hstep
  swap
  · cases hstep
  rename_i token row session requestMeta htx
  split_ifs at hstep with hfree
  rw [not_not] at hfree
  cases hstep
  refine h.goOn (i := i) rfl rfl rfl rfl (fun j hj => Function.update_of_ne hj ..)
    (fun j _ row' hrow' => hrow') (fun j _ u hu => List.mem_cons_of_mem _ hu) (fun tx htx' => ?_)
    (h.names.setOther rfl rfl fun _ _ heq => nomatch heq) fun u j hu => ?_
  · obtain rfl : Tx.rotated token row session requestMeta s.now = tx := by
      simpa [State.setTx] using htx'
    have hok : Rotating s i token row session := h.txs i _ htx
    exact ⟨⟨hok.locked, hok.current, hok.live, hok.token⟩, List.mem_cons_self⟩
  · rcases List.mem_cons.1 hu with heq | hold
    · cases heq
      exact hfree
    · exact h.shares u j hold

end Erasure
