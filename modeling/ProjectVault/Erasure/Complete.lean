import ProjectVault.Erasure.Commits

/-!
Erasures are complete and confined behind sound steps.
-/

namespace Erasure

open Auth

variable {env : AuthEnv} {s s' : State} {i : ℕ}

/-! ### Runs -/

lemma step_inv {a : Label} (h : Inv s) (hsound : Sound s a) (hstep : step env s a = some s') :
    Inv s' := by
  cases a with
  | execute i requestId orgId => exact execute_inv h hstep
  | erase i drawn => exact erase_inv h hsound hstep
  | login i userId orgId ttl requestMeta choice userSession =>
    refine insert_inv _ h ?_ hstep
    exact fun _ hlocked => ⟨rfl, hlocked⟩
  | join i userId orgId =>
    refine insert_inv [] h ?_ hstep
    exact fun _ _ => trivial
  | issueUserSession i userId =>
    refine insert_inv [] h ?_ hstep
    exact fun _ _ => trivial
  | insertCredentials i userId kind count =>
    refine insert_inv [] h ?_ hstep
    exact fun _ _ => trivial
  | createErasureRequest i userId orgId =>
    simp only [step] at hstep
    split_ifs at hstep
    refine insert_inv [] h ?_ hstep
    exact fun _ _ => trivial
  | refresh i token requestMeta => exact refresh_inv h hstep
  | rotate i => exact rotate_inv h hstep
  | commit i => exact commit_inv h hsound hstep
  | rollback i =>
    cases hstep
    exact h.endTx
  | register email passwordHash orgId => exact register_inv h hstep
  | pseudonymizeUser userId draw => exact pseudonymizeUser_inv h hsound hstep
  | leave userId orgId =>
    cases hstep
    exact memberships_inv h fun m hm => ⟨m, List.mem_of_mem_filter hm, rfl, rfl⟩
  | setStatus userId orgId active =>
    cases hstep
    refine memberships_inv h fun m hm => ?_
    obtain ⟨m₀, hm₀, rfl⟩ := List.mem_map.1 hm
    refine ⟨m₀, hm₀, ?_⟩
    split <;> exact ⟨rfl, rfl⟩
  | deleteCredentials kind ids =>
    cases hstep
    exact deleteCredentials_inv h
  | touchSession n =>
    simp only [step] at hstep
    split_ifs at hstep with hfree
    cases hstep
    refine h.setAuth (authMove_touchSession ?_) h.numbered.auth.touchSession le_rfl
    simpa [State.unlocked] using hfree
  | revokeSessions ids =>
    simp only [step] at hstep
    split_ifs at hstep with hfree
    cases hstep
    refine h.setAuth (authMove_revokeSessions fun n hn => ?_) h.numbered.auth.revokeSessions
      le_rfl
    exact of_decide_eq_true (List.all_eq_true.1 hfree _ (List.mem_map_of_mem hn))
  | verifyUserSession claims => exact verifyUserSession_inv h hstep
  | refreshUserSession token => exact refreshUserSession_inv h hstep
  | revokeUserSession n =>
    cases hstep
    exact revokeUserSession_inv h
  | prune ids =>
    cases hstep
    exact userSessions_inv h (.of_eq rfl rfl rfl rfl rfl) le_rfl rfl rfl
      h.numbered.auth.userSessions h.numbered.auth.userRefreshTokens
  | tick t =>
    simp only [step] at hstep
    split_ifs at hstep with ht
    cases hstep
    exact tick_inv h ht

lemma init_inv : Inv (erasureSystem env).init where
  numbered := ⟨⟨fun _ _ => rfl, fun _ _ => rfl, fun _ _ => rfl, fun _ _ => rfl,
    fun _ _ hxy => by obtain ⟨t, row, ht, -, -⟩ := hxy; exact nomatch ht⟩, fun _ _ => rfl,
    fun _ _ => rfl, fun _ _ _ => rfl, fun _ _ => rfl, (fun _ _ hn => nomatch hn),
    fun _ _ hn => nomatch hn⟩
  names := ⟨(fun _ _ hn => nomatch hn), (fun _ _ hn => nomatch hn), (fun _ _ _ hj => nomatch hj),
    fun _ _ _ _ _ _ hj => nomatch hj⟩
  txs _ _ hi := nomatch hi
  shares _ _ _ := rfl
  erased _ hentry := nomatch hentry
  unchanged _ hentry := nomatch hentry
  once := .nil

lemma inv_of_sound (h : (erasureSystem env).Reaches Sound s) : Inv s :=
  h.invariant init_inv fun _ _ _ hinv hsound hstep => step_inv hinv hsound hstep

lemma shut_of_over {db : AuthDb} {n : ℕ} {row : UserSessionRow} {since : ℤ}
    (hrow : db.userSessions n = some row)
    (hover : row.revokedAt.isSome = true ∨ row.expiresAt ≤ since) : Shut env db n since := by
  have hunusable : ∀ now, since ≤ now → row.revokedAt = none → now < row.expiresAt → False := by
    intro now hnow hlive hexpires
    rcases hover with hrevoked | hexpired
    · rw [hlive] at hrevoked
      cases hrevoked
    · omega
  refine ⟨fun claims now _ hnow htouches => ?_, fun t token session now _ _ hn hnow hrotates => ?_⟩
  · obtain ⟨session, hn, hlive, -, hexpires⟩ := verifyUserSession_touches htouches
    obtain rfl := Option.some.inj (hrow.symm.trans hn)
    exact hunusable now hnow hlive hexpires
  · obtain ⟨hlive, -, -, hexpires⟩ := rotateUserRefresh_rotates hrotates
    obtain rfl := Option.some.inj (hrow.symm.trans hn)
    exact hunusable now hnow hlive hexpires

lemma ErasedOk.gone {entry : Entry} {u : ℕ} (h : ErasedOk s entry u) (hinv : Inv s) :
    Gone env s entry u where
  credentials := h.credentials
  sessionMeta := h.sessionMeta
  identityTokens n row hn hu := by
    obtain rfl : n = u := (hinv.numbered.owner n row hn).symm.trans hu
    have hsome := h.token row hn
    exact ⟨hsome, hinv.names.pseudonym n row hn hsome⟩
  sessions n hn := closed_of_revoked (h.revoked n hn) fun m hm =>
    h.revoked m (h.successor n m hn hm)
  userSessions n row hn hu := by
    obtain ⟨row', hrow', hover⟩ := h.userSessions n row hn hu
    exact shut_of_over hrow' hover

/-- **Erasures are complete and confined** in every state that sound steps reach. -/
theorem confined_of_sound (h : (erasureSystem env).Reaches Sound s) : Confined env s := by
  have hinv := inv_of_sound h
  refine ⟨hinv.once, fun entry hentry u hu => ?_, hinv.unchanged, fun entry hentry u hu => ?_⟩
  · exact (hinv.erased entry hentry u hu).alone
  · exact (hinv.erased entry hentry u hu).gone hinv

/-- A step that its own transaction makes sound. -/
def State.plain (s : State) : Label → Bool
  | .commit i =>
    match s.txs i with
    | some (.inserting _ (.session _ _ _ _)) | some (.inserting _ (.request _)) => true
    | _ => false
  | .erase i _ =>
    match s.txs i with
    | some (.erasing (.updating _ _ _) _) => false
    | _ => true
  | .pseudonymizeUser _ _ => false
  | _ => true

lemma sound_of_plain {a : Label} (h : s.plain a = true) : Sound s a := by
  cases a with
  | commit i =>
    simp only [State.plain] at h
    refine ⟨fun u orgId htx => ?_, fun u kind count htx => ?_,
      fun u completedAt count e htx => ?_⟩
    · rw [htx] at h
      cases h
    · rw [htx] at h
      cases h
    · rw [htx] at h
      cases h
  | erase i drawn =>
    intro tokenId todo name e htx
    simp only [State.plain, htx] at h
    cases h
  | pseudonymizeUser u draw => cases h
  | _ => trivial

/-- The first draws. -/
def someDrawn : Drawn := ⟨fun _ => 0, fun _ => 0, "unusable"⟩

/-- User 0 of organization 1. -/
def registered : State :=
  (step .default (erasureSystem .default).init (.register "ada@example.org" "hash" 1)).get
    (by decide +kernel)

/-- The user is pseudonymized. -/
def pseudonymous : State :=
  (step .default registered (.pseudonymizeUser 0 fun _ => 0)).get (by decide +kernel)

lemma pseudonymous_reached : (erasureSystem .default).Reaches Sound pseudonymous := by
  have hregistered : (erasureSystem .default).Reaches Sound registered :=
    Run.System.Reaches.step (a := .register "ada@example.org" "hash" 1) .refl trivial
      (Option.some_get _).symm
  refine hregistered.step (a := .pseudonymizeUser 0 fun _ => 0) (fun _ _ _ => ⟨?_, ?_⟩)
    (Option.some_get _).symm
  · intro n row hn _
    have hlt := lt_of_eq_some (inv_of_sound hregistered).numbered.identityTokens hn
    have hseq : registered.seq = 1 := by rfl
    omega
  · intro j stage e hj
    rw [show registered.txs j = none by rfl] at hj
    cases hj

/-- The user signs in, and the request of the erasure is executed. -/
def erased : List Label :=
  [.login 0 0 1 1000 ⟨some "10.0.0.1", some "browser"⟩ [] none, .commit 0,
    .createErasureRequest 0 0 1, .commit 0, .execute 0 3 1] ++
    List.replicate 12 (.erase 0 someDrawn)

/-- The execution that has erased user 0, about to commit. -/
def State.returns (s : State) (i : ℕ) : Option Erasing :=
  match s.txs i with
  | some (.erasing (.returned (.completed 0 _ _)) e) => some e
  | _ => none

lemma returns_eq_some {e : Erasing} (h : s.returns i = some e) : ∃ completedAt count,
    s.txs i = some (.erasing (.returned (.completed 0 completedAt count)) e) := by
  unfold State.returns at h
  split at h
  · rename_i completedAt count e' htx
    cases h
    exact ⟨completedAt, count, htx⟩
  · cases h

/-- An erasure behind a sign-in. -/
theorem confined_of_sound_erased : ∃ s, (erasureSystem .default).Reaches Sound s ∧
    (∃ entry ∈ s.log, entry.Erases 0) ∧ Confined .default s := by
  obtain ⟨s, hexec, hreturns, hsessions, huserSessions⟩ := Run.System.exists_of_exec
    (erasureSystem .default) (fun s a => s.plain a = true) pseudonymous erased
    (fun s => (s.returns 0).any (fun e => e.orgId = 1) = true ∧
      (∀ n < s.seq, (s.db.auth.sessions n).all (fun row => row.orgId = 1) = true) ∧
      ∀ n < s.seq, (s.db.auth.userSessions n).isNone = true) (by decide +kernel)
  have hreach : (erasureSystem .default).Reaches Sound s := pseudonymous_reached.steps
    ((Run.System.steps_of_exec hexec).mono fun _ _ => sound_of_plain)
  obtain ⟨e, he, horg⟩ := (Option.any_eq_true ..).1 hreturns
  obtain ⟨completedAt, count, htx⟩ := returns_eq_some he
  have hauth := (inv_of_sound hreach).numbered.auth
  -- every row has a number below the next one
  have hover : OverElsewhere s e := by
    refine ⟨fun n row hn _ hne => absurd ?_ hne, fun n row hn _ => ?_⟩
    · have hrow := hsessions n (lt_of_eq_some hauth.sessions hn)
      rw [hn] at hrow
      exact (of_decide_eq_true hrow).trans (of_decide_eq_true horg).symm
    · have hrow := huserSessions n (lt_of_eq_some hauth.userSessions hn)
      rw [hn] at hrow
      cases hrow
  have hsound : Sound s (.commit 0) := by
    refine ⟨fun u orgId hjoin => ?_, fun u kind n hinsert => ?_,
      fun u completedAt' count' e' he' => ?_⟩
    · exact nomatch htx.symm.trans hjoin
    · exact nomatch htx.symm.trans hinsert
    · obtain ⟨-, rfl⟩ := Tx.erasing.inj (Option.some.inj (htx.symm.trans he'))
      exact hover
  have hstep : ∃ s', (erasureSystem .default).step s (.commit 0) = some s' ∧
      ∃ entry ∈ s'.log, entry.Erases 0 := by
    refine ⟨_, show commit .default s 0 = some _ by rw [commit.eq_def, htx], _,
      List.mem_cons_self, completedAt, count, rfl⟩
  obtain ⟨s', hs', hlog⟩ := hstep
  have hreach' := hreach.step hsound hs'
  exact ⟨s', hreach', hlog, confined_of_sound hreach'⟩

/-- The user joins organization 9 behind the count, with a user session from before. -/
def joinedMeanwhile : List Label :=
  [.register "ada@example.org" "hash" 1, .issueUserSession 0 0, .commit 0,
    .login 0 0 1 1000 ⟨some "10.0.0.1", some "cli"⟩ [] none, .commit 0,
    .createErasureRequest 0 0 1, .commit 0, .execute 0 5 1, .erase 0 someDrawn, .join 1 0 9,
    .commit 1] ++ List.replicate 12 (.erase 0 someDrawn) ++ [.commit 0]

/-- The user signs in to organization 9 and leaves it. -/
def leftBefore : List Label :=
  [.register "ada@example.org" "hash" 1, .join 0 0 9, .commit 0,
    .login 0 0 9 1000 ⟨some "10.0.0.9", some "browser"⟩ [] none, .commit 0, .leave 0 9,
    .createErasureRequest 0 0 1, .commit 0, .execute 0 3 1] ++
    List.replicate 13 (.erase 0 someDrawn) ++ [.commit 0]

/-- An erasure completes while the user is a member of another organization and has a user session
that authenticates behind it; and one completes that leaves the metadata of a session in an
organization the user has left. -/
theorem erasure_notConfined :
    (∃ s, (erasureSystem .default).Reaches (fun _ _ => True) s ∧
      (∃ entry ∈ s.log, entry.orgId = 1 ∧ entry.outcome = .completed 0 0 1 ∧
        ⟨0, 9, true⟩ ∈ entry.after.memberships) ∧
      verifyUserSession .default ⟨0, 1, 1⟩ (s.db.auth.userSessions 1) s.now = .touches) ∧
      (∃ s, (erasureSystem .default).Reaches (fun _ _ => True) s ∧
        (∃ entry ∈ s.log, entry.outcome = .completed 0 0 0) ∧
        s.db.sessionMeta 1 = ⟨some "10.0.0.9", some "browser"⟩) ∧
      ¬∀ env s, (erasureSystem env).Reaches (fun _ _ => True) s → Confined env s := by
  obtain ⟨s₁, hexec₁, ⟨entry, hentry, horg, houtcome, hmember⟩, htouches⟩ :=
    Run.System.exists_of_exec (erasureSystem .default) (fun _ _ => True)
    (erasureSystem .default).init joinedMeanwhile
    (fun s => (∃ entry ∈ s.log, entry.orgId = 1 ∧ entry.outcome = .completed 0 0 1 ∧
        ⟨0, 9, true⟩ ∈ entry.after.memberships) ∧
      verifyUserSession .default ⟨0, 1, 1⟩ (s.db.auth.userSessions 1) s.now = .touches)
    (by decide +kernel)
  obtain ⟨s₂, hexec₂, hcompleted, hmeta⟩ := Run.System.exists_of_exec
    (erasureSystem .default) (fun _ _ => True) (erasureSystem .default).init leftBefore
    (fun s => (∃ entry ∈ s.log, entry.outcome = .completed 0 0 0) ∧
      s.db.sessionMeta 1 = ⟨some "10.0.0.9", some "browser"⟩) (by decide +kernel)
  have hreach := Run.System.steps_of_exec hexec₁
  refine ⟨⟨s₁, hreach, ⟨entry, hentry, horg, houtcome, hmember⟩, htouches⟩,
    ⟨s₂, Run.System.steps_of_exec hexec₂, hcompleted, hmeta⟩, fun hall => ?_⟩
  -- the execution is the one for organization 1
  have halone := (hall _ s₁ hreach).alone entry hentry 0 ⟨_, _, houtcome⟩ _ hmember rfl
  exact absurd (halone.trans horg) (by decide)

end Erasure
