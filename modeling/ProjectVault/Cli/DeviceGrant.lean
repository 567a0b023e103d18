import ProjectVault.Run.System

/-!
The device sign-in of the command line client: one grant, its polls, its decisions and the
revocation of the session that approved it (`cli-device-service`, `cli-device-revoke`).
-/

namespace Cli

variable {now : ℤ}

/-! ### The grant -/

inductive GrantStatus where
  | pending | approved | denied | consumed | revoked
  deriving DecidableEq

/-- A row of `cli_device_grants`, times in milliseconds. -/
structure GrantRow where
  status : GrantStatus
  expiresAt : ℤ
  intervalSeconds : ℤ
  lastPolledAt : Option ℤ
  userId : Option ℕ
  orgId : Option ℕ
  approverSessionId : Option ℕ
  sessionId : Option ℕ
  stepUpFailures : ℕ
  approvedAt : Option ℤ
  deniedAt : Option ℤ
  consumedAt : Option ℤ
  revokedAt : Option ℤ
  deriving DecidableEq

def cliDeviceTtlSeconds : ℤ := 300
def cliDevicePollIntervalSeconds : ℤ := 5
def cliDeviceMaxIntervalSeconds : ℤ := 30
def cliDeviceSlowDownStepSeconds : ℤ := 5
def cliDeviceStepUpFailureLimit : ℕ := 5

def GrantRow.isExpired (grant : GrantRow) (now : ℤ) : Bool := grant.expiresAt ≤ now

def GrantRow.polledTooSoon (grant : GrantRow) (now : ℤ) : Bool :=
  grant.lastPolledAt.any fun lastPolledAt => now - lastPolledAt < grant.intervalSeconds * 1000

/-- `insertGrant`. -/
def insertGrant (now : ℤ) : GrantRow :=
  ⟨.pending, now + cliDeviceTtlSeconds * 1000, cliDevicePollIntervalSeconds, none, none, none, none,
    none, 0, none, none, none, none⟩

/-- The columns of a browser session that a poll reads. -/
structure SessionRow where
  revokedAt : Option ℤ
  expiresAt : ℤ
  lastActiveAt : ℤ

/-- The checks of `approverSessionLive` on the session row. -/
def SessionRow.live (idleTimeoutMs now : ℤ) (session : SessionRow) : Bool :=
  session.revokedAt.isNone && now < session.expiresAt &&
    now - session.lastActiveAt ≤ idleTimeoutMs

/-- The session issued to the client: the transaction that redeemed the grant, the clock it was
called at, and the session. -/
structure Issued where
  tx : ℕ
  now : ℤ
  sessionId : ℕ
  deriving DecidableEq

inductive DeviceEvent where
  | polled
  | approved
  | denied
  | stepUpFailed
  | revoked
  | issued (issue : Issued)
  deriving DecidableEq

/-- What a transaction may do to the grant. -/
inductive Transition (g g' : GrantRow) : DeviceEvent → Prop where
  | polled (hopen : g.status = .pending ∨ g.status = .approved) (hstatus : g'.status = g.status)
      (hfailures : g'.stepUpFailures = g.stepUpFailures) : Transition g g' .polled
  | approved (hopen : g.status = .pending) (hstatus : g'.status = .approved)
      (hfailures : g'.stepUpFailures = g.stepUpFailures) : Transition g g' .approved
  | denied (hopen : g.status = .pending) (hstatus : g'.status = .denied)
      (hfailures : g'.stepUpFailures = g.stepUpFailures) : Transition g g' .denied
  | stepUpFailed (hopen : g.status = .pending)
      (hfailures : g'.stepUpFailures = g.stepUpFailures + 1)
      (hstatus : g'.status = .denied ∨
        g'.status = .pending ∧ g'.stepUpFailures < cliDeviceStepUpFailureLimit) :
      Transition g g' .stepUpFailed
  | revoked (hopen : g.status = .approved) (hstatus : g'.status = .revoked)
      (hfailures : g'.stepUpFailures = g.stepUpFailures) : Transition g g' .revoked
  | issued (issue : Issued) (hopen : g.status = .approved) (hstatus : g'.status = .consumed)
      (hfailures : g'.stepUpFailures = g.stepUpFailures) : Transition g g' (.issued issue)

/-! ### Decisions -/

structure Approver where
  userId : ℕ
  orgId : ℕ
  sessionId : ℕ
  deriving DecidableEq

inductive Decision where
  | approve | deny
  deriving DecidableEq

/-- The verdict on the code of a step-up. -/
inductive StepUpVerdict where
  | valid | noEnrollment | refused
  deriving DecidableEq

/-- A decision request: its approver, whether they operate the platform, and the verdict their
code gets. -/
structure DecisionRequest where
  approver : Approver
  decision : Decision
  platformOperator : Bool
  verdict : StepUpVerdict
  deriving DecidableEq

/-- `decideDeviceGrant` on the row it has locked: what it writes, if anything. -/
def decideDeviceGrant (grant : GrantRow) (request : DecisionRequest) (now : ℤ) :
    Option (GrantRow × DeviceEvent) :=
  let approver := request.approver
  if grant.status ≠ .pending ∨ grant.isExpired now = true then none
  else if request.decision = .deny then
    some ({ grant with
      status := .denied, deniedAt := some now
      userId := some approver.userId, orgId := some approver.orgId }, .denied)
  else if request.platformOperator = true ∧ request.verdict = .noEnrollment then none
  else if request.platformOperator = true ∧ request.verdict = .refused then
    let failures := grant.stepUpFailures + 1
    if cliDeviceStepUpFailureLimit ≤ failures then
      some ({ grant with stepUpFailures := failures, status := .denied, deniedAt := some now },
        .stepUpFailed)
    else some ({ grant with stepUpFailures := failures }, .stepUpFailed)
  else
    some ({ grant with
      status := .approved, approvedAt := some now, userId := some approver.userId
      orgId := some approver.orgId, approverSessionId := some approver.sessionId }, .approved)

/-! ### Polls -/

def GrantRow.polledAt (grant : GrantRow) (now : ℤ) : GrantRow :=
  { grant with lastPolledAt := some now }

/-- `pollLockedGrant` up to the check of the approving session. -/
inductive PollStep where
  | answered
  | writes (row : GrantRow)
  | checks (row : GrantRow)

def pollLockedGrant (grant : GrantRow) (now : ℤ) : PollStep :=
  if grant.isExpired now = true ∨ grant.status = .consumed then .answered
  else if grant.status = .denied ∨ grant.status = .revoked then .answered
  else if grant.polledTooSoon now = true then
    .writes { grant with
      intervalSeconds := min (grant.intervalSeconds + cliDeviceSlowDownStepSeconds)
        cliDeviceMaxIntervalSeconds
      lastPolledAt := some now }
  else if grant.status = .pending then .writes (grant.polledAt now)
  else .checks (grant.polledAt now)

/-- `markRevoked`. -/
def markRevoked (grant : GrantRow) (now : ℤ) : GrantRow :=
  { grant with status := .revoked, revokedAt := some now }

/-- `issueFromGrant`. -/
def issueFromGrant (grant : GrantRow) (sessionId : ℕ) (now : ℤ) : GrantRow :=
  { grant with status := .consumed, consumedAt := some now, sessionId := some sessionId }

/-- The rows the update of a revocation matches. -/
def revocable (sessionIds : List ℕ) (grant : GrantRow) : Bool :=
  grant.approverSessionId.any (fun sessionId => sessionId ∈ sessionIds) &&
    grant.status == .approved && grant.consumedAt.isNone

/-! ### Transactions -/

inductive DeviceTx where
  | idle
  /-- a poll called at a time, waiting for the grant -/
  | polling (now : ℤ)
  | deciding (now : ℤ) (request : DecisionRequest)
  /-- the lock is held and nothing will be written -/
  | answered
  /-- a poll of an approved grant, before it reads the approving session -/
  | checking (now : ℤ) (row : GrantRow)
  /-- a poll that has found the approving session live -/
  | issuing (now : ℤ) (row : GrantRow)
  | writing (row : GrantRow) (event : DeviceEvent)
  /-- a revocation: before its update of the grants, waiting for the grant, and after the update
  with and without a match -/
  | revoking (sessionIds : List ℕ)
  | revokeWaiting (sessionIds : List ℕ) (now : ℤ)
  | revokeWriting (sessionIds : List ℕ) (row : GrantRow)
  | revokeReady (sessionIds : List ℕ)
  deriving DecidableEq

/-- The phases in which a transaction holds the lock of the grant. -/
def DeviceTx.holds : DeviceTx → Bool
  | .answered | .checking .. | .issuing .. | .writing .. | .revokeWriting .. => true
  | _ => false

/-- Transactions that are not about to issue. -/
def DeviceTx.quiet : DeviceTx → Bool
  | .issuing .. => false
  | .writing _ (.issued _) => false
  | _ => true

structure DeviceState where
  now : ℤ
  grant : Option GrantRow
  started : Bool
  sessions : ℕ → Option SessionRow
  txs : ℕ → DeviceTx
  /-- the transactions ever opened -/
  slots : List ℕ
  log : List DeviceEvent

namespace DeviceState

def put (s : DeviceState) (i : ℕ) (tx : DeviceTx) : DeviceState :=
  { s with txs := Function.update s.txs i tx, slots := i :: s.slots }

/-- Nobody holds the lock of the grant. -/
def free (s : DeviceState) : Bool := s.slots.all fun j => !(s.txs j).holds

def revokeSessions (s : DeviceState) (sessionIds : List ℕ) : DeviceState :=
  { s with
    sessions := fun n => (s.sessions n).map fun row =>
      if n ∈ sessionIds then { row with revokedAt := some (row.revokedAt.getD s.now) } else row }

/-- The sessions the grant has yielded. -/
def issues (s : DeviceState) : List Issued :=
  s.log.filterMap fun
    | .issued issue => some issue
    | _ => none

/-- The failed step-ups the grant has accepted. -/
def failedStepUps (s : DeviceState) : ℕ := s.log.count .stepUpFailed

end DeviceState

inductive DeviceLabel where
  | tick (t : ℤ)
  | login (sessionId : ℕ) (row : SessionRow)
  | touch (sessionId : ℕ)
  /-- the rotation of a session, which leaves the grants alone -/
  | rotate (sessionId : ℕ)
  | start
  | poll (i : ℕ)
  | decide (i : ℕ) (request : DecisionRequest)
  /-- a waiting request gets the lock and reads the row -/
  | lock (i : ℕ)
  /-- a poll reads the approving session -/
  | check (i : ℕ)
  | issue (i : ℕ) (sessionId : ℕ)
  | revoke (i : ℕ) (sessionIds : List ℕ)
  /-- the update of the grants by a revocation reads its snapshot -/
  | revokeGrants (i : ℕ)
  | commit (i : ℕ)
  | rollback (i : ℕ)
  | prune

def deviceStep (idleTimeoutMs : ℤ) (s : DeviceState) : DeviceLabel → Option DeviceState
  | .tick t => if s.now ≤ t then some { s with now := t } else none
  | .login sessionId row =>
    if (s.sessions sessionId).isSome then none
    else some { s with sessions := Function.update s.sessions sessionId (some row) }
  | .touch sessionId =>
    some { s with
      sessions := Function.update s.sessions sessionId
        ((s.sessions sessionId).map fun row => { row with lastActiveAt := s.now }) }
  | .rotate sessionId => some (s.revokeSessions [sessionId])
  | .start =>
    if s.started then none
    else some { s with grant := some (insertGrant s.now), started := true }
  | .poll i => if s.txs i = .idle then some (s.put i (.polling s.now)) else none
  | .decide i request =>
    if s.txs i = .idle then some (s.put i (.deciding s.now request)) else none
  | .lock i =>
    if s.free = false then none
    else
      match s.txs i, s.grant with
      | .polling now, some grant =>
        match pollLockedGrant grant now with
        | .answered => some (s.put i .answered)
        | .writes row => some (s.put i (.writing row .polled))
        | .checks row => some (s.put i (.checking now row))
      | .polling _, none => some (s.put i .idle)
      | .deciding now request, some grant =>
        match decideDeviceGrant grant request now with
        | none => some (s.put i .answered)
        | some (row, event) => some (s.put i (.writing row event))
      | .deciding _ _, none => some (s.put i .idle)
      | .revokeWaiting sessionIds now, some grant =>
        if revocable sessionIds grant then
          some (s.put i (.revokeWriting sessionIds (markRevoked grant now)))
        else some (s.put i (.revokeReady sessionIds))
      | .revokeWaiting sessionIds _, none => some (s.put i (.revokeReady sessionIds))
      | _, _ => none
  | .check i =>
    match s.txs i with
    | .checking now row =>
      let session := row.approverSessionId.bind s.sessions
      if row.orgId.isSome ∧ row.userId.isSome ∧
          session.any (SessionRow.live idleTimeoutMs s.now) = true then
        some (s.put i (.issuing now row))
      else some (s.put i (.writing (markRevoked row now) .revoked))
    | _ => none
  | .issue i sessionId =>
    match s.txs i with
    | .issuing now row =>
      some (s.put i (.writing (issueFromGrant row sessionId now) (.issued ⟨i, now, sessionId⟩)))
    | _ => none
  | .revoke i sessionIds =>
    if s.txs i = .idle then some (s.put i (.revoking sessionIds)) else none
  | .revokeGrants i =>
    match s.txs i with
    | .revoking sessionIds =>
      if s.grant.any (revocable sessionIds) then some (s.put i (.revokeWaiting sessionIds s.now))
      else some (s.put i (.revokeReady sessionIds))
    | _ => none
  | .commit i =>
    match s.txs i with
    | .answered => some (s.put i .idle)
    | .writing row event =>
      some { s.put i .idle with grant := some row, log := event :: s.log }
    | .revokeWriting sessionIds row =>
      some { (s.put i .idle).revokeSessions sessionIds with
        grant := some row, log := .revoked :: s.log }
    | .revokeReady sessionIds => some ((s.put i .idle).revokeSessions sessionIds)
    | _ => none
  | .rollback i => some (s.put i .idle)
  | .prune =>
    if s.free = true ∧ s.grant.any (fun grant => grant.expiresAt < s.now) = true then
      some { s with grant := none }
    else none

/-- The system, before the grant is made. -/
def deviceSystem (idleTimeoutMs : ℤ) : Run.System DeviceState DeviceLabel where
  init := ⟨0, none, false, fun _ => none, fun _ => .idle, [], []⟩
  step := deviceStep idleTimeoutMs

/-! ### The invariant -/

/-- The log and the grant: the issues and failures it accounts for. -/
structure Accounted (s : DeviceState) : Prop where
  unstarted : s.started = false → s.grant = none ∧ s.log = []
  issues : s.issues.length ≤ 1
  failures : s.failedStepUps ≤ cliDeviceStepUpFailureLimit
  unissued : ∀ g, s.grant = some g → g.status ≠ .consumed → s.issues = []
  counted : ∀ g, s.grant = some g → s.failedStepUps = g.stepUpFailures
  below : ∀ g, s.grant = some g → g.status = .pending →
    g.stepUpFailures < cliDeviceStepUpFailureLimit

/-- What an open transaction knows of the committed grant. -/
structure Staged (s : DeviceState) (tx : DeviceTx) : Prop where
  checking : ∀ now row, tx = .checking now row → ∃ g, s.grant = some g ∧ g.status = .approved ∧
    g.isExpired now = false ∧ row = g.polledAt now
  issuing : ∀ now row, tx = .issuing now row → ∃ g, s.grant = some g ∧ g.status = .approved ∧
    row = g.polledAt now
  writing : ∀ row event, tx = .writing row event → ∃ g, s.grant = some g ∧ Transition g row event
  revokeWriting : ∀ sessionIds row, tx = .revokeWriting sessionIds row →
    ∃ g, s.grant = some g ∧ Transition g row .revoked

structure DeviceInv (s : DeviceState) : Prop where
  accounted : Accounted s
  opened : ∀ i, (s.txs i).holds = true → i ∈ s.slots
  exclusive : ∀ i j, (s.txs i).holds = true → (s.txs j).holds = true → i = j
  staged : ∀ i, Staged s (s.txs i)

variable {idleTimeoutMs : ℤ} {s s' : DeviceState} {i : ℕ} {tx : DeviceTx} {g g' : GrantRow}
variable {event : DeviceEvent}

/-- A decision stages a transition, and issues nothing. -/
lemma decideDeviceGrant_writes {request : DecisionRequest}
    (h : decideDeviceGrant g request now = some (g', event)) :
    Transition g g' event ∧ (DeviceTx.writing g' event).quiet = true := by
  simp only [decideDeviceGrant] at h
  split at h
  · cases h
  rename_i hopen
  rw [not_or, not_not] at hopen
  split at h
  · cases h
    exact ⟨.denied hopen.1 rfl rfl, rfl⟩
  split at h
  · cases h
  split at h
  · split at h
    · cases h
      exact ⟨.stepUpFailed hopen.1 rfl (.inl rfl), rfl⟩
    · rename_i hbelow
      cases h
      exact ⟨.stepUpFailed hopen.1 rfl (.inr ⟨hopen.1, Nat.lt_of_not_le hbelow⟩), rfl⟩
  · cases h
    exact ⟨.approved hopen.1 rfl rfl, rfl⟩

/-- A poll of a live grant stages a transition. -/
lemma pollLockedGrant_writes (h : pollLockedGrant g now = .writes g') :
    Transition g g' .polled := by
  unfold pollLockedGrant at h
  split at h
  · cases h
  rename_i hlive
  split at h
  · cases h
  rename_i hopen
  have hstatus : g.status = .pending ∨ g.status = .approved := by
    cases hg : g.status with
    | pending => exact .inl rfl
    | approved => exact .inr rfl
    | denied => exact absurd (.inl hg) hopen
    | consumed => exact absurd (.inr hg) hlive
    | revoked => exact absurd (.inr hg) hopen
  split at h
  · cases h
    exact .polled hstatus rfl rfl
  split_ifs at h
  cases h
  exact .polled hstatus rfl rfl

lemma pollLockedGrant_checks (h : pollLockedGrant g now = .checks g') :
    g.status = .approved ∧ g.isExpired now = false ∧ g' = g.polledAt now := by
  unfold pollLockedGrant at h
  split at h
  · cases h
  rename_i hlive
  split at h
  · cases h
  rename_i hopen
  split at h
  · cases h
  split_ifs at h with hpending
  cases h
  rw [not_or, Bool.not_eq_true] at hlive
  refine ⟨?_, hlive.1, rfl⟩
  cases hg : g.status with
  | pending => exact absurd hg hpending
  | approved => rfl
  | denied => exact absurd (.inl hg) hopen
  | consumed => exact absurd hg hlive.2
  | revoked => exact absurd (.inr hg) hopen

/-! ### What transitions keep -/

lemma issues_cons (s : DeviceState) (grant : Option GrantRow) (event : DeviceEvent) :
    DeviceState.issues { s with grant, log := event :: s.log } =
      match event with
      | .issued issue => issue :: s.issues
      | _ => s.issues := by
  cases event <;> rfl

lemma failedStepUps_cons (s : DeviceState) (grant : Option GrantRow) (event : DeviceEvent) :
    DeviceState.failedStepUps { s with grant, log := event :: s.log } =
      s.failedStepUps + if event = .stepUpFailed then 1 else 0 := by
  simp only [DeviceState.failedStepUps, List.count_cons, beq_iff_eq]

/-- **One transition**: the log goes on accounting for the grant. -/
lemma Accounted.transition (h : Accounted s) (hgrant : s.grant = some g)
    (ht : Transition g g' event) :
    Accounted { s with grant := some g', log := event :: s.log } := by
  have hstarted : s.started = true := by
    cases hs : s.started with
    | true => rfl
    | false =>
      rw [(h.unstarted hs).1] at hgrant
      cases hgrant
  have hcounted := h.counted g hgrant
  have hfailures := h.failures
  have hunstarted : s.started = false → some g' = none ∧ event :: s.log = [] := fun hs => by
    rw [hstarted] at hs
    cases hs
  -- a transition that neither issues nor fails a step-up
  have hquiet : ∀ {event : DeviceEvent}, (∀ issue, event ≠ .issued issue) →
      event ≠ .stepUpFailed → g.status ≠ .consumed → g'.stepUpFailures = g.stepUpFailures →
      (g'.status = .pending → g.status = .pending) →
      Accounted { s with grant := some g', log := event :: s.log } := by
    intro event hissue hfail hopen hsame hpending
    have hissues : DeviceState.issues { s with grant := some g', log := event :: s.log } =
        s.issues := by
      rw [issues_cons]
      cases event with
      | issued issue => exact absurd rfl (hissue issue)
      | _ => rfl
    have hcount : DeviceState.failedStepUps
        { s with grant := some g', log := event :: s.log } = s.failedStepUps := by
      rw [failedStepUps_cons, if_neg hfail]
      rfl
    refine ⟨fun hs => ?_, ?_, ?_, ?_, ?_, ?_⟩
    · rw [hstarted] at hs
      cases hs
    · rw [hissues]
      exact h.issues
    · rw [hcount]
      exact hfailures
    · rintro _ ⟨⟩ -
      rw [hissues]
      exact h.unissued g hgrant hopen
    · rintro _ ⟨⟩
      rw [hcount, hsame]
      exact hcounted
    · rintro _ ⟨⟩ hstatus
      rw [hsame]
      exact h.below g hgrant (hpending hstatus)
  cases ht with
  | polled hopen hstatus hsame =>
    refine hquiet nofun nofun ?_ hsame fun hg => hstatus ▸ hg
    rcases hopen with hopen | hopen <;> rw [hopen] <;> exact nofun
  | approved hopen hstatus hsame =>
    exact hquiet nofun nofun (by rw [hopen]; exact nofun) hsame fun hg => hopen
  | denied hopen hstatus hsame =>
    exact hquiet nofun nofun (by rw [hopen]; exact nofun) hsame fun hg => hopen
  | revoked hopen hstatus hsame =>
    refine hquiet nofun nofun (by rw [hopen]; exact nofun) hsame fun hg => ?_
    rw [hstatus] at hg
    cases hg
  | stepUpFailed hopen hnext hstatus =>
    have hbelow := h.below g hgrant hopen
    have hnone := h.unissued g hgrant (by rw [hopen]; exact nofun)
    have hcount : DeviceState.failedStepUps
        { s with grant := some g', log := .stepUpFailed :: s.log } = s.failedStepUps + 1 := by
      rw [failedStepUps_cons, if_pos rfl]
    refine ⟨hunstarted, h.issues, ?_, ?_, ?_, ?_⟩
    · rw [hcount]
      omega
    · rintro _ ⟨⟩ -
      exact hnone
    · rintro _ ⟨⟩
      rw [hcount]
      omega
    · rintro _ ⟨⟩ hpending
      rcases hstatus with hdenied | ⟨-, hlt⟩
      · rw [hdenied] at hpending
        cases hpending
      · exact hlt
  | issued issue hopen hstatus hsame =>
    have hnone := h.unissued g hgrant (by rw [hopen]; exact nofun)
    have hissues : DeviceState.issues
        { s with grant := some g', log := .issued issue :: s.log } = [issue] := by
      rw [issues_cons, hnone]
    have hcount : DeviceState.failedStepUps
        { s with grant := some g', log := .issued issue :: s.log } = s.failedStepUps := by
      rw [failedStepUps_cons, if_neg nofun]
      rfl
    refine ⟨hunstarted, ?_, ?_, ?_, ?_, ?_⟩
    · rw [hissues]
      exact le_rfl
    · rw [hcount]
      exact hfailures
    · rintro _ ⟨⟩ hne
      exact absurd hstatus hne
    · rintro _ ⟨⟩
      rw [hcount, hsame]
      exact hcounted
    · rintro _ ⟨⟩ hpending
      rw [hstatus] at hpending
      cases hpending

/-- The account depends on the grant and the log alone. -/
lemma Accounted.congr (h : Accounted s) (hstarted : s'.started = s.started)
    (hgrant : s'.grant = s.grant) (hlog : s'.log = s.log) : Accounted s' := by
  have hissues : s'.issues = s.issues := by rw [DeviceState.issues, hlog, DeviceState.issues]
  have hcount : s'.failedStepUps = s.failedStepUps := by
    rw [DeviceState.failedStepUps, hlog, DeviceState.failedStepUps]
  refine ⟨?_, ?_, ?_, ?_, ?_, ?_⟩
  · rw [hstarted, hgrant, hlog]
    exact h.unstarted
  · rw [hissues]
    exact h.issues
  · rw [hcount]
    exact h.failures
  · rw [hgrant, hissues]
    exact h.unissued
  · rw [hgrant, hcount]
    exact h.counted
  · rw [hgrant]
    exact h.below

/-- A transaction without the lock has staged nothing. -/
lemma Staged.of_not_holds (h : tx.holds = false) : Staged s tx where
  checking now row htx := by rw [htx] at h; exact Bool.noConfusion h
  issuing now row htx := by rw [htx] at h; exact Bool.noConfusion h
  writing row event htx := by rw [htx] at h; exact Bool.noConfusion h
  revokeWriting sessionIds row htx := by rw [htx] at h; exact Bool.noConfusion h

lemma Staged.of_answered : Staged s .answered where
  checking _ _ htx := nomatch htx
  issuing _ _ htx := nomatch htx
  writing _ _ htx := nomatch htx
  revokeWriting _ _ htx := nomatch htx

lemma Staged.of_checking (hgrant : s.grant = some g) (happroved : g.status = .approved)
    (hlive : g.isExpired now = false) : Staged s (.checking now (g.polledAt now)) where
  checking now' row htx := by
    cases htx
    exact ⟨g, hgrant, happroved, hlive, rfl⟩
  issuing _ _ htx := nomatch htx
  writing _ _ htx := nomatch htx
  revokeWriting _ _ htx := nomatch htx

lemma Staged.of_issuing (hgrant : s.grant = some g) (happroved : g.status = .approved) :
    Staged s (.issuing now (g.polledAt now)) where
  checking _ _ htx := nomatch htx
  issuing now' row htx := by
    cases htx
    exact ⟨g, hgrant, happroved, rfl⟩
  writing _ _ htx := nomatch htx
  revokeWriting _ _ htx := nomatch htx

lemma Staged.of_writing (hgrant : s.grant = some g) (ht : Transition g g' event) :
    Staged s (.writing g' event) where
  checking _ _ htx := nomatch htx
  issuing _ _ htx := nomatch htx
  writing row event' htx := by
    cases htx
    exact ⟨g, hgrant, ht⟩
  revokeWriting _ _ htx := nomatch htx

lemma Staged.of_revokeWriting {sessionIds : List ℕ} (hgrant : s.grant = some g)
    (ht : Transition g g' .revoked) : Staged s (.revokeWriting sessionIds g') where
  checking _ _ htx := nomatch htx
  issuing _ _ htx := nomatch htx
  writing _ _ htx := nomatch htx
  revokeWriting sessionIds' row htx := by
    cases htx
    exact ⟨g, hgrant, ht⟩

/-- What a transaction knows depends on the grant alone. -/
lemma Staged.congr (h : Staged s tx) (hgrant : s'.grant = s.grant) : Staged s' tx where
  checking now row htx := by rw [hgrant]; exact h.checking now row htx
  issuing now row htx := by rw [hgrant]; exact h.issuing now row htx
  writing row event htx := by rw [hgrant]; exact h.writing row event htx
  revokeWriting sessionIds row htx := by rw [hgrant]; exact h.revokeWriting sessionIds row htx

lemma put_txs (s : DeviceState) (i : ℕ) (tx : DeviceTx) (j : ℕ) :
    (s.put i tx).txs j = if j = i then tx else s.txs j :=
  Function.update_apply s.txs i tx j

lemma DeviceInv.not_holds_of_free (h : DeviceInv s) (hfree : s.free = true) (j : ℕ) :
    (s.txs j).holds = false := by
  rw [Bool.eq_false_iff]
  intro hholds
  have hall := List.all_eq_true.1 hfree j (h.opened j hholds)
  rw [hholds] at hall
  cases hall

/-- A transaction that goes on: it holds the lock only if it did, or if nobody does. -/
lemma DeviceInv.put (h : DeviceInv s) (hstaged : Staged s tx)
    (hlock : tx.holds = true → (s.txs i).holds = true ∨ ∀ j, (s.txs j).holds = false) :
    DeviceInv (s.put i tx) := by
  have hother : ∀ j, j ≠ i → tx.holds = true → (s.txs j).holds = false := by
    intro j hji hholds
    rcases hlock hholds with hi | hnone
    · rw [Bool.eq_false_iff]
      exact fun hj => hji (h.exclusive j i hj hi)
    · exact hnone j
  refine ⟨h.accounted.congr rfl rfl rfl, ?_, ?_, ?_⟩
  · intro j hj
    rw [put_txs] at hj
    split at hj
    · rename_i hji
      exact hji ▸ List.mem_cons_self
    · exact List.mem_cons_of_mem i (h.opened j hj)
  · intro j k hj hk
    rw [put_txs] at hj hk
    split at hj
    · rename_i hji
      split at hk
      · rename_i hki
        exact hji.trans hki.symm
      · rename_i hki
        rw [hother k hki hj] at hk
        cases hk
    · rename_i hji
      split at hk
      · rw [hother j hji hk] at hj
        cases hj
      · exact h.exclusive j k hj hk
  · intro j
    rw [put_txs]
    split
    · exact hstaged.congr rfl
    · exact (h.staged j).congr rfl

/-- The sessions and the clock are not part of the invariant. -/
lemma DeviceInv.frame {sessions : ℕ → Option SessionRow} (h : DeviceInv s) :
    DeviceInv { s with now, sessions } :=
  ⟨h.accounted.congr rfl rfl rfl, h.opened, h.exclusive, fun j => (h.staged j).congr rfl⟩

lemma DeviceInv.commit (h : DeviceInv s) (hholds : (s.txs i).holds = true)
    (hgrant : s.grant = some g) (ht : Transition g g' event) :
    DeviceInv { s.put i .idle with grant := some g', log := event :: s.log } := by
  have hidle : DeviceInv (s.put i .idle) := h.put (Staged.of_not_holds rfl) nofun
  refine ⟨Accounted.transition (s := s.put i .idle) hidle.accounted hgrant ht, hidle.opened,
    hidle.exclusive, fun j => Staged.of_not_holds ?_⟩
  change ((s.put i .idle).txs j).holds = false
  rw [put_txs]
  split
  · rfl
  · rename_i hji
    rw [Bool.eq_false_iff]
    exact fun hj => hji (h.exclusive j i hj hholds)

/-- The grant is made once. -/
lemma DeviceInv.start (h : DeviceInv s) (hnew : s.started = false) :
    DeviceInv { s with grant := some (insertGrant s.now), started := true } := by
  obtain ⟨hgrant, hlog⟩ := h.accounted.unstarted hnew
  refine ⟨⟨fun hs => Bool.noConfusion hs, ?_, ?_, ?_, ?_, ?_⟩, h.opened, h.exclusive, ?_⟩
  · exact h.accounted.issues
  · exact h.accounted.failures
  · intro g _ _
    rw [DeviceState.issues, hlog]
    rfl
  · rintro g ⟨⟩
    rw [DeviceState.failedStepUps, hlog]
    rfl
  · rintro g ⟨⟩ -
    exact Nat.zero_lt_succ 4
  · -- nothing is staged while there is no grant
    intro j
    have hstaged := h.staged j
    refine ⟨?_, ?_, ?_, ?_⟩
    · intro now row htx
      obtain ⟨g, hg, -⟩ := hstaged.checking now row htx
      exact nomatch hgrant.symm.trans hg
    · intro now row htx
      obtain ⟨g, hg, -⟩ := hstaged.issuing now row htx
      exact nomatch hgrant.symm.trans hg
    · intro row event htx
      obtain ⟨g, hg, -⟩ := hstaged.writing row event htx
      exact nomatch hgrant.symm.trans hg
    · intro sessionIds row htx
      obtain ⟨g, hg, -⟩ := hstaged.revokeWriting sessionIds row htx
      exact nomatch hgrant.symm.trans hg

/-- The grant is pruned while nobody holds it. -/
lemma DeviceInv.prune (h : DeviceInv s) (hnone : ∀ j, (s.txs j).holds = false) :
    DeviceInv { s with grant := none } :=
  ⟨⟨fun hs => ⟨rfl, (h.accounted.unstarted hs).2⟩, h.accounted.issues, h.accounted.failures,
    fun _ hg => (nomatch hg), fun _ hg => (nomatch hg), fun _ hg => (nomatch hg)⟩, h.opened,
    h.exclusive, fun j => Staged.of_not_holds (hnone j)⟩

/-- A transaction that ends or waits without the lock. -/
lemma DeviceInv.release (h : DeviceInv s) (hfree : tx.holds = false) : DeviceInv (s.put i tx) :=
  h.put (Staged.of_not_holds hfree) fun hholds => by rw [hfree] at hholds; cases hholds

/-! ### What a step can do -/

/-- A state in which a poll redeems the grant: the poll holds it, it is approved (so neither
denied, revoked nor consumed), it has not expired on the clock of the poll, and the session that
approved it is live. -/
def Redeems (idleTimeoutMs : ℤ) (s : DeviceState) (tx : ℕ) (now : ℤ) : Prop :=
  ∃ grant row sessionId session, s.txs tx = .checking now row ∧ s.grant = some grant ∧
    grant.status = .approved ∧ grant.isExpired now = false ∧
    grant.approverSessionId = some sessionId ∧ s.sessions sessionId = some session ∧
    session.live idleTimeoutMs s.now = true

/-- What a step does: to the clock and the sessions, to the grant, or to one transaction, which
waits, takes the lock and goes on with it, or ends. -/
inductive DeviceMove (idleTimeoutMs : ℤ) (s : DeviceState) : DeviceState → Prop
  | frame (now : ℤ) (sessions : ℕ → Option SessionRow) :
      DeviceMove idleTimeoutMs s { s with now, sessions }
  | start (hnew : s.started = false) :
      DeviceMove idleTimeoutMs s { s with grant := some (insertGrant s.now), started := true }
  | prune (hfree : s.free = true) : DeviceMove idleTimeoutMs s { s with grant := none }
  | put (i : ℕ) {tx : DeviceTx} (hstaged : Staged s tx) (hquiet : tx.quiet = true)
      (hlock : tx.holds = true → (s.txs i).holds = true ∨ s.free = true) :
      DeviceMove idleTimeoutMs s (s.put i tx)
  | ended (i : ℕ) (sessions : ℕ → Option SessionRow) :
      DeviceMove idleTimeoutMs s { s.put i .idle with sessions }
  | check {i : ℕ} {now : ℤ} {row : GrantRow} (hredeems : Redeems idleTimeoutMs s i now)
      (hstaged : Staged s (.issuing now row)) :
      DeviceMove idleTimeoutMs s (s.put i (.issuing now row))
  | issue {i sessionId : ℕ} {now : ℤ} {g : GrantRow} (htx : s.txs i = .issuing now (g.polledAt now))
      (hgrant : s.grant = some g) (happroved : g.status = .approved) :
      DeviceMove idleTimeoutMs s (s.put i
        (.writing (issueFromGrant (g.polledAt now) sessionId now) (.issued ⟨i, now, sessionId⟩)))
  | commit {i : ℕ} {g g' : GrantRow} {event : DeviceEvent} (sessions : ℕ → Option SessionRow)
      (htx : s.txs i = .writing g' event ∨
        ∃ sessionIds, s.txs i = .revokeWriting sessionIds g' ∧ event = .revoked)
      (hgrant : s.grant = some g) (ht : Transition g g' event) :
      DeviceMove idleTimeoutMs s
        { s.put i .idle with sessions, grant := some g', log := event :: s.log }

/-- A transaction that ends or waits without the lock. -/
lemma DeviceMove.release (hquiet : tx.quiet = true) (hfree : tx.holds = false) :
    DeviceMove idleTimeoutMs s (s.put i tx) :=
  .put i (Staged.of_not_holds hfree) hquiet fun hholds => by rw [hfree] at hholds; cases hholds

/-- The lock of the grant, handed to a request. -/
lemma deviceStep_lock (hstep : deviceStep idleTimeoutMs s (.lock i) = some s') :
    DeviceMove idleTimeoutMs s s' := by
  simp only [deviceStep] at hstep
  split_ifs at hstep with hfree
  rw [Bool.not_eq_false] at hfree
  have hput : ∀ {tx : DeviceTx}, Staged s tx → tx.quiet = true →
      DeviceMove idleTimeoutMs s (s.put i tx) :=
    fun hstaged hquiet => .put i hstaged hquiet fun _ => .inr hfree
  split at hstep
  · rename_i now grant htx hgrant
    split at hstep
    · cases hstep
      exact hput Staged.of_answered rfl
    · rename_i row hpoll
      cases hstep
      exact hput (Staged.of_writing hgrant (pollLockedGrant_writes hpoll)) rfl
    · rename_i row hpoll
      cases hstep
      obtain ⟨happroved, hlive, rfl⟩ := pollLockedGrant_checks hpoll
      exact hput (Staged.of_checking hgrant happroved hlive) rfl
  · cases hstep
    exact .release rfl rfl
  · rename_i now request grant htx hgrant
    split at hstep
    · cases hstep
      exact hput Staged.of_answered rfl
    · rename_i row event hdecide
      cases hstep
      obtain ⟨ht, hquiet⟩ := decideDeviceGrant_writes hdecide
      exact hput (Staged.of_writing hgrant ht) hquiet
  · cases hstep
    exact .release rfl rfl
  · rename_i sessionIds now grant htx hgrant
    split at hstep
    · rename_i hmatch
      cases hstep
      simp only [revocable, Bool.and_eq_true, beq_iff_eq] at hmatch
      exact hput (Staged.of_revokeWriting hgrant (.revoked hmatch.1.2 rfl rfl)) rfl
    · cases hstep
      exact .release rfl rfl
  · cases hstep
    exact .release rfl rfl
  · cases hstep

variable {a : DeviceLabel}

/-- **The moves of one step**: a poll about to issue redeems the grant in the state before its
check. -/
lemma deviceStep_moves (h : DeviceInv s) (hstep : deviceStep idleTimeoutMs s a = some s') :
    DeviceMove idleTimeoutMs s s' := by
  cases a with
  | tick t =>
    simp only [deviceStep] at hstep
    split_ifs at hstep
    cases hstep
    exact .frame t s.sessions
  | login sessionId row =>
    simp only [deviceStep] at hstep
    split_ifs at hstep
    cases hstep
    exact .frame s.now _
  | touch sessionId =>
    cases hstep
    exact .frame s.now _
  | rotate sessionId =>
    cases hstep
    exact .frame s.now _
  | start =>
    simp only [deviceStep] at hstep
    split_ifs at hstep with hnew
    rw [Bool.not_eq_true] at hnew
    cases hstep
    exact .start hnew
  | poll i =>
    simp only [deviceStep] at hstep
    split_ifs at hstep
    cases hstep
    exact .release rfl rfl
  | decide i request =>
    simp only [deviceStep] at hstep
    split_ifs at hstep
    cases hstep
    exact .release rfl rfl
  | lock i => exact deviceStep_lock hstep
  | check i =>
    simp only [deviceStep] at hstep
    split at hstep
    · rename_i now row htx
      obtain ⟨g, hgrant, happroved, hunexpired, rfl⟩ := (h.staged i).checking now row htx
      split at hstep
      · rename_i hlive
        cases hstep
        obtain ⟨session, hread, hsession⟩ := (Option.any_eq_true _ _).1 hlive.2.2
        obtain ⟨sessionId, happrover, hfound⟩ := Option.bind_eq_some_iff.1 hread
        exact .check ⟨g, _, sessionId, session, htx, hgrant, happroved, hunexpired, happrover,
          hfound, hsession⟩ (Staged.of_issuing hgrant happroved)
      · cases hstep
        exact .put i (Staged.of_writing hgrant (.revoked happroved rfl rfl)) rfl
          fun _ => .inl (by rw [htx]; rfl)
    · cases hstep
  | issue i sessionId =>
    simp only [deviceStep] at hstep
    split at hstep
    · rename_i now row htx
      obtain ⟨g, hgrant, happroved, rfl⟩ := (h.staged i).issuing now row htx
      cases hstep
      exact .issue htx hgrant happroved
    · cases hstep
  | revoke i sessionIds =>
    simp only [deviceStep] at hstep
    split_ifs at hstep
    cases hstep
    exact .release rfl rfl
  | revokeGrants i =>
    simp only [deviceStep] at hstep
    split at hstep
    · split at hstep
      · cases hstep
        exact .release rfl rfl
      · cases hstep
        exact .release rfl rfl
    · cases hstep
  | commit i =>
    simp only [deviceStep] at hstep
    split at hstep
    · cases hstep
      exact .release rfl rfl
    · rename_i row event htx
      obtain ⟨g, hgrant, ht⟩ := (h.staged i).writing row event htx
      cases hstep
      exact .commit s.sessions (.inl htx) hgrant ht
    · rename_i sessionIds row htx
      obtain ⟨g, hgrant, ht⟩ := (h.staged i).revokeWriting sessionIds row htx
      cases hstep
      exact .commit _ (.inr ⟨sessionIds, htx, rfl⟩) hgrant ht
    · cases hstep
      exact .ended i _
    · cases hstep
  | rollback i =>
    cases hstep
    exact .release rfl rfl
  | prune =>
    simp only [deviceStep] at hstep
    split_ifs at hstep with hprune
    cases hstep
    exact .prune hprune.1

/-- **One step**: it keeps the invariant. -/
lemma DeviceInv.step (h : DeviceInv s) (hstep : deviceStep idleTimeoutMs s a = some s') :
    DeviceInv s' := by
  cases deviceStep_moves h hstep with
  | frame => exact h.frame
  | start hnew => exact h.start hnew
  | prune hfree => exact h.prune (h.not_holds_of_free hfree)
  | put i hstaged _ hlock =>
    exact h.put hstaged fun hholds => (hlock hholds).imp_right h.not_holds_of_free
  | ended i sessions => exact (h.release rfl).frame
  | check hredeems hstaged =>
    obtain ⟨_, _, _, _, htx, -⟩ := hredeems
    exact h.put hstaged fun _ => .inl (by rw [htx]; rfl)
  | issue htx hgrant happroved =>
    exact h.put (Staged.of_writing hgrant (.issued _ happroved rfl rfl))
      fun _ => .inl (by rw [htx]; rfl)
  | commit sessions htx hgrant ht =>
    exact (h.commit (by rcases htx with htx | ⟨_, htx, -⟩ <;> rw [htx] <;> rfl) hgrant ht).frame

lemma deviceInv_init : DeviceInv ⟨0, none, false, fun _ => none, fun _ => .idle, [], []⟩ where
  accounted := ⟨fun _ => ⟨rfl, rfl⟩, Nat.zero_le _, Nat.zero_le _, fun _ hg => (nomatch hg),
    fun _ hg => (nomatch hg), fun _ hg => (nomatch hg)⟩
  opened _ h := nomatch h
  exclusive _ _ h := nomatch h
  staged _ := Staged.of_not_holds rfl

/-- Every run, no step being excluded. -/
def DeviceReaches (idleTimeoutMs : ℤ) (s : DeviceState) : Prop :=
  (deviceSystem idleTimeoutMs).Reaches (fun _ _ => True) s

/-- The rest of a run. -/
def DeviceSteps (idleTimeoutMs : ℤ) (s s' : DeviceState) : Prop :=
  (deviceSystem idleTimeoutMs).Steps (fun _ _ => True) s s'

lemma deviceInv_of_reaches (h : DeviceReaches idleTimeoutMs s) : DeviceInv s :=
  Run.System.Reaches.invariant (P := DeviceInv) deviceInv_init
    (fun _ _ _ hinv _ hstep => hinv.step hstep) h

/-! ### What a step writes -/

/-- **The writes of one step** to the grant and the log: none, the making of the grant, its pruning,
or one transition of the committed grant. -/
lemma deviceStep_writes (h : DeviceInv s) (hstep : deviceStep idleTimeoutMs s a = some s') :
    (s'.grant = s.grant ∧ s'.log = s.log ∧ s'.started = s.started) ∨
    (s.started = false ∧ s'.log = s.log) ∨
    (s'.grant = none ∧ s'.log = s.log ∧ s'.started = s.started) ∨
    ∃ g g' event, s.grant = some g ∧ Transition g g' event ∧ s'.grant = some g' ∧
      s'.log = event :: s.log ∧ s'.started = s.started := by
  cases deviceStep_moves h hstep with
  | start hnew => exact .inr (.inl ⟨hnew, rfl⟩)
  | prune => exact .inr (.inr (.inl ⟨rfl, rfl, rfl⟩))
  | commit sessions htx hgrant ht =>
    exact .inr (.inr (.inr ⟨_, _, _, hgrant, ht, rfl, rfl, rfl⟩))
  | _ => exact .inl ⟨rfl, rfl, rfl⟩

/-! ### Terminal statuses -/

def GrantStatus.terminal : GrantStatus → Bool
  | .denied | .consumed | .revoked => true
  | _ => false

lemma Transition.not_terminal (h : Transition g g' event) :
    g.status.terminal = false := by
  cases h with
  | polled hopen => rcases hopen with hopen | hopen <;> rw [hopen] <;> rfl
  | approved hopen => rw [hopen]; rfl
  | denied hopen => rw [hopen]; rfl
  | stepUpFailed hopen => rw [hopen]; rfl
  | revoked hopen => rw [hopen]; rfl
  | issued issue hopen => rw [hopen]; rfl

/-- The grant has reached a status for good: it keeps it until it is pruned, and the log has
ended. -/
structure Closed (status : GrantStatus) (log : List DeviceEvent) (s : DeviceState) : Prop where
  started : s.started = true
  grant : ∀ g, s.grant = some g → g.status = status
  log : s.log = log

lemma Closed.step {status : GrantStatus} {log : List DeviceEvent} (h : Closed status log s)
    (hinv : DeviceInv s) (hterminal : status.terminal = true)
    (hstep : deviceStep idleTimeoutMs s a = some s') : Closed status log s' := by
  rcases deviceStep_writes hinv hstep with ⟨hgrant, hlog, hstarted⟩ | ⟨hnew, -⟩ |
    ⟨hgrant, hlog, hstarted⟩ | ⟨g, g', event, hg, ht, -⟩
  · exact ⟨hstarted.trans h.started, fun g hg => h.grant g (hgrant ▸ hg), hlog.trans h.log⟩
  · rw [h.started] at hnew
    cases hnew
  · refine ⟨hstarted.trans h.started, fun g hg => ?_, hlog.trans h.log⟩
    rw [hgrant] at hg
    cases hg
  · have hopen := ht.not_terminal
    rw [h.grant g hg, hterminal] at hopen
    cases hopen

/-- **No terminal status is left.** -/
lemma closed_of_steps (hreach : DeviceReaches idleTimeoutMs s)
    (hsteps : DeviceSteps idleTimeoutMs s s') (hgrant : s.grant = some g)
    (hterminal : g.status.terminal = true) : Closed g.status s.log s' := by
  have hinv := deviceInv_of_reaches hreach
  have hstarted : s.started = true := by
    cases hs : s.started with
    | true => rfl
    | false =>
      rw [(hinv.accounted.unstarted hs).1] at hgrant
      cases hgrant
  have hclosed : Closed g.status s.log s := by
    refine ⟨hstarted, fun g' hg' => ?_, rfl⟩
    rw [hgrant] at hg'
    rw [Option.some.inj hg']
  have hboth : DeviceInv s' ∧ Closed g.status s.log s' :=
    Run.System.Steps.invariant (P := fun s' => DeviceInv s' ∧ Closed g.status s.log s')
      (fun _ _ _ h _ hstep => ⟨h.1.step hstep, h.2.step h.1 hterminal hstep⟩) hsteps
      ⟨hinv, hclosed⟩
  exact hboth.2

/-! ### Redemption -/

/-- Some earlier state of the run redeems the grant. -/
def Redeemed (idleTimeoutMs : ℤ) (s : DeviceState) (tx : ℕ) (now : ℤ) : Prop :=
  ∃ s₀, DeviceReaches idleTimeoutMs s₀ ∧ DeviceSteps idleTimeoutMs s₀ s ∧
    Redeems idleTimeoutMs s₀ tx now

lemma Redeemed.step {j : ℕ} (h : Redeemed idleTimeoutMs s j now)
    (hstep : deviceStep idleTimeoutMs s a = some s') :
    Redeemed idleTimeoutMs s' j now := by
  obtain ⟨s₀, hreach, hsteps, hredeems⟩ := h
  exact ⟨s₀, hreach, Relation.ReflTransGen.tail hsteps ⟨a, trivial, hstep⟩, hredeems⟩

/-- A transaction that is about to issue, or has staged an issue, has redeemed the grant. -/
def DeviceTx.Redeemed (idleTimeoutMs : ℤ) (s : DeviceState) (i : ℕ) : DeviceTx → Prop
  | .issuing now _ => Cli.Redeemed idleTimeoutMs s i now
  | .writing _ (.issued issue) => issue.tx = i ∧ Cli.Redeemed idleTimeoutMs s i issue.now
  | _ => True

lemma DeviceTx.Redeemed.of_quiet (h : tx.quiet = true) : tx.Redeemed idleTimeoutMs s i := by
  cases tx with
  | issuing now row => cases h
  | writing row event =>
    cases event with
    | issued issue => cases h
    | _ => trivial
  | _ => trivial

lemma DeviceTx.Redeemed.step {j : ℕ} (h : tx.Redeemed idleTimeoutMs s j)
    (hstep : deviceStep idleTimeoutMs s a = some s') : tx.Redeemed idleTimeoutMs s' j := by
  cases tx with
  | issuing now row => exact Cli.Redeemed.step h hstep
  | writing row event =>
    cases event with
    | issued issue => exact ⟨h.1, h.2.step hstep⟩
    | _ => trivial
  | _ => trivial

/-- What is issued has been redeemed. -/
structure RedeemInv (idleTimeoutMs : ℤ) (s : DeviceState) : Prop where
  txs : ∀ i, (s.txs i).Redeemed idleTimeoutMs s i
  issues : ∀ issue ∈ s.issues, Redeemed idleTimeoutMs s issue.tx issue.now

/-- A step after which every changed transaction is quiet and nothing new is issued. -/
lemma RedeemInv.quiet (h : RedeemInv idleTimeoutMs s)
    (hstep : deviceStep idleTimeoutMs s a = some s')
    (htxs : ∀ j, s'.txs j = s.txs j ∨ (s'.txs j).quiet = true) (hissues : s'.issues = s.issues) :
    RedeemInv idleTimeoutMs s' where
  txs j := by
    rcases htxs j with heq | hquiet
    · rw [heq]
      exact (h.txs j).step hstep
    · exact DeviceTx.Redeemed.of_quiet hquiet
  issues issue hissue := by
    rw [hissues] at hissue
    exact (h.issues issue hissue).step hstep

/-- A transaction put to a quiet phase. -/
lemma put_quiet (s : DeviceState) (i : ℕ) (hquiet : tx.quiet = true) (j : ℕ) :
    (s.put i tx).txs j = s.txs j ∨ ((s.put i tx).txs j).quiet = true := by
  rw [put_txs]
  split
  · exact .inr hquiet
  · exact .inl rfl

/-- **One step**: a poll about to issue has redeemed the grant in the state before its check. -/
lemma RedeemInv.step (h : RedeemInv idleTimeoutMs s) (hreach : DeviceReaches idleTimeoutMs s)
    (hstep : deviceStep idleTimeoutMs s a = some s') :
    RedeemInv idleTimeoutMs s' := by
  have hinv := deviceInv_of_reaches hreach
  have hquiet := h.quiet hstep
  have hissues := fun issue hissue => (h.issues issue hissue).step hstep
  -- a transaction that goes on to issue, beside the others
  have hput : ∀ {i : ℕ} {tx : DeviceTx}, tx.Redeemed idleTimeoutMs s' i →
      ∀ j, ((s.put i tx).txs j).Redeemed idleTimeoutMs s' j := by
    intro i tx htx j
    rw [put_txs]
    split
    · rename_i hji
      exact hji ▸ htx
    · exact (h.txs j).step hstep
  cases deviceStep_moves hinv hstep with
  | frame | start | prune => exact hquiet (fun _ => .inl rfl) rfl
  | put i _ htx => exact hquiet (put_quiet s i htx) rfl
  | ended i => exact hquiet (put_quiet s i rfl) rfl
  | check hredeems =>
    exact ⟨hput (Redeemed.step ⟨s, hreach, .refl, hredeems⟩ hstep), hissues⟩
  | @issue i _ _ _ htx =>
    have hissuing := h.txs i
    rw [htx] at hissuing
    exact ⟨hput ⟨rfl, Redeemed.step hissuing hstep⟩, hissues⟩
  | @commit i _ _ event sessions htx =>
    cases event with
    | issued issue =>
      have hwriting := h.txs i
      rw [htx.resolve_right fun ⟨_, _, hevent⟩ => nomatch hevent] at hwriting
      refine ⟨@hput i .idle trivial, fun issue' hissue => ?_⟩
      rcases List.mem_cons.1 hissue with rfl | hissue
      · exact hwriting.1 ▸ hwriting.2.step hstep
      · exact hissues issue' hissue
    | _ => exact hquiet (put_quiet s i rfl) rfl

lemma redeemInv_of_reaches (h : DeviceReaches idleTimeoutMs s) : RedeemInv idleTimeoutMs s := by
  have hinit : RedeemInv idleTimeoutMs (deviceSystem idleTimeoutMs).init :=
    ⟨fun _ => trivial, fun _ hissue => absurd hissue List.not_mem_nil⟩
  have hboth : DeviceReaches idleTimeoutMs s ∧ RedeemInv idleTimeoutMs s :=
    Run.System.Steps.invariant
      (P := fun s => DeviceReaches idleTimeoutMs s ∧ RedeemInv idleTimeoutMs s)
      (fun _ _ _ hs _ hstep => ⟨Run.System.Reaches.step hs.1 trivial hstep, hs.2.step hs.1 hstep⟩)
      h ⟨Relation.ReflTransGen.refl, hinit⟩
  exact hboth.2

/-! ### The main result -/

/-- **The device grant**, in every interleaving: it yields at most one session; the session was
redeemed by a poll that held the grant while it was approved and unexpired and its approving
session was live; at most the limit of failed step-ups is accepted, fewer while the grant is
pending; and from a terminal status on, the status and the log stay as they are. -/
theorem device_grant_machine (idleTimeoutMs : ℤ) (s : DeviceState)
    (h : DeviceReaches idleTimeoutMs s) :
    s.issues.length ≤ 1 ∧
    (∀ issue ∈ s.issues, Redeemed idleTimeoutMs s issue.tx issue.now) ∧
    (s.failedStepUps ≤ cliDeviceStepUpFailureLimit ∧ ∀ g, s.grant = some g →
      g.status = .pending → s.failedStepUps < cliDeviceStepUpFailureLimit) ∧
    ∀ s' g, DeviceSteps idleTimeoutMs s s' → s.grant = some g → g.status.terminal = true →
      Closed g.status s.log s' := by
  have hinv := deviceInv_of_reaches h
  refine ⟨hinv.accounted.issues, (redeemInv_of_reaches h).issues,
    ⟨hinv.accounted.failures, fun g hgrant hpending => ?_⟩,
    fun s' g hsteps hgrant hterminal => closed_of_steps h hsteps hgrant hterminal⟩
  rw [hinv.accounted.counted g hgrant]
  exact hinv.accounted.below g hgrant hpending

/-- A sign-in: an early poll, a failed step-up, the approval, the redemption and a late
revocation. -/
def signIn : List DeviceLabel :=
  let approver : Approver := ⟨7, 3, 1⟩
  [.login 1 ⟨none, 900000, 0⟩, .start, .poll 0, .lock 0, .commit 0,
    .decide 1 ⟨approver, .approve, true, .refused⟩, .lock 1, .commit 1,
    .decide 2 ⟨approver, .approve, true, .valid⟩, .lock 2, .commit 2, .tick 6000,
    .poll 3, .lock 3, .revoke 4 [1], .check 3, .revokeGrants 4, .issue 3 50, .commit 3, .lock 4,
    .commit 4]

theorem device_grant_machine_signIn : ∃ s, DeviceReaches 1800000 s ∧
    s.issues = [⟨3, 6000, 50⟩] ∧ Redeemed 1800000 s 3 6000 ∧ s.failedStepUps = 1 ∧
    s.failedStepUps ≤ cliDeviceStepUpFailureLimit := by
  obtain ⟨s, hexec, hissues, hfailed⟩ := (deviceSystem 1800000).exists_of_exec
    (fun _ _ => True) (deviceSystem 1800000).init signIn
    (fun s => s.issues = [⟨3, 6000, 50⟩] ∧ s.failedStepUps = 1) (by decide +kernel)
  have hreach : DeviceReaches 1800000 s := Run.System.steps_of_exec hexec
  obtain ⟨-, hredeemed, hfailures, -⟩ := device_grant_machine 1800000 s hreach
  exact ⟨s, hreach, hissues, hredeemed ⟨3, 6000, 50⟩ (by rw [hissues]; exact List.mem_singleton_self _),
    hfailed, hfailures.1⟩

end Cli
