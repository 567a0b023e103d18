import ProjectVault.Run.System

/-!
The fallback mode of the agent (`agent/src/fallback-state.ts`).
-/

namespace Agent

/-! ### The state of an agent -/

/-- `FallbackState`. -/
structure FallbackState where
  inFallback : Bool
  consecutiveFailures : ℕ
  windowStartedAt : Option ℕ
  lastLiveRetryAt : ℕ

/-- `FAILURE_WINDOW_MS`. -/
def failureWindowMs : ℕ := 30000

/-- `LIVE_RETRY_INTERVAL_MS`. -/
def liveRetryIntervalMs : ℕ := 30000

/-- `createFallbackState`. -/
def createFallbackState : FallbackState := ⟨false, 0, none, 0⟩

/-- The failure window has not been opened, or has run out. -/
def FallbackState.windowOver (state : FallbackState) (now : ℕ) : Bool :=
  match state.windowStartedAt with
  | none => true
  | some startedAt => now - startedAt > failureWindowMs

/-- `recordNetworkFailure`. -/
def recordNetworkFailure (state : FallbackState) (threshold now : ℕ) : FallbackState :=
  let state :=
    if state.windowOver now then
      { state with windowStartedAt := some now, consecutiveFailures := 0 }
    else state
  let state := { state with consecutiveFailures := state.consecutiveFailures + 1 }
  if state.consecutiveFailures ≥ threshold then { state with inFallback := true } else state

/-- `recordSuccess`. -/
def recordSuccess (state : FallbackState) : FallbackState :=
  { state with consecutiveFailures := 0, windowStartedAt := none, inFallback := false }

/-- `shouldAttemptLiveRetry`. -/
def shouldAttemptLiveRetry (state : FallbackState) (now : ℕ) : Bool :=
  if !state.inFallback then true else now - state.lastLiveRetryAt ≥ liveRetryIntervalMs

/-- `markLiveRetryAttempted`. -/
def markLiveRetryAttempted (state : FallbackState) (now : ℕ) : FallbackState :=
  { state with lastLiveRetryAt := now }

/-! ### Live attempts -/

/-- How a live attempt of `getSecret` ends: with the value, with an error that is no
`TypeError` (thrown for what a response says), or with a `TypeError`, after a response has
been received or without any. -/
inductive LiveOutcome where
  | value | httpError | brokenResponse | networkFailure

/-- Some fetch of the attempt was answered, whatever the status. -/
def LiveOutcome.responded : LiveOutcome → Bool
  | .networkFailure => false
  | _ => true

/-- What `getSecret` makes of the end of a live attempt: the `try` block records a success,
the `catch` block a failure for every `TypeError`, and other errors go through. -/
def FallbackState.settle (state : FallbackState) (threshold now : ℕ) : LiveOutcome → FallbackState
  | .value => recordSuccess state
  | .httpError => state
  | .brokenResponse | .networkFailure =>
    recordNetworkFailure (markLiveRetryAttempted state now) threshold now

/-- A live attempt that has ended: when, whether a response was received, and whether the
agent was in fallback before and after it. -/
structure Attempt where
  settledAt : ℕ
  responded : Bool
  wasInFallback : Bool
  inFallback : Bool

/-- An agent with its calls: the live attempts under way, those that have ended (the newest
first), and the clock. -/
structure FallbackRun where
  state : FallbackState
  underWay : ℕ
  attempts : List Attempt
  now : ℕ

/-- What can happen to an agent. -/
inductive FallbackLabel where
  /-- `getSecret` is called: it starts a live attempt, or reads the cache. -/
  | calls (t : ℕ)
  /-- A live attempt ends. -/
  | settles (t : ℕ) (outcome : LiveOutcome)

/-- A live attempt has ended. -/
def FallbackRun.settle (r : FallbackRun) (threshold now : ℕ) (outcome : LiveOutcome) :
    FallbackRun where
  state := r.state.settle threshold now outcome
  underWay := r.underWay - 1
  attempts := ⟨now, outcome.responded, r.state.inFallback,
    (r.state.settle threshold now outcome).inFallback⟩ :: r.attempts
  now := now

/-- One step; the clock does not go back. -/
def fallbackStep (threshold : ℕ) (r : FallbackRun) : FallbackLabel → Option FallbackRun
  | .calls t =>
    if t < r.now then none
    else if shouldAttemptLiveRetry r.state t then
      some { r with underWay := r.underWay + 1, now := t }
    else some { r with now := t }
  | .settles t outcome =>
    if t < r.now ∨ r.underWay = 0 then none else some (r.settle threshold t outcome)

/-- The calls of one agent. -/
def fallbackSystem (threshold : ℕ) : Run.System FallbackRun FallbackLabel where
  init := ⟨createFallbackState, 0, [], 0⟩
  step := fallbackStep threshold

/-! ### The law -/

/-- The last `threshold` live attempts got no response, and lie within 30 seconds of each
other. -/
def RecentFailures (threshold : ℕ) (attempts : List Attempt) : Prop :=
  threshold ≤ attempts.length ∧
    (∀ a ∈ attempts.take threshold, a.responded = false) ∧
    ∀ a ∈ attempts.take threshold, ∀ b ∈ attempts.take threshold,
      a.settledAt ≤ b.settledAt + failureWindowMs

instance (threshold : ℕ) (attempts : List Attempt) :
    Decidable (RecentFailures threshold attempts) := by
  unfold RecentFailures
  infer_instance

/-- What the last live attempt must leave behind: a response ends fallback; after a failure
the agent is in fallback if it was, or if the last attempts say so. -/
def FollowsLaw (threshold : ℕ) : List Attempt → Prop
  | [] => True
  | a :: older =>
    if a.responded then a.inFallback = false
    else a.inFallback = true ↔ a.wasInFallback = true ∨ RecentFailures threshold (a :: older)

instance (threshold : ℕ) : DecidablePred (FollowsLaw threshold)
  | [] => inferInstanceAs (Decidable True)
  | a :: older =>
    inferInstanceAs (Decidable (if a.responded then a.inFallback = false
      else a.inFallback = true ↔ a.wasInFallback = true ∨ RecentFailures threshold (a :: older)))

/-- The fallback law: every live attempt of the run has followed it. -/
def FallbackRun.Lawful (threshold : ℕ) (r : FallbackRun) : Prop :=
  ∀ attempts, attempts <:+ r.attempts → FollowsLaw threshold attempts

/-- The steps that stay clear of the two ways the count goes wrong. A response without the
value finds the agent out of fallback and with no failure counted, and is read as a response.
A failure that opens a new counting window comes more than 30 seconds after the last attempt,
unless nothing is counted at all (in fallback, or with a threshold of one failure). -/
def Steady (threshold : ℕ) (r : FallbackRun) : FallbackLabel → Prop
  | .settles _ .httpError => r.state.inFallback = false ∧ r.state.consecutiveFailures = 0
  | .settles _ .brokenResponse => False
  | .settles t .networkFailure =>
    r.state.inFallback = true ∨ threshold ≤ 1 ∨ r.state.consecutiveFailures = 0 ∨
      r.state.windowOver t = false ∨ ∀ last ∈ r.attempts.head?, last.settledAt + failureWindowMs < t
  | _ => True

instance (threshold : ℕ) : DecidablePred (FallbackRun.Lawful threshold) := fun r =>
  decidable_of_iff (∀ attempts ∈ r.attempts.tails, FollowsLaw threshold attempts)
    (by simp [FallbackRun.Lawful])

instance (threshold : ℕ) (r : FallbackRun) (l : FallbackLabel) : Decidable (Steady threshold r l) := by
  unfold Steady
  split <;> infer_instance

/-- What the counting window holds: the attempts since it was opened, none of them answered
and none later than its end; what came before is answered or out of reach. -/
structure Counts (state : FallbackState) (attempts : List Attempt) (startedAt : ℕ)
    (recent older : List Attempt) : Prop where
  window : state.windowStartedAt = some startedAt
  split : attempts = recent ++ older
  count : recent.length = state.consecutiveFailures
  silent : ∀ a ∈ recent, a.responded = false
  bounds : ∀ a ∈ recent, startedAt ≤ a.settledAt ∧ a.settledAt ≤ startedAt + failureWindowMs
  before : ∀ last ∈ older.head?,
    last.responded = true ∨ last.settledAt + failureWindowMs < startedAt

/-- What an agent out of fallback knows of its attempts. -/
inductive Counted (threshold : ℕ) (state : FallbackState) (attempts : List Attempt) : Prop where
  | idle (window : state.windowStartedAt = none) (count : state.consecutiveFailures = 0)
      (answered : ∀ last ∈ attempts.head?, last.responded = true)
  | counting (startedAt : ℕ) (recent older : List Attempt)
      (counts : Counts state attempts startedAt recent older)
      (positive : 0 < state.consecutiveFailures) (below : state.consecutiveFailures < threshold)

/-- What every run keeps. -/
structure FallbackInv (threshold : ℕ) (r : FallbackRun) : Prop where
  past : ∀ a ∈ r.attempts, a.settledAt ≤ r.now
  counted : r.state.inFallback = false → Counted threshold r.state r.attempts
  lawful : r.Lawful threshold

/-! ### Recording a failure -/

variable {threshold : ℕ} {state : FallbackState} {attempts recent older : List Attempt}
  {startedAt t : ℕ} {a : Attempt}

/-- Within a window the last attempts are failures if and only if the window holds enough of
them. -/
lemma Counts.recentFailures_iff (h : Counts state attempts startedAt recent older)
    (hpos : 0 < state.consecutiveFailures) :
    RecentFailures threshold attempts ↔ threshold ≤ state.consecutiveFailures := by
  rw [← h.count] at hpos ⊢
  constructor
  · rintro ⟨hlength, hsilent, hclose⟩
    by_contra hlt
    obtain ⟨first, hfirst⟩ := List.exists_mem_of_length_pos hpos
    -- the attempt before the window is among the last ones
    rw [h.split] at hlength hsilent hclose
    cases hold : older with
    | nil =>
      rw [hold, List.append_nil] at hlength
      omega
    | cons last rest =>
      rw [hold] at hlength hsilent hclose
      have htake : (recent ++ last :: rest).take threshold =
          recent ++ last :: rest.take (threshold - recent.length - 1) := by
        rw [List.take_append, List.take_of_length_le (by omega)]
        obtain ⟨n, hn⟩ : ∃ n, threshold - recent.length = n + 1 :=
          ⟨threshold - recent.length - 1, by omega⟩
        rw [hn, List.take_succ_cons, Nat.add_sub_cancel]
      rw [htake] at hsilent hclose
      cases h.before last (by rw [hold]; rfl) with
      | inl hanswered =>
        have hnot := hsilent last (by simp)
        rw [hanswered] at hnot
        exact absurd hnot (by decide)
      | inr hearly =>
        have hspread := hclose first (by simp [hfirst]) last (by simp)
        have hopen := (h.bounds first hfirst).1
        omega
  · intro hle
    have htake : attempts.take threshold = recent.take threshold := by
      rw [h.split, List.take_append_of_le_length hle]
    rw [RecentFailures, htake]
    refine ⟨?_, fun b hb => h.silent b (List.mem_of_mem_take hb), fun b hb c hc => ?_⟩
    · rw [h.split, List.length_append]
      omega
    · have hb' := h.bounds b (List.mem_of_mem_take hb)
      have hc' := h.bounds c (List.mem_of_mem_take hc)
      omega

/-- A threshold of one failure is reached by any failure. -/
lemma recentFailures_of_le_one (hthreshold : threshold ≤ 1) (ha : a.responded = false) :
    RecentFailures threshold (a :: attempts) := by
  have htake : ∀ b ∈ (a :: attempts).take threshold, b = a := by
    intro b hb
    have hsub := List.take_subset_take_left (a :: attempts) hthreshold hb
    simpa using hsub
  refine ⟨?_, fun b hb => htake b hb ▸ ha, fun b hb c hc => ?_⟩
  · rw [List.length_cons]
    omega
  · rw [htake b hb, htake c hc]
    omega

lemma consecutiveFailures_recordNetworkFailure (state : FallbackState) (threshold t : ℕ) :
    (recordNetworkFailure state threshold t).consecutiveFailures =
      (if state.windowOver t then 0 else state.consecutiveFailures) + 1 := by
  rw [recordNetworkFailure]
  cases state.windowOver t <;> simp only [Bool.false_eq_true, if_true, if_false] <;> split <;> rfl

lemma windowStartedAt_recordNetworkFailure (state : FallbackState) (threshold t : ℕ) :
    (recordNetworkFailure state threshold t).windowStartedAt =
      if state.windowOver t then some t else state.windowStartedAt := by
  rw [recordNetworkFailure]
  cases state.windowOver t <;> simp only [Bool.false_eq_true, if_true, if_false] <;> split <;> rfl

/-- A failure puts the agent in fallback when the count reaches the threshold. -/
lemma inFallback_recordNetworkFailure (state : FallbackState) (threshold t : ℕ) :
    (recordNetworkFailure state threshold t).inFallback = true ↔ state.inFallback = true ∨
      threshold ≤ (recordNetworkFailure state threshold t).consecutiveFailures := by
  rw [consecutiveFailures_recordNetworkFailure, recordNetworkFailure]
  cases state.windowOver t <;> simp only [Bool.false_eq_true, if_true, if_false] <;> split <;>
    simp_all

lemma Counts.record (h : Counts state attempts startedAt recent older)
    (hopen : state.windowOver t = false) (hpast : startedAt ≤ t) (ha : a.responded = false)
    (hat : a.settledAt = t) :
    Counts (recordNetworkFailure state threshold t) (a :: attempts) startedAt (a :: recent) older := by
  have hbound : t ≤ startedAt + failureWindowMs := by
    simp only [FallbackState.windowOver, h.window, gt_iff_lt, decide_eq_false_iff_not,
      not_lt] at hopen
    omega
  refine ⟨?_, by rw [h.split, List.cons_append], ?_, ?_, ?_, h.before⟩
  · rw [windowStartedAt_recordNetworkFailure, hopen]
    exact h.window
  · rw [consecutiveFailures_recordNetworkFailure, hopen, List.length_cons, h.count]
    rfl
  · exact fun b hb => (List.mem_cons.1 hb).elim (fun heq => heq ▸ ha) (h.silent b)
  · intro b hb
    cases List.mem_cons.1 hb with
    | inl heq =>
      rw [heq, hat]
      exact ⟨hpast, hbound⟩
    | inr hmem => exact h.bounds b hmem

lemma counts_opened (hover : state.windowOver t = true) (ha : a.responded = false)
    (hat : a.settledAt = t)
    (hbefore : ∀ last ∈ attempts.head?,
      last.responded = true ∨ last.settledAt + failureWindowMs < t) :
    Counts (recordNetworkFailure state threshold t) (a :: attempts) t [a] attempts where
  window := by
    rw [windowStartedAt_recordNetworkFailure, hover]
    rfl
  split := rfl
  count := by
    rw [consecutiveFailures_recordNetworkFailure, hover]
    rfl
  silent b hb := by
    rw [List.mem_singleton.1 hb]
    exact ha
  bounds b hb := by
    rw [List.mem_singleton.1 hb, hat]
    omega
  before := hbefore

/-! ### Steps and runs -/

variable {r r' : FallbackRun} {l : FallbackLabel}

lemma FallbackRun.Lawful.cons (h : r.Lawful threshold) (hattempts : r'.attempts = a :: r.attempts)
    (ha : FollowsLaw threshold (a :: r.attempts)) : r'.Lawful threshold := by
  intro attempts hsuffix
  rw [hattempts, List.suffix_cons_iff] at hsuffix
  cases hsuffix with
  | inl heq => exact heq ▸ ha
  | inr hold => exact h attempts hold

/-- A failure is counted from where the law counts, unless nothing is counted any more. -/
lemma FallbackInv.counts (h : FallbackInv threshold r) (ht : r.now ≤ t)
    (hsteady : Steady threshold r (.settles t .networkFailure)) (ha : a.responded = false)
    (hat : a.settledAt = t) :
    r.state.inFallback = true ∨ threshold ≤ 1 ∨ ∃ startedAt recent older,
      Counts (recordNetworkFailure (markLiveRetryAttempted r.state t) threshold t)
        (a :: r.attempts) startedAt recent older := by
  cases hout : r.state.inFallback with
  | true => exact .inl rfl
  | false =>
    refine .inr ?_
    cases h.counted hout with
    | idle window count answered =>
      have hover : (markLiveRetryAttempted r.state t).windowOver t = true := by
        rw [FallbackState.windowOver, markLiveRetryAttempted, window]
      exact .inr ⟨t, [a], r.attempts, counts_opened hover ha hat fun last hlast =>
        .inl (answered last hlast)⟩
    | counting startedAt recent older counts positive below =>
      have hcounts : Counts (markLiveRetryAttempted r.state t) r.attempts startedAt recent
          older :=
        ⟨counts.window, counts.split, counts.count, counts.silent, counts.bounds, counts.before⟩
      cases hopen : (markLiveRetryAttempted r.state t).windowOver t with
      | false =>
        obtain ⟨first, hfirst⟩ : ∃ first, first ∈ recent :=
          List.exists_mem_of_length_pos (by rw [counts.count]; exact positive)
        have hpast := h.past first (by rw [counts.split]; simp [hfirst])
        have hstart := (counts.bounds first hfirst).1
        exact .inr ⟨startedAt, a :: recent, older, hcounts.record hopen (by omega) ha hat⟩
      | true =>
        have hover : r.state.windowOver t = true := hopen
        rcases hsteady with hin | hone | hzero | hnot | hlast
        · rw [hout] at hin
          exact absurd hin (by decide)
        · exact .inl hone
        · omega
        · rw [hover] at hnot
          exact absurd hnot (by decide)
        · exact .inr ⟨t, [a], r.attempts, counts_opened hopen ha hat fun last hhead =>
            .inr (hlast last hhead)⟩

/-- A failure that is counted follows the law. -/
lemma FallbackInv.networkFailure (h : FallbackInv threshold r) (ht : r.now ≤ t)
    (hsteady : Steady threshold r (.settles t .networkFailure)) :
    FallbackInv threshold (r.settle threshold t .networkFailure) := by
  set state := recordNetworkFailure (markLiveRetryAttempted r.state t) threshold t with hstate
  set new : Attempt := ⟨t, false, r.state.inFallback, state.inFallback⟩ with hnew
  have hinFallback : state.inFallback = true ↔ r.state.inFallback = true ∨
      threshold ≤ state.consecutiveFailures :=
    inFallback_recordNetworkFailure _ threshold t
  have hpos : 0 < state.consecutiveFailures := by
    rw [hstate, consecutiveFailures_recordNetworkFailure]
    exact Nat.succ_pos _
  -- the window of the state and the last attempts decide alike
  have hlaw : state.inFallback = true ↔
      r.state.inFallback = true ∨ RecentFailures threshold (new :: r.attempts) := by
    rcases h.counts (a := new) ht hsteady rfl rfl with
      hin | hone | ⟨startedAt, recent, older, hcounts⟩
    · simp [hinFallback, hin]
    · have hreached : threshold ≤ state.consecutiveFailures := by omega
      have hrecent : RecentFailures threshold (new :: r.attempts) :=
        recentFailures_of_le_one hone rfl
      simp [hinFallback, hreached, hrecent]
    · rw [hinFallback, hcounts.recentFailures_iff hpos]
  refine ⟨fun b hb => ?_, fun hout => ?_, h.lawful.cons rfl ?_⟩
  · cases List.mem_cons.1 hb with
    | inl heq => exact heq ▸ le_rfl
    | inr hmem => exact (h.past b hmem).trans ht
  · have hnot : ¬ (r.state.inFallback = true ∨ threshold ≤ state.consecutiveFailures) := by
      rw [← hinFallback]
      exact fun hin => Bool.noConfusion (hout.symm.trans hin)
    push Not at hnot
    rcases h.counts (a := new) ht hsteady rfl rfl with
      hin | hone | ⟨startedAt, recent, older, hcounts⟩
    · exact absurd hin hnot.1
    · omega
    · exact .counting startedAt recent older hcounts hpos hnot.2
  · have hsilent : ¬ LiveOutcome.networkFailure.responded = true := by decide
    rw [FollowsLaw, if_neg hsilent]
    exact hlaw

/-- **One step of the agent** keeps the law. -/
lemma FallbackInv.step (h : FallbackInv threshold r) (hsteady : Steady threshold r l)
    (hstep : fallbackStep threshold r l = some r') : FallbackInv threshold r' := by
  cases l with
  | calls t =>
    rw [fallbackStep] at hstep
    split_ifs at hstep with hback hlive
    all_goals
      cases hstep
      exact ⟨fun b hb => (h.past b hb).trans (not_lt.1 hback), h.counted, h.lawful⟩
  | settles t outcome =>
    rw [fallbackStep] at hstep
    split_ifs at hstep with hback
    cases hstep
    push Not at hback
    have hpast : ∀ a ∈ r.attempts, a.settledAt ≤ t := fun a ha => (h.past a ha).trans hback.1
    cases outcome with
    | value =>
      refine ⟨List.forall_mem_cons.2 ⟨le_rfl, hpast⟩, fun _ => ?_, h.lawful.cons rfl rfl⟩
      refine .idle rfl rfl fun last hlast => ?_
      cases hlast
      rfl
    | httpError =>
      obtain ⟨hout, hzero⟩ := hsteady
      refine ⟨List.forall_mem_cons.2 ⟨le_rfl, hpast⟩, fun _ => ?_, h.lawful.cons rfl ?_⟩
      · cases h.counted hout with
        | idle window count answered =>
          refine .idle window count fun last hlast => ?_
          cases hlast
          rfl
        | counting startedAt recent older counts positive below => omega
      · rw [FollowsLaw, if_pos (by rfl)]
        exact hout
    | brokenResponse => exact hsteady.elim
    | networkFailure => exact h.networkFailure hback.1 hsteady

lemma fallbackInv_init (threshold : ℕ) : FallbackInv threshold (fallbackSystem threshold).init where
  past a ha := absurd ha List.not_mem_nil
  counted _ := .idle rfl rfl nofun
  lawful attempts hsuffix := by
    obtain rfl := List.suffix_nil.1 hsuffix
    trivial

/-- **Fallback law.** In a run whose steps stay clear of the two ways the count goes wrong, an
agent is in fallback after a failure if and only if it was, or the last `threshold` live attempts
got no response and lie within 30 seconds of each other; and a response ends fallback. -/
theorem fallback_law (threshold : ℕ) (r : FallbackRun)
    (h : (fallbackSystem threshold).Reaches (Steady threshold) r) : r.Lawful threshold :=
  (Run.System.Reaches.invariant (fallbackInv_init threshold)
    (fun _ _ _ hinv hsteady hstep => hinv.step hsteady hstep) h).lawful

/-- Three failures in a row, a call answered from the cache, and a recovery. -/
theorem fallback_law_recovered :
    ∃ r, (fallbackSystem 3).Reaches (Steady 3) r ∧ r.attempts.map (·.inFallback) =
      [false, true, false, false] ∧ r.Lawful 3 := by
  obtain ⟨r, hexec, hattempts⟩ :=
    Run.System.exists_of_exec (fallbackSystem 3) (Steady 3) (fallbackSystem 3).init
      [.calls 0, .settles 10 .networkFailure, .calls 12000, .settles 12010 .networkFailure,
        .calls 24000, .settles 24010 .networkFailure, .calls 30000, .calls 54010,
        .settles 54500 .value]
      (fun r => r.attempts.map (·.inFallback) = [false, true, false, false]) (by decide)
  have hreach := Run.System.steps_of_exec hexec
  exact ⟨r, hreach, hattempts, fallback_law 3 r hreach⟩

/-- The four ways to leave the law, with a threshold of three failures: a response between the
failures that is passed over, one that does not end fallback, one that is read as a failure, and
failures 25 seconds apart in two counting windows. -/
def deviatingRuns : List (List FallbackLabel) :=
  [[.calls 0, .settles 10 .networkFailure, .calls 1000, .settles 1010 .networkFailure,
      .calls 2000, .settles 2010 .httpError, .calls 3000, .settles 3010 .networkFailure],
    [.calls 0, .settles 10 .networkFailure, .calls 1000, .settles 1010 .networkFailure,
      .calls 2000, .settles 2010 .networkFailure, .calls 40000, .settles 40010 .httpError],
    [.calls 0, .settles 10 .networkFailure, .calls 1000, .settles 1010 .networkFailure,
      .calls 2000, .settles 2010 .brokenResponse],
    [.calls 0, .settles 10 .networkFailure, .calls 20000, .settles 20010 .networkFailure,
      .calls 35000, .settles 35010 .networkFailure, .calls 45000, .settles 45010 .networkFailure]]

/-- Each of them does. -/
theorem fallback_unlawful :
    deviatingRuns.Forall fun run =>
      ∃ r, (fallbackSystem 3).exec (fun _ _ => True) (fallbackSystem 3).init run = some r ∧
        ¬ r.Lawful 3 := by
  rw [List.forall_iff_forall_mem]
  intro run hrun
  have hall : ∀ run ∈ deviatingRuns,
      ((fallbackSystem 3).exec (fun _ _ => True) (fallbackSystem 3).init run).any
        (fun r => decide (¬ r.Lawful 3)) = true := by
    decide
  exact Run.System.exists_of_exec (fallbackSystem 3) (fun _ _ => True) (fallbackSystem 3).init run
    (fun r => ¬ r.Lawful 3) (hall run hrun)

end Agent
