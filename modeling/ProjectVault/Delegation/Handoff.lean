import ProjectVault.Delegation.HandoffVerify
import ProjectVault.Delegation.Replay

/-!
Handoff claims against the nonce table, the jti ledger and their pruners (`handoff-routes`,
`handoff-nonce-db`, `prune-handoff-token-jti`).
-/

namespace Delegation

open Js

/-! ### The tables -/

/-- A row of `handoff_nonces`, times in milliseconds. -/
structure NonceRow where
  nonceHash : Units
  expiresAt : ℤ
  consumedAt : Option ℤ

/-- A row of `handoff_token_jti`. -/
structure HandoffJtiRow where
  jti : Units
  expiresAt : ℤ

def handoffTtlMs : ℤ := 120000

inductive HandoffEvent where
  | nonceUnknown | nonceReused | nonceExpired | nonceMismatch | malformedClaim | replay
  | replayStoreUnavailable | orgMismatch | ambiguousOrg
  | rejected (reason : HandoffRejectReason)
  deriving DecidableEq

/-- The condition of the consuming update. -/
def NonceRow.consumable (hash : Units) (dbNow : ℤ) (r : NonceRow) : Bool :=
  r.nonceHash == hash && r.consumedAt.isNone && dbNow < r.expiresAt

/-- The consuming update. -/
def consumeRows (hash : Units) (dbNow : ℤ) (rows : List NonceRow) : List NonceRow :=
  rows.map fun r => if r.consumable hash dbNow then { r with consumedAt := some dbNow } else r

/-- How the read after a missed update classifies it. -/
def classifyMiss (hash : Units) (rows : List NonceRow) : HandoffEvent :=
  match rows.find? fun r => r.nonceHash = hash with
  | none => .nonceUnknown
  | some r => if r.consumedAt.isSome then .nonceReused else .nonceExpired

/-- `classifyJtiBurnError`. -/
def classifyJtiBurnError (code : Option String) : HandoffEvent :=
  if code = some "23505" then .replay else .replayStoreUnavailable

/-! ### Claims -/

/-- How far a claim is: its nonce not yet presented, missed or consumed, its token verified
against the nonce, its jti burned, its session being minted, or the claim rejected. -/
inductive ClaimPhase where
  | received
  | missed
  | consumed
  | verified (claims : HandoffVerifiedClaims)
  | burned (claims : HandoffVerifiedClaims)
  | minting
  | rejected (event : HandoffEvent)
  deriving DecidableEq

/-- A claim request: its nonce, and its token when that is a string. -/
structure HandoffClaim where
  nonce : Units
  token : Option Units
  phase : ClaimPhase

structure HandoffState where
  now : TimeValue
  nonces : List NonceRow
  jtis : List HandoffJtiRow
  claims : List HandoffClaim
  /-- the hashes of the nonces handed out so far -/
  issued : List Units

def HandoffState.put (s : HandoffState) (i : ℕ) (c : HandoffClaim) (phase : ClaimPhase) :
    HandoffState :=
  { s with claims := s.claims.set i { c with phase } }

inductive HandoffLabel where
  | tick (t : TimeValue)
  | start (nonce : Units)
  | claim (nonce : Units) (token : Option Units)
  | consume (i : ℕ) (dbNow : ℤ)
  /-- the store fails, the update applied or not -/
  | consumeFails (i : ℕ) (dbNow : ℤ) (applied : Bool)
  | classify (i : ℕ)
  | verify (i : ℕ) (keys : List VerifyKeySetEntry) (issuer instanceId : Option Units)
  | burn (i : ℕ) (readAt : TimeValue)
  /-- the insert fails for another reason than its key, its row committed or not -/
  | burnFails (i : ℕ) (code : Option String) (readAt : TimeValue) (applied : Bool)
  | resolveOrg (i : ℕ) (failure : Option HandoffEvent)
  | pruneNonces (readAt : TimeValue)
  | pruneJtis (readAt : TimeValue)

variable {Key : Type}

/-- The verification of a claim whose nonce is consumed. -/
def checkToken (rt : JwsRuntime Key) (hash : Units → Units) (deps : HandoffVerifierDeps)
    (c : HandoffClaim) : ClaimPhase :=
  match c.token with
  | none => .rejected .malformedClaim
  | some token =>
    match verifyHandoffToken rt deps token with
    | .error reason => .rejected (.rejected reason)
    | .ok claims =>
      if claims.nonce.map hash = some (hash c.nonce) then .verified claims
      else .rejected .nonceMismatch

local instance lawfulUnits : @LawfulBEq (List UInt16) List.instBEq := inferInstance

def handoffStep (rt : JwsRuntime Key) (hash : Units → Units) (s : HandoffState) :
    HandoffLabel → Option HandoffState
  | .tick t => some { s with now := t }
  | .start nonce =>
    -- a nonce hash that is in the table violates its key
    if hash nonce ∈ s.nonces.map NonceRow.nonceHash then some s
    else
      some { s with
        nonces := ⟨hash nonce, s.now.ms + handoffTtlMs, none⟩ :: s.nonces
        issued := hash nonce :: s.issued }
  | .claim nonce token =>
    if nonce = [] then none
    else some { s with claims := s.claims ++ [⟨nonce, token, .received⟩] }
  | .consume i dbNow => do
      let c ← s.claims[i]?
      if c.phase ≠ .received then none
      else if s.nonces.any (NonceRow.consumable (hash c.nonce) dbNow) then
        some { s.put i c .consumed with nonces := consumeRows (hash c.nonce) dbNow s.nonces }
      else some (s.put i c .missed)
  | .consumeFails i dbNow applied => do
      let c ← s.claims[i]?
      if c.phase ≠ .received then none
      else
        some { s.put i c (.rejected .replayStoreUnavailable) with
          nonces := if applied then consumeRows (hash c.nonce) dbNow s.nonces else s.nonces }
  | .classify i => do
      let c ← s.claims[i]?
      if c.phase ≠ .missed then none
      else some (s.put i c (.rejected (classifyMiss (hash c.nonce) s.nonces)))
  | .verify i keys issuer instanceId => do
      let c ← s.claims[i]?
      if c.phase ≠ .consumed then none
      else some (s.put i c (checkToken rt hash ⟨s.now, keys, issuer, instanceId⟩ c))
  | .burn i readAt => do
      let c ← s.claims[i]?
      match c.phase with
      | .verified claims =>
        if claims.jti ∈ s.jtis.map HandoffJtiRow.jti then
          some (s.put i c (.rejected (classifyJtiBurnError (some "23505"))))
        else
          some { s.put i c (.burned claims) with
            jtis := ⟨claims.jti, readAt.ms + handoffTtlMs⟩ :: s.jtis }
      | _ => none
  | .burnFails i code readAt applied => do
      let c ← s.claims[i]?
      match c.phase with
      | .verified claims =>
        if applied ∧ claims.jti ∈ s.jtis.map HandoffJtiRow.jti then none
        else
          some { s.put i c (.rejected (classifyJtiBurnError code)) with
            jtis := if applied then ⟨claims.jti, readAt.ms + handoffTtlMs⟩ :: s.jtis
              else s.jtis }
      | _ => none
  | .resolveOrg i failure => do
      let c ← s.claims[i]?
      match c.phase, failure with
      | .burned _, none => some (s.put i c .minting)
      | .burned _, some event => some (s.put i c (.rejected event))
      | _, _ => none
  | .pruneNonces readAt =>
    some { s with nonces := s.nonces.filter fun r => ¬ r.expiresAt < readAt.ms }
  | .pruneJtis readAt =>
    some { s with jtis := s.jtis.filter fun r => ¬ r.expiresAt < readAt.ms }

/-- The system, from empty tables. -/
def handoffSystem (rt : JwsRuntime Key) (hash : Units → Units) (now : TimeValue) :
    Run.System HandoffState HandoffLabel where
  init := ⟨now, [], [], [], []⟩
  step := handoffStep rt hash

/-- The random nonces that `randomBytes` draws do not repeat. -/
def FreshNonce (hash : Units → Units) (s : HandoffState) : HandoffLabel → Prop
  | .start nonce => hash nonce ∉ s.issued
  | _ => True

/-! ### The invariant -/

/-- A claim whose nonce has been consumed for it. -/
def HandoffClaim.Holds (c : HandoffClaim) : Prop :=
  c.phase = .consumed ∨ (∃ claims, c.phase = .verified claims) ∨
    (∃ claims, c.phase = .burned claims) ∨ c.phase = .minting

/-- A claim whose token has been verified. -/
def HandoffClaim.Passed (c : HandoffClaim) : Prop :=
  (∃ claims, c.phase = .verified claims) ∨ (∃ claims, c.phase = .burned claims) ∨
    c.phase = .minting

lemma HandoffClaim.Passed.holds {c : HandoffClaim} (h : c.Passed) : c.Holds := .inr h

structure HandoffInv (rt : JwsRuntime Key) (hash : Units → Units) (s : HandoffState) : Prop where
  issued : ∀ r ∈ s.nonces, r.nonceHash ∈ s.issued
  keyed : (s.nonces.map NonceRow.nonceHash).Nodup
  spent : ∀ (i : ℕ) (c : HandoffClaim), s.claims[i]? = some c → c.Holds →
    hash c.nonce ∈ s.issued ∧
      ∀ r ∈ s.nonces, r.nonceHash = hash c.nonce → r.consumedAt.isSome
  apart : ∀ (i j : ℕ) (c d : HandoffClaim), i ≠ j → s.claims[i]? = some c →
    s.claims[j]? = some d → c.Holds → d.Holds → hash c.nonce ≠ hash d.nonce
  passed : ∀ (i : ℕ) (c : HandoffClaim), s.claims[i]? = some c → c.Passed →
    ∃ token deps claims, c.token = some token ∧
      verifyHandoffToken rt deps token = .ok claims ∧
      claims.nonce.map hash = some (hash c.nonce)

variable {rt : JwsRuntime Key} {hash : Units → Units} {s : HandoffState} {i : ℕ}
  {c : HandoffClaim}

/-- A change of the rows that keeps their keys and un-consumes nothing. -/
lemma HandoffInv.rows {nonces : List NonceRow} (h : HandoffInv rt hash s)
    (hkeyed : (nonces.map NonceRow.nonceHash).Nodup)
    (hrows : ∀ r' ∈ nonces, ∃ r ∈ s.nonces, r.nonceHash = r'.nonceHash ∧
      (r.consumedAt.isSome → r'.consumedAt.isSome)) :
    HandoffInv rt hash { s with nonces } where
  issued r' hr' := by
    obtain ⟨r, hr, hsame, -⟩ := hrows r' hr'
    rw [← hsame]
    exact h.issued r hr
  keyed := hkeyed
  spent i c hc hholds := by
    obtain ⟨hissued, hconsumed⟩ := h.spent i c hc hholds
    refine ⟨hissued, fun r' hr' hhash => ?_⟩
    obtain ⟨r, hr, hsame, hkeep⟩ := hrows r' hr'
    exact hkeep (hconsumed r hr (hsame.trans hhash))
  apart := h.apart
  passed := h.passed

lemma HandoffInv.put (h : HandoffInv rt hash s) (hc : s.claims[i]? = some c) (phase : ClaimPhase)
    (hspent : HandoffClaim.Holds { c with phase } → hash c.nonce ∈ s.issued ∧
      ∀ r ∈ s.nonces, r.nonceHash = hash c.nonce → r.consumedAt.isSome)
    (hapart : HandoffClaim.Holds { c with phase } → ∀ j d, j ≠ i → s.claims[j]? = some d →
      d.Holds → hash c.nonce ≠ hash d.nonce)
    (hpassed : HandoffClaim.Passed { c with phase } → ∃ token deps claims,
      c.token = some token ∧ verifyHandoffToken rt deps token = .ok claims ∧
      claims.nonce.map hash = some (hash c.nonce)) :
    HandoffInv rt hash (s.put i c phase) := by
  have hget : ∀ j d, (s.put i c phase).claims[j]? = some d →
      (j = i ∧ d = { c with phase }) ∨ (j ≠ i ∧ s.claims[j]? = some d) := by
    intro j d hd
    rw [HandoffState.put, List.getElem?_set] at hd
    split at hd
    · rename_i hij
      split_ifs at hd
      exact .inl ⟨hij.symm, (Option.some.inj hd).symm⟩
    · rename_i hij
      exact .inr ⟨fun hji => hij hji.symm, hd⟩
  refine ⟨h.issued, h.keyed, ?_, ?_, ?_⟩
  · intro j d hd hholds
    rcases hget j d hd with ⟨-, rfl⟩ | ⟨-, hd⟩
    · exact hspent hholds
    · exact h.spent j d hd hholds
  · intro j k d e hjk hd he hholds hholds'
    rcases hget j d hd with ⟨rfl, rfl⟩ | ⟨hji, hd'⟩
    · rcases hget k e he with ⟨rfl, -⟩ | ⟨hki, he'⟩
      · exact absurd rfl hjk
      · exact hapart hholds k e hki he' hholds'
    · rcases hget k e he with ⟨rfl, rfl⟩ | ⟨hki, he'⟩
      · exact (hapart hholds' j d hji hd' hholds).symm
      · exact h.apart j k d e hjk hd' he' hholds hholds'
  · intro j d hd hpass
    rcases hget j d hd with ⟨-, rfl⟩ | ⟨-, hd⟩
    · exact hpassed hpass
    · exact h.passed j d hd hpass

/-- A claim that holds or has passed no more than before. -/
lemma HandoffInv.pass (h : HandoffInv rt hash s) (hc : s.claims[i]? = some c) (phase : ClaimPhase)
    (hholds : HandoffClaim.Holds { c with phase } → c.Holds)
    (hpassed : HandoffClaim.Passed { c with phase } → c.Passed) :
    HandoffInv rt hash (s.put i c phase) :=
  h.put hc phase (fun hc' => h.spent i c hc (hholds hc'))
    (fun hc' j d hji hd hd' => h.apart i j c d hji.symm hc hd (hholds hc') hd')
    fun hc' => h.passed i c hc (hpassed hc')

lemma HandoffInv.reject (h : HandoffInv rt hash s) (hc : s.claims[i]? = some c)
    (event : HandoffEvent) : HandoffInv rt hash (s.put i c (.rejected event)) :=
  h.pass hc _ (by rintro (h | ⟨_, h⟩ | ⟨_, h⟩ | h) <;> exact nomatch h)
    (by rintro (⟨_, h⟩ | ⟨_, h⟩ | h) <;> exact nomatch h)

/-- The consuming update keeps the rows, consumed at least as before. -/
lemma HandoffInv.consumeRows (h : HandoffInv rt hash s) (key : Units) (dbNow : ℤ) :
    HandoffInv rt hash { s with nonces := consumeRows key dbNow s.nonces } := by
  refine h.rows ?_ ?_
  · have hkeys : (Delegation.consumeRows key dbNow s.nonces).map NonceRow.nonceHash =
        s.nonces.map NonceRow.nonceHash := by
      rw [Delegation.consumeRows, List.map_map]
      refine List.map_congr_left fun r _ => ?_
      simp only [Function.comp_apply]
      split <;> rfl
    rw [hkeys]
    exact h.keyed
  · intro r' hr'
    obtain ⟨r, hr, rfl⟩ := List.mem_map.1 hr'
    refine ⟨r, hr, ?_⟩
    split
    · exact ⟨rfl, fun _ => rfl⟩
    · exact ⟨rfl, id⟩

/-- **Consuming a nonce**: its row was not consumed, so no other claim holds it. -/
lemma HandoffInv.consume {dbNow : ℤ} (h : HandoffInv rt hash s) (hc : s.claims[i]? = some c)
    (hrow : ∃ r ∈ s.nonces, r.consumable (hash c.nonce) dbNow = true) :
    HandoffInv rt hash { s.put i c .consumed with
      nonces := Delegation.consumeRows (hash c.nonce) dbNow s.nonces } := by
  obtain ⟨r, hr, hconsumable⟩ := hrow
  have hfacts := hconsumable
  simp only [NonceRow.consumable, Bool.and_eq_true, beq_iff_eq, Option.isNone_iff_eq_none,
    decide_eq_true_eq] at hfacts
  obtain ⟨⟨hkey, hfree⟩, -⟩ := hfacts
  refine (h.consumeRows (hash c.nonce) dbNow).put hc .consumed ?_ ?_ ?_
  · refine fun _ => ⟨hkey ▸ h.issued r hr, fun r' hr' hkey' => ?_⟩
    obtain ⟨r₀, hr₀, rfl⟩ := List.mem_map.1 hr'
    split at hkey'
    · rename_i hcons
      rw [if_pos hcons]
      rfl
    · rename_i hcons
      -- one row has this key, and that one is consumable
      obtain rfl := List.inj_on_of_nodup_map h.keyed hr₀ hr (hkey'.trans hkey.symm)
      exact absurd hconsumable hcons
  · intro _ j d hji hd hholds heq
    have hspent := (h.spent j d hd hholds).2 r hr (hkey.trans heq)
    rw [hfree] at hspent
    cases hspent
  · rintro (⟨_, hpass⟩ | ⟨_, hpass⟩ | hpass) <;> cases hpass

/-- The verification of a claim: it goes on only with the nonce of its token. -/
lemma checkToken_cases (deps : HandoffVerifierDeps) :
    (∃ event, checkToken rt hash deps c = .rejected event) ∨
    ∃ token claims, c.token = some token ∧ verifyHandoffToken rt deps token = .ok claims ∧
      claims.nonce.map hash = some (hash c.nonce) ∧
      checkToken rt hash deps c = .verified claims := by
  unfold checkToken
  cases htoken : c.token with
  | none => exact .inl ⟨_, rfl⟩
  | some token =>
    simp only
    cases hverified : verifyHandoffToken rt deps token with
    | error reason => exact .inl ⟨_, rfl⟩
    | ok claims =>
      simp only
      split
      · rename_i hnonce
        exact .inr ⟨token, claims, rfl, hverified, hnonce, rfl⟩
      · exact .inl ⟨_, rfl⟩

/-- A new claim. -/
lemma HandoffInv.claim (h : HandoffInv rt hash s) (nonce : Units) (token : Option Units) :
    HandoffInv rt hash { s with claims := s.claims ++ [⟨nonce, token, .received⟩] } := by
  have hget : ∀ (j : ℕ) (d : HandoffClaim),
      (s.claims ++ [⟨nonce, token, .received⟩])[j]? = some d →
        s.claims[j]? = some d ∨ d.phase = .received := by
    intro j d hd
    rw [List.getElem?_append] at hd
    split at hd
    · exact .inl hd
    · rw [List.getElem?_singleton] at hd
      split_ifs at hd
      exact .inr (Option.some.inj hd ▸ rfl)
  have hfree : ∀ {d : HandoffClaim}, d.phase = .received → ¬ d.Holds := by
    rintro d hphase (h | ⟨_, h⟩ | ⟨_, h⟩ | h) <;> exact nomatch hphase.symm.trans h
  refine ⟨h.issued, h.keyed, ?_, ?_, ?_⟩
  · intro j d hd hholds
    rcases hget j d hd with hd' | hphase
    · exact h.spent j d hd' hholds
    · exact absurd hholds (hfree hphase)
  · intro j k d e hjk hd he hholds hholds'
    rcases hget j d hd with hd' | hphase
    · rcases hget k e he with he' | hphase'
      · exact h.apart j k d e hjk hd' he' hholds hholds'
      · exact absurd hholds' (hfree hphase')
    · exact absurd hholds (hfree hphase)
  · intro j d hd hpass
    rcases hget j d hd with hd' | hphase
    · exact h.passed j d hd' hpass
    · exact absurd hpass.holds (hfree hphase)

/-- A nonce handed out: nobody holds a fresh one. -/
lemma HandoffInv.start {nonce : Units} {expiresAt : ℤ} (h : HandoffInv rt hash s)
    (hfresh : hash nonce ∉ s.issued) :
    HandoffInv rt hash { s with
      nonces := ⟨hash nonce, expiresAt, none⟩ :: s.nonces
      issued := hash nonce :: s.issued } where
  issued r hr := by
    rcases List.mem_cons.1 hr with rfl | hr
    · exact List.mem_cons_self
    · exact List.mem_cons_of_mem _ (h.issued r hr)
  keyed := by
    refine List.nodup_cons.2 ⟨fun hmem => ?_, h.keyed⟩
    obtain ⟨r, hr, hkey⟩ := List.mem_map.1 hmem
    have hkey' : r.nonceHash = hash nonce := hkey
    exact hfresh (hkey' ▸ h.issued r hr)
  spent i c hc hholds := by
    obtain ⟨hissued, hconsumed⟩ := h.spent i c hc hholds
    refine ⟨List.mem_cons_of_mem _ hissued, fun r hr hkey => ?_⟩
    rcases List.mem_cons.1 hr with rfl | hr
    · have hkey' : hash nonce = hash c.nonce := hkey
      exact absurd (hkey' ▸ hissued) hfresh
    · exact hconsumed r hr hkey
  apart := h.apart
  passed := h.passed

/-- **One step with fresh nonces**: it keeps the invariant. -/
lemma HandoffInv.step {s' : HandoffState} {a : HandoffLabel} (h : HandoffInv rt hash s)
    (hfresh : FreshNonce hash s a) (hstep : handoffStep rt hash s a = some s') :
    HandoffInv rt hash s' := by
  cases a with
  | tick t =>
    cases hstep
    exact ⟨h.issued, h.keyed, h.spent, h.apart, h.passed⟩
  | start nonce =>
    simp only [handoffStep] at hstep
    split at hstep
    · cases hstep
      exact h
    · cases hstep
      exact h.start hfresh
  | claim nonce token =>
    simp only [handoffStep] at hstep
    split_ifs at hstep
    cases hstep
    exact h.claim nonce token
  | consume i dbNow =>
    obtain ⟨c, hc, hstep⟩ := Option.bind_eq_some_iff.1 hstep
    split at hstep
    · cases hstep
    · rename_i hphase
      split at hstep
      · rename_i hany
        cases hstep
        exact h.consume hc (List.any_eq_true.1 hany)
      · cases hstep
        exact h.pass hc _ (by rintro (h | ⟨_, h⟩ | ⟨_, h⟩ | h) <;> exact nomatch h)
          (by rintro (⟨_, h⟩ | ⟨_, h⟩ | h) <;> exact nomatch h)
  | consumeFails i dbNow applied =>
    obtain ⟨c, hc, hstep⟩ := Option.bind_eq_some_iff.1 hstep
    split at hstep
    · cases hstep
    · cases hstep
      cases applied with
      | false => exact h.reject hc _
      | true => exact (h.consumeRows (hash c.nonce) dbNow).reject hc _
  | classify i =>
    obtain ⟨c, hc, hstep⟩ := Option.bind_eq_some_iff.1 hstep
    split_ifs at hstep
    cases hstep
    exact h.reject hc _
  | verify i keys issuer instanceId =>
    obtain ⟨c, hc, hstep⟩ := Option.bind_eq_some_iff.1 hstep
    split_ifs at hstep with hphase
    rw [not_not] at hphase
    cases hstep
    have hholds : c.Holds := .inl hphase
    have hcases := @checkToken_cases Key rt hash c ⟨s.now, keys, issuer, instanceId⟩
    rcases hcases with ⟨event, hcheck⟩ | ⟨token, claims, htoken, hverified, hnonce, hcheck⟩
    · rw [hcheck]
      exact h.reject hc event
    · exact h.put hc _ (fun _ => h.spent i c hc hholds)
        (fun _ j d hji hd hd' => h.apart i j c d hji.symm hc hd hholds hd')
        fun _ => ⟨token, _, claims, htoken, hverified, hnonce⟩
  | burn i readAt =>
    obtain ⟨c, hc, hstep⟩ := Option.bind_eq_some_iff.1 hstep
    split at hstep
    · rename_i claims hphase
      have hpass : c.Passed := .inl ⟨claims, hphase⟩
      split at hstep
      · cases hstep
        exact h.reject hc _
      · cases hstep
        have hput := h.pass hc (.burned claims) (fun _ => hpass.holds) (fun _ => hpass)
        exact ⟨hput.issued, hput.keyed, hput.spent, hput.apart, hput.passed⟩
    · cases hstep
  | burnFails i code readAt applied =>
    obtain ⟨c, hc, hstep⟩ := Option.bind_eq_some_iff.1 hstep
    split at hstep
    · split at hstep
      · cases hstep
      · cases hstep
        have hput := h.reject hc (classifyJtiBurnError code)
        exact ⟨hput.issued, hput.keyed, hput.spent, hput.apart, hput.passed⟩
    · cases hstep
  | resolveOrg i failure =>
    obtain ⟨c, hc, hstep⟩ := Option.bind_eq_some_iff.1 hstep
    split at hstep
    · rename_i claims hphase _
      have hpass : c.Passed := .inr (.inl ⟨claims, hphase⟩)
      cases hstep
      exact h.pass hc _ (fun _ => hpass.holds) (fun _ => hpass)
    · cases hstep
      exact h.reject hc _
    · cases hstep
  | pruneNonces readAt =>
    cases hstep
    exact h.rows (h.keyed.sublist (List.filter_sublist.map NonceRow.nonceHash))
      fun r hr => ⟨r, List.mem_of_mem_filter hr, rfl, id⟩
  | pruneJtis readAt =>
    cases hstep
    exact ⟨h.issued, h.keyed, h.spent, h.apart, h.passed⟩

lemma handoffInv_init (now : TimeValue) : HandoffInv rt hash ⟨now, [], [], [], []⟩ where
  issued _ hr := by simp at hr
  keyed := List.nodup_nil
  spent _ _ hc := by simp at hc
  apart _ _ _ _ _ hc := by simp at hc
  passed _ _ hc := by simp at hc

lemma handoffInv_of_reaches {now : TimeValue}
    (h : (handoffSystem rt hash now).Reaches (FreshNonce hash) s) : HandoffInv rt hash s :=
  Run.System.Reaches.invariant (P := HandoffInv rt hash) (handoffInv_init now)
    (fun _ _ _ hinv hfresh hstep => hinv.step hfresh hstep) h

/-- A handoff token gets at most one claim to the minting of a session. -/
lemma minting_atMostOnce {now : TimeValue}
    (h : (handoffSystem rt hash now).Reaches (FreshNonce hash) s) {j : ℕ} {d : HandoffClaim}
    {token : Units} (hc : s.claims[i]? = some c) (hd : s.claims[j]? = some d)
    (htoken : c.token = some token) (htoken' : d.token = some token)
    (hminting : c.phase = .minting) (hminting' : d.phase = .minting) : i = j := by
  have hinv := handoffInv_of_reaches h
  by_contra hij
  have hpass : c.Passed := .inr (.inr hminting)
  have hpass' : d.Passed := .inr (.inr hminting')
  obtain ⟨t, deps, claims, ht, hverified, hnonce⟩ := hinv.passed i c hc hpass
  obtain ⟨t', deps', claims', ht', hverified', hnonce'⟩ := hinv.passed j d hd hpass'
  obtain rfl := Option.some.inj (htoken.symm.trans ht)
  obtain rfl := Option.some.inj (htoken'.symm.trans ht')
  rw [nonce_eq_of_verified hverified hverified', hnonce'] at hnonce
  exact hinv.apart i j c d hij hc hd hpass.holds hpass'.holds (Option.some.inj hnonce).symm

/-! ### The main result -/

/-- **A token gets through at most once**: of the presentations of a delegation assertion, in runs
whose inserts take effect at most the grace of the pruner after their verification, at most one is
burned; of the claims with a handoff token, in runs that never draw a nonce twice, at most one
reaches the minting of a session; wherever the pruners run and however transactions end. -/
theorem replay_atMostOnce {Key : Type} (rt : JwsRuntime Key) (now : TimeValue) :
    (∀ s, (replaySystem rt now).Reaches Prompt s → ∀ (i j : ℕ) (p q : Presentation),
      s.presentations[i]? = some p → s.presentations[j]? = some q → p.token = q.token →
      p.outcome = some .burned → q.outcome = some .burned → i = j) ∧
    ∀ (hash : Units → Units) (s : HandoffState),
      (handoffSystem rt hash now).Reaches (FreshNonce hash) s →
      ∀ (i j : ℕ) (c d : HandoffClaim) (token : Units),
        s.claims[i]? = some c → s.claims[j]? = some d → c.token = some token →
        d.token = some token → c.phase = .minting → d.phase = .minting → i = j :=
  ⟨fun _ h _ _ _ _ hp hq htoken hburned hburned' =>
      burned_atMostOnce h hp hq htoken hburned hburned',
    fun _ _ h _ _ _ _ _ hc hd htoken htoken' hminting hminting' =>
      minting_atMostOnce h hc hd htoken htoken' hminting hminting'⟩

/-! ### Two runs -/

instance (s : ReplayState) (a : ReplayLabel) : Decidable (Prompt s a) := by
  cases a <;> unfold Prompt <;> infer_instance

/-- Two presentations of one assertion: the second burn waits for five minutes and a run of the
pruner. -/
def twicePresented : List ReplayLabel :=
  let keys := sampleDeps.keys
  let assertion := token hyphenPayload hyphenSignature
  let later : TimeValue := ⟨1760000310000, by norm_num, by norm_num⟩
  [.link (units "org-1") sampleOrg,
    .present assertion keys (some (units "pv-1")) (units "cm"),
    .present assertion keys (some (units "pv-1")) (units "cm"),
    .resolveOrg 0, .burn 0, .insert 0, .commit 0, .tick later, .prune later 5000 [],
    .resolveOrg 1, .burn 1, .insert 1]

def handoffHeader : Units :=
  units "eyJ0eXAiOiJKV1QiLCJhbGciOiJFZERTQSIsImtpZCI6" ++
  units "ImNtLTEifQ"

def handoffPayload : Units :=
  units "eyJpc3MiOiJjbSIsImF1ZCI6InB2OnB2LTEiLCJ3b3Jr" ++
  units "b3NVc2VySWQiOiJ1LTEiLCJwcm92aWRlck5hbWUiOiJj" ++
  units "bSIsIm9yZ2FuaXphdGlvbklkIjoib3JnLTEiLCJpbnN0" ++
  units "YW5jZUlkIjoicHYtMSIsInRpZXIiOiJ0IiwianRpIjoi" ++
  units "ai0xIiwiY2FwYWJpbGl0aWVzIjpbXSwiY2xhaW1zVmVy" ++
  units "c2lvbiI6MSwibm9uY2UiOiJub25jZS1ub25jZS0wMDAx" ++
  units "IiwiaWF0IjoxNzYwMDAwMDAwLCJleHAiOjE3NjAwMDAw" ++
  units "NjB9"

def handoffSignature : Units :=
  units "9tOUL8YmuZWgz0tLjoLnpmeEDg2ZDKLNzgmlsLT3QfVm" ++
  units "d9aGYxnqO27o8tBXg8vN1HYkzi6PM9khZ0_RA4cbCw"

/-- The runtime on the handoff token and the assertion. -/
def handoffRuntime : JwsRuntime Unit where
  parseJson part :=
    if part = handoffHeader then
      some (.obj [(units "typ", .str (units "JWT")), (units "alg", .str (units "EdDSA")),
        (units "kid", .str (units "cm-1"))])
    else if part = handoffPayload then
      some (.obj [(units "iss", .str (units "cm")), (units "aud", .str (units "pv:pv-1")),
        (units "workosUserId", .str (units "u-1")), (units "providerName", .str (units "cm")),
        (units "organizationId", .str (units "org-1")),
        (units "instanceId", .str (units "pv-1")), (units "tier", .str (units "t")),
        (units "jti", .str (units "j-1")), (units "capabilities", .arr []),
        (units "claimsVersion", .num (.finite 1)),
        (units "nonce", .str (units "nonce-nonce-0001")),
        (units "iat", .num (.finite 1760000000)), (units "exp", .num (.finite 1760000060))])
    else sampleRuntime.parseJson part
  ed25519Key := sampleRuntime.ed25519Key
  verifyFn key input signature :=
    (input == handoffHeader ++ units "." ++ handoffPayload && signature == handoffSignature) ||
      sampleRuntime.verifyFn key input signature

/-- The hash of the nonce of the token, under a secret of 32 letters `k`. -/
def sampleHash (nonce : Units) : Units :=
  if nonce = units "nonce-nonce-0001" then
    units "f4b48b8cf95669156bb8d3f938a4cb7b" ++ units "e3885022d759aa6793dd61e5bb578b40"
  else nonce

/-- Two claims with one nonce and one token. -/
def twiceClaimed : List HandoffLabel :=
  let handoff := handoffHeader ++ units "." ++ handoffPayload ++ units "." ++ handoffSignature
  let nonce := units "nonce-nonce-0001"
  [.start nonce, .claim nonce (some handoff), .claim nonce (some handoff),
    .consume 0 1760000011000, .consume 1 1760000011000, .classify 1,
    .verify 0 sampleDeps.keys (some (units "cm")) (some (units "pv-1")),
    .burn 0 sampleDeps.now, .resolveOrg 0 none]

instance (hash : Units → Units) (s : HandoffState) (a : HandoffLabel) :
    Decidable (FreshNonce hash s a) := by
  cases a <;> unfold FreshNonce <;> infer_instance

theorem replay_atMostOnce_twice :
    (∃ s, (replaySystem handoffRuntime sampleDeps.now).Reaches Prompt s ∧
      s.presentations.map Presentation.outcome = [some .burned, some .replayed] ∧
      ∀ (i : ℕ) (p : Presentation), s.presentations[i]? = some p →
        p.token = token hyphenPayload hyphenSignature → p.outcome = some .burned → i = 0) ∧
    ∃ s, (handoffSystem handoffRuntime sampleHash sampleDeps.now).Reaches
        (FreshNonce sampleHash) s ∧
      s.claims.map HandoffClaim.phase = [.minting, .rejected .nonceReused] ∧
      ∀ (i : ℕ) (c : HandoffClaim), s.claims[i]? = some c →
        c.token = (s.claims[0]?.bind HandoffClaim.token) → c.phase = .minting → i = 0 := by
  have hmain := replay_atMostOnce handoffRuntime sampleDeps.now
  refine ⟨?_, ?_⟩
  · obtain ⟨s, hexec, houtcomes, p, hp, htoken, hburned⟩ :=
      (replaySystem handoffRuntime sampleDeps.now).exists_of_exec Prompt
        (replaySystem handoffRuntime sampleDeps.now).init twicePresented
        (fun s => s.presentations.map Presentation.outcome = [some .burned, some .replayed] ∧
          ∃ p ∈ s.presentations[0]?, p.token = token hyphenPayload hyphenSignature ∧
            p.outcome = some .burned) (by decide +kernel)
    have hreach := Run.System.steps_of_exec hexec
    exact ⟨s, hreach, houtcomes, fun i q hq htoken' hburned' =>
      hmain.1 s hreach i 0 q p hq hp (htoken'.trans htoken.symm) hburned' hburned⟩
  · obtain ⟨s, hexec, hphases, c, hc, htoken, hminting⟩ :=
      (handoffSystem handoffRuntime sampleHash sampleDeps.now).exists_of_exec
        (FreshNonce sampleHash) (handoffSystem handoffRuntime sampleHash sampleDeps.now).init
        twiceClaimed
        (fun s => s.claims.map HandoffClaim.phase = [.minting, .rejected .nonceReused] ∧
          ∃ c ∈ s.claims[0]?, c.token.isSome = true ∧ c.phase = .minting) (by decide +kernel)
    have hreach := Run.System.steps_of_exec hexec
    obtain ⟨token, htoken⟩ := Option.isSome_iff_exists.1 htoken
    refine ⟨s, hreach, hphases, fun i d hd htoken' hminting' => ?_⟩
    have hfirst : s.claims[0]?.bind HandoffClaim.token = some token := by
      rw [hc]
      exact htoken
    exact hmain.2 sampleHash s hreach i 0 d c token hd hc (htoken'.trans hfirst) htoken hminting'
      hminting

end Delegation
