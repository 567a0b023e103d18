import ProjectVault.Delegation.Burn
import ProjectVault.Run.System

/-!
Presentations of assertions against the burn ledger and its pruner (`delegation-stages`,
`delegation-replay-store`, `prune-delegation-assertion-jti`).
-/

namespace Delegation

open Js

/-! ### The ledger -/

/-- A row of `delegation_assertion_jti`, its expiry in milliseconds. -/
structure JtiRow where
  orgId : Units
  jti : Units
  kid : Units
  expiresAt : ℤ
  deriving DecidableEq

/-- The primary key. -/
def JtiRow.key (r : JtiRow) : Units × Units := (r.orgId, r.jti)

def burnPrimaryKey : String := "delegation_assertion_jti_org_id_jti_pk"

/-- `(assertionExpiresAtSeconds + DELEGATION_BURN_SKEW_SECONDS) * 1000`. -/
def jtiExpiresAt (exp : ℚ) : ℤ := ⌊toDouble (toDouble (exp + delegationBurnSkewSeconds) * 1000)⌋

def jtiRow (orgId : Units) (claims : DelegationVerifiedClaims) : JtiRow :=
  ⟨orgId, claims.jti, claims.kid, jtiExpiresAt claims.expiresAt⟩

/-- The last time value a date can hold. -/
def maxTimeValue : ℤ := 8640000000000000

def delegationJtiPruneGraceSeconds : ℤ := 300

/-- `delegationJtiPruneCutoff(now)`. -/
def delegationJtiPruneCutoff (now : ℤ) : ℤ := now - delegationJtiPruneGraceSeconds * 1000

/-- Rows a run of the pruner may choose: expired ones, at most a batch of them, the oldest
first. -/
def OldestExpired (rows chosen : List JtiRow) (cutoff : ℤ) (batchSize : ℕ) : Prop :=
  (∀ r ∈ chosen, r ∈ rows ∧ r.expiresAt < cutoff) ∧ chosen.length ≤ batchSize ∧
    ∀ r ∈ rows, r.expiresAt < cutoff → r ∉ chosen →
      chosen.length = batchSize ∧ ∀ c ∈ chosen, c.expiresAt ≤ r.expiresAt

instance (rows chosen : List JtiRow) (cutoff : ℤ) (batchSize : ℕ) :
    Decidable (OldestExpired rows chosen cutoff batchSize) :=
  inferInstanceAs (Decidable (_ ∧ _ ∧ _))

/-! ### Presentations -/

/-- How far a presentation is: its claims verified, its organization resolved, its transaction
open, its row inserted but not committed, its transaction over. -/
inductive BurnPhase where
  | verified
  | resolved (orgId : Units)
  | opened (row : JtiRow)
  | inserted (row : JtiRow)
  | ended

structure Presentation where
  token : Units
  claims : DelegationVerifiedClaims
  verifiedAt : TimeValue
  phase : BurnPhase
  outcome : Option DelegationBurnOutcome

/-- The race of the store with its deadline: the first to settle decides. -/
def Presentation.settle (p : Presentation) (phase : BurnPhase) (outcome : DelegationBurnOutcome) :
    Presentation :=
  { p with phase, outcome := p.outcome <|> some outcome }

structure ReplayState where
  now : TimeValue
  rows : List JtiRow
  /-- `organizations.centralizeme_organization_id`, with the organization that holds it. -/
  links : List (Units × Units)
  presentations : List Presentation

/-- Some open transaction has inserted a row of this key. -/
def ReplayState.inFlight (s : ReplayState) (key : Units × Units) : Bool :=
  s.presentations.any fun p =>
    match p.phase with
    | .inserted row => row.key == key
    | _ => false

def ReplayState.put (s : ReplayState) (i : ℕ) (p : Presentation) : ReplayState :=
  { s with presentations := s.presentations.set i p }

inductive ReplayLabel where
  | tick (t : TimeValue)
  | link (centralizemeId orgId : Units)
  | present (token : Units) (keys : List VerifyKeySetEntry) (instanceId : Option Units)
      (issuer : Units)
  | resolveOrg (i : ℕ)
  | burn (i : ℕ)
  | insert (i : ℕ)
  | commit (i : ℕ)
  /-- the transaction fails, or the statement times out -/
  | fail (i : ℕ) (e : PgErrorFields)
  /-- the transaction commits and its reply is lost -/
  | lose (i : ℕ) (e : PgErrorFields)
  | deadline (i : ℕ)
  | prune (readAt : TimeValue) (batchSize : ℕ) (chosen : List JtiRow)

variable {Key : Type}

def replayStep (rt : JwsRuntime Key) (s : ReplayState) : ReplayLabel → Option ReplayState
  | .tick t => if s.now.ms ≤ t.ms then some { s with now := t } else none
  | .link centralizemeId orgId =>
    -- a link is made once and never overwritten
    if (s.links.lookup centralizemeId).isNone then
      some { s with links := (centralizemeId, orgId) :: s.links }
    else none
  | .present token keys instanceId issuer =>
    match verifyDelegationAssertion rt ⟨s.now, keys, instanceId, issuer⟩ token with
    | .error _ => none
    | .ok claims =>
      some { s with
        presentations := s.presentations ++ [⟨token, claims, s.now, .verified, none⟩] }
  | .resolveOrg i => do
      let p ← s.presentations[i]?
      let orgId ← s.links.lookup p.claims.org
      match p.phase with
      | .verified => some (s.put i { p with phase := .resolved orgId })
      | _ => none
  | .burn i => do
      let p ← s.presentations[i]?
      match p.phase with
      | .resolved orgId =>
        match assertInput ⟨orgId, p.claims.jti, p.claims.kid, p.claims.expiresAt⟩
            s.now.nowSeconds with
        | .error _ => some (s.put i { p with phase := .ended })
        | .ok () => some (s.put i { p with phase := .opened (jtiRow orgId p.claims) })
      | _ => none
  | .insert i => do
      let p ← s.presentations[i]?
      match p.phase with
      | .opened row =>
        -- an invalid date never reaches the statement; a key in flight makes it wait
        if row.expiresAt > maxTimeValue ∨ s.inFlight row.key then none
        else if row.key ∈ s.rows.map JtiRow.key then
          some (s.put i (p.settle .ended
            (classifyDelegationBurnError ⟨some "23505", some burnPrimaryKey⟩)))
        else some (s.put i { p with phase := .inserted row })
      | _ => none
  | .commit i => do
      let p ← s.presentations[i]?
      match p.phase with
      | .inserted row =>
        some { s.put i (p.settle .ended .burned) with rows := row :: s.rows }
      | _ => none
  | .fail i e => do
      let p ← s.presentations[i]?
      match p.phase with
      | .opened _ => some (s.put i (p.settle .ended (classifyDelegationBurnError e)))
      | .inserted _ => some (s.put i (p.settle .ended (classifyDelegationBurnError e)))
      | _ => none
  | .lose i e => do
      let p ← s.presentations[i]?
      match p.phase with
      | .inserted row =>
        some { s.put i (p.settle .ended (classifyDelegationBurnError e)) with
          rows := row :: s.rows }
      | _ => none
  | .deadline i => do
      let p ← s.presentations[i]?
      match p.phase with
      | .opened row => some (s.put i (p.settle (.opened row) (.storeUnavailable none true)))
      | .inserted row => some (s.put i (p.settle (.inserted row) (.storeUnavailable none true)))
      | _ => none
  | .prune readAt batchSize chosen =>
    if readAt.ms ≤ s.now.ms ∧
        OldestExpired s.rows chosen (delegationJtiPruneCutoff readAt.ms) batchSize then
      some { s with rows := s.rows.filter fun r => r.key ∉ chosen.map JtiRow.key }
    else none

/-- The system, from an empty ledger. -/
def replaySystem (rt : JwsRuntime Key) (now : TimeValue) : Run.System ReplayState ReplayLabel where
  init := ⟨now, [], [], []⟩
  step := replayStep rt

/-- The insert of a burn takes effect at most the grace of the pruner after the verification. -/
def Prompt (s : ReplayState) : ReplayLabel → Prop
  | .insert i => ∀ p ∈ s.presentations[i]?,
      s.now.ms ≤ p.verifiedAt.ms + delegationJtiPruneGraceSeconds * 1000
  | _ => True

/-! ### The life of a row -/

/-- The expiry of a burnable assertion counts whole seconds, in the range of a clock. -/
lemma exists_seconds {exp : ℚ} (hsafe : isSafeInteger exp = true) (hpos : 1 ≤ exp)
    (hle : exp ≤ 8640000000095) : ∃ k : ℤ, exp = k ∧ 1 ≤ k ∧ k ≤ 8640000000095 := by
  rw [isSafeInteger, Bool.and_eq_true, beq_iff_eq] at hsafe
  have hint : (exp.num : ℚ) = exp := Rat.coe_int_num_of_den_eq_one hsafe.1
  refine ⟨exp.num, hint.symm, ?_, ?_⟩
  · rw [← hint] at hpos
    exact_mod_cast hpos
  · rw [← hint] at hle
    exact_mod_cast hle

/-- The expiry of a row is exact: thirty seconds after the assertion's. -/
lemma jtiExpiresAt_eq {k : ℤ} (hpos : 1 ≤ k) (hle : k ≤ 8640000000095) :
    jtiExpiresAt k = (k + 30) * 1000 := by
  have hseconds : toDouble ((k : ℚ) + delegationBurnSkewSeconds) = ((k + 30 : ℤ) : ℚ) := by
    rw [← toDouble_intCast (k := k + 30) (by omega) (by omega), delegationBurnSkewSeconds]
    push_cast
    rfl
  have hms : toDouble (((k + 30 : ℤ) : ℚ) * 1000) = (((k + 30) * 1000 : ℤ) : ℚ) := by
    rw [← toDouble_intCast (k := (k + 30) * 1000) (by omega) (by omega)]
    push_cast
    rfl
  rw [jtiExpiresAt, hseconds, hms, Int.floor_intCast]

/-- An assertion is accepted no later than its row expires. -/
lemma Accepted.ms_le {rt : JwsRuntime Key} {now : TimeValue} {token : Units}
    {claims : DelegationVerifiedClaims} (h : Accepted rt now token claims)
    (hsafe : isSafeInteger claims.expiresAt = true) (hpos : 1 ≤ claims.expiresAt) :
    now.ms ≤ jtiExpiresAt claims.expiresAt := by
  have hle : claims.expiresAt ≤ 8640000000095 := by
    refine h.expiresAt_lt.le.trans ?_
    have hnow := now.floorSeconds_bounds.2
    have hcast : ((now.floorSeconds + 92 : ℤ) : ℚ) ≤ ((8640000000095 : ℤ) : ℚ) :=
      Int.cast_le.2 (by omega)
    simpa using hcast
  obtain ⟨k, hk, hlow, hhigh⟩ := exists_seconds hsafe hpos hle
  have hwindow := h.unexpired
  have hskew : (k : ℚ) + clockSkewToleranceSeconds = ((k + 30 : ℤ) : ℚ) := by
    rw [clockSkewToleranceSeconds]
    push_cast
    rfl
  rw [hk, hskew, toDouble_intCast (by omega) (by omega)] at hwindow
  rw [hk, jtiExpiresAt_eq hlow hhigh]
  by_contra hlate
  -- one millisecond more than the window is at least the next double
  have hms : (((k + 30) * 1000 + 1 : ℤ) : ℚ) ≤ now.ms := Int.cast_le.2 (by omega)
  have hdyadic : (((k + 30) * 1024 + 1 : ℤ) : ℚ) / 2 ^ (10 : ℤ) ≤ now.seconds := by
    refine div_le_toDouble (by omega) (by omega) ?_
    rw [div_le_div_iff₀ (by norm_num) (by norm_num)]
    push_cast at hms ⊢
    linarith
  have hsplit : (((k + 30) * 1024 + 1 : ℤ) : ℚ) / 2 ^ (10 : ℤ) =
      ((k + 30 : ℤ) : ℚ) + 1 / 1024 := by
    push_cast
    norm_num
    ring
  linarith

/-- Two acceptances of one token agree on the claims the ledger reads. -/
lemma claims_eq_of_accepted {rt : JwsRuntime Key} {deps deps' : DelegationVerifierDeps}
    {token : Units} {claims claims' : DelegationVerifiedClaims}
    (h : verifyDelegationAssertion rt deps token = .ok claims)
    (h' : verifyDelegationAssertion rt deps' token = .ok claims') :
    claims.org = claims'.org ∧ claims.jti = claims'.jti ∧
      claims.expiresAt = claims'.expiresAt := by
  obtain ⟨kid, payload, members, hjws, hmembers, hshape, -⟩ := verifyDelegationAssertion_ok h
  obtain ⟨kid', payload', members', hjws', hmembers', hshape', -⟩ :=
    verifyDelegationAssertion_ok h'
  have heq : some members = some members' := by
    rw [← hmembers, ← hmembers', ← (verifyEdDsaJws_ok hjws).2.2, (verifyEdDsaJws_ok hjws').2.2]
  cases heq
  obtain ⟨-, hjti, -, hexp, -⟩ := checkShape_ok hshape
  obtain ⟨-, hjti', -, hexp', -⟩ := checkShape_ok hshape'
  refine ⟨?_, ?_, ?_⟩
  · have hsome := (checkShape_org hshape).symm.trans (checkShape_org hshape')
    exact Value.str.inj (Option.some.inj hsome)
  · exact Value.str.inj (Option.some.inj (hjti.symm.trans hjti'))
  · have hsome := hexp.symm.trans hexp'
    exact Number.finite.inj (Value.num.inj (Option.some.inj hsome))

/-! ### The invariant -/

/-- The row of a presentation, its organization resolved and its input checked. -/
def Presentation.IsRow (links : List (Units × Units)) (p : Presentation) (row : JtiRow) : Prop :=
  ∃ orgId, links.lookup p.claims.org = some orgId ∧ row = jtiRow orgId p.claims ∧
    isSafeInteger p.claims.expiresAt = true ∧ 1 ≤ p.claims.expiresAt

/-- What is known of one presentation: the ledger keeps the row of a burned one until the pruner
is past its grace. -/
structure Presentation.Good (rt : JwsRuntime Key) (s : ReplayState) (p : Presentation) : Prop where
  accepted : ∃ deps, deps.now = p.verifiedAt ∧
    verifyDelegationAssertion rt deps p.token = .ok p.claims
  resolved : ∀ orgId, p.phase = .resolved orgId → s.links.lookup p.claims.org = some orgId
  opened : ∀ row, p.phase = .opened row → p.IsRow s.links row
  inserted : ∀ row, p.phase = .inserted row →
    p.IsRow s.links row ∧ row.key ∉ s.rows.map JtiRow.key
  burned : p.outcome = some .burned → p.phase = .ended ∧ ∃ row, p.IsRow s.links row ∧
    (row ∈ s.rows ∨ row.expiresAt < delegationJtiPruneCutoff s.now.ms)

/-- What is known of two presentations: no two of one key are in flight, and none is in flight or
burned beside a burned one of its token. -/
structure Presentation.Apart (p q : Presentation) : Prop where
  inserted : ∀ row row', p.phase = .inserted row → q.phase = .inserted row' → row.key ≠ row'.key
  left : (∃ row, p.phase = .inserted row) → q.outcome = some .burned → p.token ≠ q.token
  right : p.outcome = some .burned → (∃ row, q.phase = .inserted row) → p.token ≠ q.token
  burned : p.outcome = some .burned → q.outcome = some .burned → p.token ≠ q.token

structure ReplayInv (rt : JwsRuntime Key) (s : ReplayState) : Prop where
  keyed : (s.rows.map JtiRow.key).Nodup
  good : ∀ (i : ℕ) (p : Presentation), s.presentations[i]? = some p → p.Good rt s
  apart : ∀ (i j : ℕ) (p q : Presentation), i ≠ j → s.presentations[i]? = some p → s.presentations[j]? = some q →
    p.Apart q

lemma Presentation.Apart.symm {p q : Presentation} (h : p.Apart q) : q.Apart p where
  inserted row row' hq hp := (h.inserted row' row hp hq).symm
  left hq hp := (h.right hp hq).symm
  right hq hp := (h.left hp hq).symm
  burned hq hp := (h.burned hp hq).symm

lemma classifyDelegationBurnError_ne (e : PgErrorFields) :
    classifyDelegationBurnError e ≠ .burned := by
  rw [classifyDelegationBurnError]
  split <;> exact nofun

/-- Settling with another outcome burns nothing. -/
lemma Presentation.settle_burned {p : Presentation} {phase : BurnPhase}
    {o : DelegationBurnOutcome} (ho : o ≠ .burned)
    (h : (p.settle phase o).outcome = some .burned) : p.outcome = some .burned := by
  unfold Presentation.settle at h
  cases hp : p.outcome with
  | none =>
    simp only [hp] at h
    exact absurd (Option.some.inj h) ho
  | some o' => simpa [hp] using h

/-! ### One step -/

variable {rt : JwsRuntime Key} {s s' : ReplayState} {i : ℕ} {p p' : Presentation}

/-- Replacing one presentation. -/
lemma ReplayInv.put (h : ReplayInv rt s) (hkeyed : (s'.rows.map JtiRow.key).Nodup)
    (hs' : s'.presentations = s.presentations.set i p')
    (hgood : p'.Good rt s')
    (hkeep : ∀ j q, j ≠ i → s.presentations[j]? = some q → q.Good rt s → q.Good rt s')
    (hapart : ∀ j q, j ≠ i → s.presentations[j]? = some q → p'.Apart q) : ReplayInv rt s' := by
  have hget : ∀ j q, s'.presentations[j]? = some q →
      (j = i ∧ q = p') ∨ (j ≠ i ∧ s.presentations[j]? = some q) := by
    intro j q hq
    rw [hs', List.getElem?_set] at hq
    split at hq
    · rename_i hij
      split_ifs at hq
      exact .inl ⟨hij.symm, (Option.some.inj hq).symm⟩
    · rename_i hij
      exact .inr ⟨fun hji => hij hji.symm, hq⟩
  refine ⟨hkeyed, ?_, ?_⟩
  · intro j q hq
    rcases hget j q hq with ⟨-, rfl⟩ | ⟨hji, hq⟩
    · exact hgood
    · exact hkeep j q hji hq (h.good j q hq)
  · intro j k q r hjk hq hr
    rcases hget j q hq with ⟨rfl, rfl⟩ | ⟨hji, hq⟩
    · rcases hget k r hr with ⟨rfl, -⟩ | ⟨hki, hr⟩
      · exact absurd rfl hjk
      · exact hapart k r hki hr
    · rcases hget k r hr with ⟨rfl, rfl⟩ | ⟨hki, hr⟩
      · exact (hapart j q hji hq).symm
      · exact h.apart j k q r hjk hq hr

lemma Presentation.Good.put {q : Presentation} (h : q.Good rt s) (i : ℕ) (p : Presentation) :
    q.Good rt (s.put i p) :=
  ⟨h.accepted, h.resolved, h.opened, h.inserted, h.burned⟩

/-- A presentation that changes its phase without inserting or burning. -/
structure Presentation.Passes (p p' : Presentation) : Prop where
  token : p'.token = p.token
  claims : p'.claims = p.claims
  verifiedAt : p'.verifiedAt = p.verifiedAt
  inserted : ∀ row, p'.phase = .inserted row → p.phase = .inserted row
  burned : p'.outcome = some .burned → p.outcome = some .burned

lemma ReplayInv.pass (h : ReplayInv rt s) (hp : s.presentations[i]? = some p)
    (hpass : p.Passes p') (hopen : p.phase ≠ .ended)
    (hresolved : ∀ orgId, p'.phase = .resolved orgId → s.links.lookup p.claims.org = some orgId)
    (hopened : ∀ row, p'.phase = .opened row → p.IsRow s.links row) :
    ReplayInv rt (s.put i p') := by
  have hgood := h.good i p hp
  have hunburned : p.outcome ≠ some .burned := fun hburned => hopen (hgood.burned hburned).1
  refine h.put h.keyed rfl ?_ (fun _ _ _ _ hq => hq.put _ _) ?_
  · refine ⟨?_, ?_, ?_, ?_, ?_⟩
    · rw [hpass.token, hpass.claims, hpass.verifiedAt]
      exact hgood.accepted
    · rw [hpass.claims]
      exact hresolved
    · intro row hrow
      have hrow' := hopened row hrow
      rw [Presentation.IsRow] at hrow' ⊢
      rwa [hpass.claims]
    · intro row hrow
      have hrow' := hgood.inserted row (hpass.inserted row hrow)
      rw [Presentation.IsRow] at hrow' ⊢
      rwa [hpass.claims]
    · exact fun hburned => absurd (hpass.burned hburned) hunburned
  · intro j q hji hq
    have hapart := h.apart i j p q hji.symm hp hq
    refine ⟨?_, ?_, ?_, ?_⟩
    · exact fun row row' hrow => hapart.inserted row row' (hpass.inserted row hrow)
    · rintro ⟨row, hrow⟩ hburned
      rw [hpass.token]
      exact hapart.left ⟨row, hpass.inserted row hrow⟩ hburned
    · exact fun hburned => absurd (hpass.burned hburned) hunburned
    · exact fun hburned => absurd (hpass.burned hburned) hunburned

lemma row_eq_of_token {q : Presentation} {row row' : JtiRow} (hp : p.Good rt s)
    (hq : q.Good rt s) (htoken : p.token = q.token) (hrow : p.IsRow s.links row)
    (hrow' : q.IsRow s.links row') :
    row.key = row'.key ∧ row.expiresAt = row'.expiresAt := by
  obtain ⟨deps, -, haccepted⟩ := hp.accepted
  obtain ⟨deps', -, haccepted'⟩ := hq.accepted
  rw [htoken] at haccepted
  obtain ⟨horg, hjti, hexp⟩ := claims_eq_of_accepted haccepted haccepted'
  obtain ⟨orgId, hlink, rfl, -, -⟩ := hrow
  obtain ⟨orgId', hlink', rfl, -, -⟩ := hrow'
  rw [horg, hlink'] at hlink
  cases hlink
  simp [jtiRow, JtiRow.key, hjti, hexp]

/-- A prompt insert that finds no row of its key is of a token nobody has burned. -/
lemma ReplayInv.insert {row : JtiRow} (h : ReplayInv rt s) (hp : s.presentations[i]? = some p)
    (hphase : p.phase = .opened row)
    (hprompt : s.now.ms ≤ p.verifiedAt.ms + delegationJtiPruneGraceSeconds * 1000)
    (hflight : s.inFlight row.key = false) (hkey : row.key ∉ s.rows.map JtiRow.key) :
    ReplayInv rt (s.put i { p with phase := .inserted row }) := by
  have hgood := h.good i p hp
  have hrow := hgood.opened row hphase
  have hunburned : p.outcome ≠ some .burned := by
    intro hburned
    have hended := (hgood.burned hburned).1
    rw [hphase] at hended
    cases hended
  refine h.put h.keyed rfl ?_ (fun _ _ _ _ hq => hq.put _ _) ?_
  · refine ⟨hgood.accepted, nofun, nofun, ?_, fun hburned => absurd hburned hunburned⟩
    rintro row' ⟨⟩
    exact ⟨hrow, hkey⟩
  · intro j q hji hq
    have hq' := h.good j q hq
    refine ⟨?_, ?_, ?_, ?_⟩
    · rintro _ row' ⟨⟩ hrow' heq
      have hany := List.any_eq_false.1 hflight q (List.mem_of_getElem? hq)
      simp [hrow', heq] at hany
    · rintro - hburned htoken
      obtain ⟨-, row', hrow', hkept⟩ := hq'.burned hburned
      obtain ⟨hsame, hexp⟩ := row_eq_of_token hgood hq' htoken hrow hrow'
      rcases hkept with hmem | hpruned
      · exact hkey (hsame ▸ List.mem_map_of_mem hmem)
      · -- the row outlives the acceptance by the grace that the insert keeps to
        obtain ⟨deps, hnow, haccepted⟩ := hgood.accepted
        obtain ⟨orgId, -, rfl, hsafe, hpos⟩ := hrow
        have hwindow := (Accepted.of_verified haccepted).ms_le hsafe hpos
        rw [hnow] at hwindow
        rw [delegationJtiPruneCutoff, ← hexp] at hpruned
        simp only [jtiRow] at hpruned
        omega
    · exact fun hburned => absurd hburned hunburned
    · exact fun hburned => absurd hburned hunburned

/-- A transaction that commits, whatever its caller learns. -/
lemma ReplayInv.commit {row : JtiRow} (h : ReplayInv rt s) (hp : s.presentations[i]? = some p)
    (hphase : p.phase = .inserted row) (o : DelegationBurnOutcome) :
    ReplayInv rt { s.put i (p.settle .ended o) with rows := row :: s.rows } := by
  have hgood := h.good i p hp
  obtain ⟨hrow, hkey⟩ := hgood.inserted row hphase
  refine h.put (List.nodup_cons.2 ⟨hkey, h.keyed⟩) rfl ?_ ?_ ?_
  · exact ⟨hgood.accepted, nofun, nofun, nofun,
      fun _ => ⟨rfl, row, hrow, .inl List.mem_cons_self⟩⟩
  · intro j q hji hq hq'
    refine ⟨hq'.accepted, hq'.resolved, hq'.opened, ?_, ?_⟩
    · intro row' hrow'
      obtain ⟨hisRow, hkey⟩ := hq'.inserted row' hrow'
      refine ⟨hisRow, ?_⟩
      have hne := (h.apart i j p q hji.symm hp hq).inserted row row' hphase hrow'
      simp only [List.map_cons, List.mem_cons, not_or]
      exact ⟨hne.symm, hkey⟩
    · intro hburned
      obtain ⟨hended, row', hisRow, hkept⟩ := hq'.burned hburned
      exact ⟨hended, row', hisRow, hkept.imp_left (List.mem_cons_of_mem row)⟩
  · intro j q hji hq
    have hapart := h.apart i j p q hji.symm hp hq
    have hq' := h.good j q hq
    refine ⟨nofun, nofun, ?_, ?_⟩
    · rintro - ⟨row', hrow'⟩ htoken
      exact hapart.inserted row row' hphase hrow'
        (row_eq_of_token hgood hq' htoken hrow (hq'.inserted row' hrow').1).1
    · exact fun _ hburned => hapart.left ⟨row, hphase⟩ hburned

/-- A transaction that ends without its row. -/
lemma ReplayInv.settle {row : JtiRow} {o : DelegationBurnOutcome} (h : ReplayInv rt s)
    (hp : s.presentations[i]? = some p)
    (hphase : p.phase = .opened row ∨ p.phase = .inserted row) (ho : o ≠ .burned) :
    ReplayInv rt (s.put i (p.settle .ended o)) := by
  refine h.pass hp ⟨rfl, rfl, rfl, nofun, Presentation.settle_burned ho⟩ ?_ nofun nofun
  rcases hphase with hphase | hphase <;> simp [hphase]

/-- A new presentation. -/
lemma ReplayInv.present {token : Units} {claims : DelegationVerifiedClaims}
    (h : ReplayInv rt s)
    (hverified : ∃ deps : DelegationVerifierDeps, deps.now = s.now ∧
      verifyDelegationAssertion rt deps token = .ok claims) :
    ReplayInv rt { s with
      presentations := s.presentations ++ [⟨token, claims, s.now, .verified, none⟩] } := by
  have hget : ∀ (j : ℕ) (q : Presentation),
      (s.presentations ++ [⟨token, claims, s.now, .verified, none⟩])[j]? = some q →
        s.presentations[j]? = some q ∨
        (j = s.presentations.length ∧ q = ⟨token, claims, s.now, .verified, none⟩) := by
    intro j q hq
    rcases lt_trichotomy j s.presentations.length with hlt | rfl | hgt
    · rw [List.getElem?_append_left hlt] at hq
      exact .inl hq
    · rw [List.getElem?_concat_length] at hq
      exact .inr ⟨rfl, (Option.some.inj hq).symm⟩
    · rw [List.getElem?_eq_none (by simp; omega)] at hq
      cases hq
  refine ⟨h.keyed, ?_, ?_⟩
  · intro j q hq
    rcases hget j q hq with hq | ⟨-, rfl⟩
    · have hgood := h.good j q hq
      exact ⟨hgood.accepted, hgood.resolved, hgood.opened, hgood.inserted, hgood.burned⟩
    · exact ⟨hverified, nofun, nofun, nofun, nofun⟩
  · intro j k q r hjk hq hr
    rcases hget j q hq with hq | ⟨hj, rfl⟩
    · rcases hget k r hr with hr | ⟨-, rfl⟩
      · exact h.apart j k q r hjk hq hr
      · exact ⟨nofun, nofun, fun _ hrow => (nomatch hrow), nofun⟩
    · exact ⟨nofun, fun hrow => (nomatch hrow), nofun, nofun⟩

/-- A run of the pruner: the rows it chose are past the grace. -/
lemma ReplayInv.prune {chosen : List JtiRow} (h : ReplayInv rt s)
    (hold : ∀ r ∈ chosen, r ∈ s.rows ∧ r.expiresAt < delegationJtiPruneCutoff s.now.ms) :
    ReplayInv rt { s with
      rows := s.rows.filter fun r => r.key ∉ chosen.map JtiRow.key } := by
  have hsub : ((s.rows.filter fun r => r.key ∉ chosen.map JtiRow.key).map JtiRow.key).Sublist
      (s.rows.map JtiRow.key) := List.filter_sublist.map JtiRow.key
  refine ⟨h.keyed.sublist hsub, fun i p hp => ?_, h.apart⟩
  have hgood := h.good i p hp
  refine ⟨hgood.accepted, hgood.resolved, hgood.opened, ?_, ?_⟩
  · intro row hphase
    obtain ⟨hrow, hkey⟩ := hgood.inserted row hphase
    exact ⟨hrow, fun hmem => hkey (hsub.subset hmem)⟩
  · intro hburned
    obtain ⟨hended, row, hrow, hkept⟩ := hgood.burned hburned
    refine ⟨hended, row, hrow, ?_⟩
    rcases hkept with hmem | hpast
    · by_cases hkey : row.key ∈ chosen.map JtiRow.key
      · obtain ⟨c, hc, hsame⟩ := List.mem_map.1 hkey
        obtain ⟨hcrow, hpast⟩ := hold c hc
        obtain rfl := List.inj_on_of_nodup_map h.keyed hcrow hmem hsame
        exact .inr hpast
      · exact .inl (List.mem_filter.2 ⟨hmem, by simpa using hkey⟩)
    · exact .inr hpast

/-- **One prompt step**: it keeps the invariant. -/
lemma ReplayInv.step {a : ReplayLabel} (h : ReplayInv rt s) (hprompt : Prompt s a)
    (hstep : replayStep rt s a = some s') : ReplayInv rt s' := by
  cases a with
  | tick t =>
    simp only [replayStep] at hstep
    split_ifs at hstep with hle
    cases hstep
    refine ⟨h.keyed, fun i p hp => ?_, h.apart⟩
    have hgood := h.good i p hp
    refine ⟨hgood.accepted, hgood.resolved, hgood.opened, hgood.inserted, fun hburned => ?_⟩
    obtain ⟨hended, row, hrow, hkept⟩ := hgood.burned hburned
    refine ⟨hended, row, hrow, hkept.imp_right fun hlt => ?_⟩
    rw [delegationJtiPruneCutoff] at hlt ⊢
    exact hlt.trans_le (sub_le_sub_right hle _)
  | link centralizemeId orgId =>
    simp only [replayStep] at hstep
    split_ifs at hstep with hfree
    cases hstep
    have hkeep : ∀ c o, s.links.lookup c = some o →
        ((centralizemeId, orgId) :: s.links).lookup c = some o := by
      intro c o hc
      rw [List.lookup_cons]
      split
      · rename_i heq
        rw [beq_iff_eq] at heq
        rw [← heq, hc] at hfree
        cases hfree
      · exact hc
    have hrow : ∀ {p : Presentation} {row}, p.IsRow s.links row →
        p.IsRow ((centralizemeId, orgId) :: s.links) row := by
      rintro p row ⟨o, ho, hrest⟩
      exact ⟨o, hkeep _ _ ho, hrest⟩
    refine ⟨h.keyed, fun i p hp => ?_, h.apart⟩
    have hgood := h.good i p hp
    refine ⟨hgood.accepted, fun o ho => hkeep _ _ (hgood.resolved o ho),
      fun row hphase => hrow (hgood.opened row hphase),
      fun row hphase => (hgood.inserted row hphase).imp_left hrow, fun hburned => ?_⟩
    obtain ⟨hended, row, hisRow, hkept⟩ := hgood.burned hburned
    exact ⟨hended, row, hrow hisRow, hkept⟩
  | present token keys instanceId issuer =>
    simp only [replayStep] at hstep
    split at hstep
    · cases hstep
    · rename_i claims hverified
      cases hstep
      exact h.present ⟨_, rfl, hverified⟩
  | resolveOrg i =>
    obtain ⟨p, hp, hstep⟩ := Option.bind_eq_some_iff.1 hstep
    obtain ⟨orgId, hlink, hstep⟩ := Option.bind_eq_some_iff.1 hstep
    split at hstep
    · rename_i hphase
      cases hstep
      refine h.pass hp ⟨rfl, rfl, rfl, nofun, id⟩ (by simp [hphase]) ?_ nofun
      rintro o ⟨⟩
      exact hlink
    · cases hstep
  | burn i =>
    obtain ⟨p, hp, hstep⟩ := Option.bind_eq_some_iff.1 hstep
    split at hstep
    · rename_i orgId hphase
      split at hstep
      · cases hstep
        exact h.pass hp ⟨rfl, rfl, rfl, nofun, id⟩ (by simp [hphase]) nofun nofun
      · rename_i hinput
        cases hstep
        refine h.pass hp ⟨rfl, rfl, rfl, nofun, id⟩ (by simp [hphase]) nofun ?_
        rintro row ⟨⟩
        obtain ⟨-, -, -, ⟨hsafe, hpos⟩, -⟩ := assertInput_eq_ok_iff.1 hinput
        exact ⟨orgId, (h.good i p hp).resolved orgId hphase, rfl, hsafe, hpos⟩
    · cases hstep
  | insert i =>
    obtain ⟨p, hp, hstep⟩ := Option.bind_eq_some_iff.1 hstep
    split at hstep
    · rename_i row hphase
      split at hstep
      · cases hstep
      · rename_i hfree
        rw [not_or, Bool.not_eq_true] at hfree
        split at hstep
        · cases hstep
          exact h.settle hp (.inl hphase) (classifyDelegationBurnError_ne _)
        · rename_i hkey
          cases hstep
          exact h.insert hp hphase (hprompt p hp) hfree.2 hkey
    · cases hstep
  | commit i =>
    obtain ⟨p, hp, hstep⟩ := Option.bind_eq_some_iff.1 hstep
    split at hstep
    · rename_i row hphase
      cases hstep
      exact h.commit hp hphase .burned
    · cases hstep
  | fail i e =>
    obtain ⟨p, hp, hstep⟩ := Option.bind_eq_some_iff.1 hstep
    split at hstep
    · rename_i row hphase
      cases hstep
      exact h.settle hp (.inl hphase) (classifyDelegationBurnError_ne _)
    · rename_i row hphase
      cases hstep
      exact h.settle hp (.inr hphase) (classifyDelegationBurnError_ne _)
    · cases hstep
  | lose i e =>
    obtain ⟨p, hp, hstep⟩ := Option.bind_eq_some_iff.1 hstep
    split at hstep
    · rename_i row hphase
      cases hstep
      exact h.commit hp hphase _
    · cases hstep
  | deadline i =>
    obtain ⟨p, hp, hstep⟩ := Option.bind_eq_some_iff.1 hstep
    have hburned : ∀ phase, (p.settle phase (.storeUnavailable none true)).outcome =
        some .burned → p.outcome = some .burned := fun _ => Presentation.settle_burned nofun
    split at hstep
    · rename_i row hphase
      cases hstep
      refine h.pass hp ⟨rfl, rfl, rfl, nofun, hburned _⟩ (by simp [hphase]) nofun ?_
      rintro row' ⟨⟩
      exact (h.good i p hp).opened row hphase
    · rename_i row hphase
      cases hstep
      refine h.pass hp ⟨rfl, rfl, rfl, ?_, hburned _⟩ (by simp [hphase]) nofun nofun
      rintro row' ⟨⟩
      exact hphase
    · cases hstep
  | prune readAt batchSize chosen =>
    simp only [replayStep] at hstep
    split_ifs at hstep with hrun
    obtain ⟨hread, hchosen, -, -⟩ := hrun
    cases hstep
    refine h.prune fun r hr => (hchosen r hr).imp_right fun hlt => hlt.trans_le ?_
    exact sub_le_sub_right hread _

lemma replayInv_init (now : TimeValue) : ReplayInv rt ⟨now, [], [], []⟩ where
  keyed := List.nodup_nil
  good _ _ hp := by simp at hp
  apart _ _ _ _ _ hp := by simp at hp

lemma replayInv_of_reaches {now : TimeValue} (h : (replaySystem rt now).Reaches Prompt s) :
    ReplayInv rt s :=
  Run.System.Reaches.invariant (P := ReplayInv rt) (replayInv_init now)
    (fun _ _ _ hinv hprompt hstep => hinv.step hprompt hstep) h

/-- **An assertion is burned at most once**, whatever transactions commit, fail or lose their
reply, and whenever the pruner runs. -/
lemma burned_atMostOnce {now : TimeValue} (h : (replaySystem rt now).Reaches Prompt s) {j : ℕ}
    {q : Presentation} (hp : s.presentations[i]? = some p) (hq : s.presentations[j]? = some q)
    (htoken : p.token = q.token) (hburned : p.outcome = some .burned)
    (hburned' : q.outcome = some .burned) : i = j := by
  by_contra hij
  exact ((replayInv_of_reaches h).apart i j p q hij hp hq).burned hburned hburned' htoken

end Delegation
