import ProjectVault.Agent.CacheStore
import ProjectVault.Agent.Fallback

/-!
Reading a secret with the agent (`agent/src/index.ts`).
-/

namespace Agent

open Js

/-! ### Requests -/

/-- The body of a response: what `res.json()` makes of it. A text that is no JSON is a
`SyntaxError`, a stream that breaks off a `TypeError`. -/
inductive Body where
  | json (value : Json)
  | malformed
  | broken

/-- What becomes of a fetch. -/
inductive Fetched where
  | unreachable
  | answered (status : ℕ) (body : Body)

/-- What a call of the agent throws: errors of the runtime, and `VaultAgentError` with its code. -/
inductive Failure where
  | typeError
  | syntaxError
  | ioError
  | agentError (code message : String)

/-- The requests of a call: the fetches still to come, the access token of the agent, whether a
response has been received, and whether the call has asked for more than there is. -/
structure Wire where
  fetches : List Fetched
  accessToken : Option Json
  responded : Bool
  short : Bool

/-- The part of a call that makes requests. -/
abbrev Live := ExceptT Failure (StateM Wire)

/-- `fetch`. -/
def fetch : Live (ℕ × Body) := do
  let wire ← get
  match wire.fetches with
  | [] =>
    set { wire with short := true }
    throw .typeError
  | .unreachable :: rest =>
    set { wire with fetches := rest }
    throw .typeError
  | .answered status body :: rest =>
    set { wire with fetches := rest, responded := true }
    return (status, body)

/-- `res.ok`. -/
def isOk (status : ℕ) : Bool := 200 ≤ status && status < 300

/-- `value.key`; a property of `null` or `undefined` is a `TypeError`. -/
def member : Option Json → String → Except Failure (Option Json)
  | none, _ | some .null, _ => .error .typeError
  | some value, key => .ok (value.get? key)

/-- `res.json()`. -/
def Body.read : Body → Except Failure (Option Json)
  | .json value => .ok (some value)
  | .malformed => .error .syntaxError
  | .broken => .error .typeError

/-- `(await res.json()).data.key`, and the `data` it comes from. -/
def Body.data (body : Body) (key : String) : Except Failure (Option Json × Option Json) := do
  let data ← member (← body.read) "data"
  return (data, ← member data key)

/-- `VaultMultiFieldSecretUnsupportedError`. -/
def multiFieldSecretUnsupported (name : String) : Failure :=
  .agentError "multi_field_secret_unsupported"
    ("\"" ++ name ++
      "\" is a multi-field secret; this agent version can only fetch single-value secrets.")

/-- The checks of `exchangeToken` on its response. -/
def readAccessToken (status : ℕ) (body : Body) : Except Failure (Option Json) := do
  if !isOk status then
    throw (.agentError "token_exchange_failed"
      ("Machine token exchange failed with HTTP " ++ toString status))
  let (_, accessToken) ← body.data "accessToken"
  return accessToken

/-- `exchangeToken`. -/
def exchangeToken : Live (Option Json) := do
  let (status, body) ← fetch
  readAccessToken status body

/-- `if (!accessToken) accessToken = await exchangeToken()`. -/
def ensureToken : Live Unit := do
  if !Json.truthy (← get).accessToken then
    let accessToken ← exchangeToken
    modify fun wire => { wire with accessToken }

/-- The part of `CredentialValueBody['data']` the agent uses. -/
structure CredentialValue where
  value : String
  versionNumber : Option Json
  cacheable : Option Json

/-- The checks of `fetchCredentialValue` on its response. -/
def readCredentialValue (name : String) (status : ℕ) (body : Body) :
    Except Failure CredentialValue := do
  if status = 404 then
    throw (.agentError "credential_not_found" ("Credential \"" ++ name ++ "\" was not found"))
  if status = 403 then
    throw (.agentError "insufficient_role" ("Access to \"" ++ name ++ "\" is not permitted"))
  if status = 409 then
    throw (.agentError "ambiguous_credential_name"
      ("Multiple credentials named \"" ++ name ++ "\" exist in this project"))
  if !isOk status then
    throw (.agentError "vault_request_failed"
      ("Vault request failed with HTTP " ++ toString status))
  match ← body.data "value" with
  | (some data, some (.str value)) =>
    return ⟨value, data.get? "versionNumber", data.get? "cacheable"⟩
  | _ => throw (multiFieldSecretUnsupported name)

/-- `fetchCredentialValue`, which calls itself once more at most. -/
def fetchCredentialValue (name : String) : Live CredentialValue := do
  ensureToken
  let (status, body) ← fetch
  if status = 401 then
    let accessToken ← exchangeToken
    modify fun wire => { wire with accessToken }
    ensureToken
    let (status, body) ← fetch
    readCredentialValue name status body
  else
    readCredentialValue name status body

/-- The requests of `sendPendingActivationBeacon`. -/
def sendBeacon : Live Unit := do
  ensureToken
  let _ ← fetch

/-! ### The agent -/

/-- The cipher of the cache file: it opens its envelopes, and opens none of them for another API
key. -/
structure CacheCipher (κ ε : Type) where
  deriveCacheKey : String → κ
  /-- The second argument is the initialisation vector, drawn at random. -/
  encryptForCache : String → String → κ → ε
  /-- The error is the message of `VaultCacheDecryptionError`. -/
  decryptFromCache : ε → κ → Except String String
  opens : ∀ value iv key, decryptFromCache (encryptForCache value iv key) key = .ok value
  authentic : ∀ value iv apiKey other value',
    decryptFromCache (encryptForCache value iv (deriveCacheKey apiKey)) (deriveCacheKey other) =
      .ok value' → apiKey = other

/-- `pendingActivationBeacon`. -/
structure ActivationBeacon where
  activatedAt : ℕ
  threshold : ℕ

/-- An agent: its configuration, and what `createVaultAgent` keeps in its closure. -/
structure VaultAgent where
  apiKey : String
  baseUrl : String
  projectId : String
  fallbackThreshold : ℕ
  state : FallbackState
  nonCacheableNames : List String
  accessToken : Option Json
  pendingActivationBeacon : Option ActivationBeacon

/-- `createVaultAgent`. -/
def createVaultAgent (apiKey baseUrl projectId : String) (fallbackThreshold : ℕ) : VaultAgent :=
  ⟨apiKey, baseUrl, projectId, fallbackThreshold, createFallbackState, [], none, none⟩

/-- A call of `getSecret` with what it meets: the times of its start and of its end, what becomes
of the fetches of the live read and of the beacon, the initialisation vector it draws, and whether
the cache file can be written. -/
structure Call where
  name : String
  calledAt : ℕ
  now : ℕ
  script : List Fetched
  beaconScript : List Fetched
  iv : String
  writable : Bool

variable {κ ε : Type} (cipher : CacheCipher κ ε)

/-- `VaultCacheCorruptedError`. -/
def cacheCorrupted : Failure :=
  .agentError "cache_corrupted" "The local cache file is corrupted and cannot be read."

/-- `VaultUnreachableNonCacheableError`. -/
def unreachableNonCacheable (name : String) : Failure :=
  .agentError "vault_unreachable_non_cacheable" ("Vault is unreachable and \"" ++ name ++
    "\" is flagged non-cacheable — it can never be served from the offline cache.")

/-- `VaultUnreachableError`. -/
def vaultUnreachable (name : String) : Failure :=
  .agentError "vault_unreachable"
    ("Vault is unreachable and no cached value exists for \"" ++ name ++ "\".")

/-- `VaultCacheExpiredError`. -/
def cacheExpired (name : String) : Failure :=
  .agentError "cache_expired"
    ("Vault is unreachable and the cached value for \"" ++ name ++ "\" has exceeded its cache TTL.")

/-- `getFromCache`. What every object inherits is no entry: it has no end, and no envelope whose
version could be read. -/
def getFromCache (agent : VaultAgent) (disk : Disk ε) (name : String) (now : ℕ) :
    Except Failure String :=
  match readCacheFile disk with
  | none => .error cacheCorrupted
  | some cache =>
    match getEntry cache name with
    | .missing =>
      if name ∈ agent.nonCacheableNames then .error (unreachableNonCacheable name)
      else .error (vaultUnreachable name)
    | .inherited => .error .typeError
    | .found entry =>
      if isEntryExpired entry now then .error (cacheExpired name)
      else
        match cipher.decryptFromCache entry.encryptedValue
            (cipher.deriveCacheKey agent.apiKey) with
        | .error message => .error (.agentError "cache_decryption_failed" message)
        | .ok value => .ok value

/-- The entry a live read caches, if it is cacheable. -/
def liveEntry (agent : VaultAgent) (call : Call) (live : CredentialValue) : Option (CacheEntry ε) :=
  if Json.truthy live.cacheable then
    some (buildCacheEntry
      (cipher.encryptForCache live.value call.iv (cipher.deriveCacheKey agent.apiKey))
      live.versionNumber call.now)
  else none

/-- `refreshCache`: the agent and the disk it leaves, and the error it throws. -/
def refreshCache (agent : VaultAgent) (disk : Disk ε) (call : Call) (live : CredentialValue) :
    VaultAgent × Disk ε × Option Failure :=
  match readCacheFile disk with
  | none => (agent, disk, some cacheCorrupted)
  | some cache =>
    let agent :=
      if Json.truthy live.cacheable then agent
      else { agent with nonCacheableNames := call.name :: agent.nonCacheableNames }
    match refreshed cache call.name (liveEntry cipher agent call live) with
    | none => (agent, disk, none)
    | some cache =>
      if call.writable then (agent, .holds cache, none) else (agent, disk, some .ioError)

/-- `sendPendingActivationBeacon`, and what it leaves of the fetches that were to come. -/
def sendPendingActivationBeacon (agent : VaultAgent) (fetches : List Fetched) : VaultAgent × Wire :=
  let wire : Wire := ⟨fetches, agent.accessToken, false, false⟩
  match agent.pendingActivationBeacon with
  | none => (agent, wire)
  | some _ =>
    match sendBeacon wire with
    | (.ok _, wire) =>
      ({ agent with accessToken := wire.accessToken, pendingActivationBeacon := none }, wire)
    | (.error _, wire) => ({ agent with accessToken := wire.accessToken }, wire)

/-- Where the value a call returns comes from: a live read, or the cache, with the live attempt
skipped or not and answered or not. -/
inductive Source where
  | live
  | cache (skipped responded : Bool)
  deriving DecidableEq

/-- A call that has ended. -/
structure Finished (ε : Type) where
  agent : VaultAgent
  disk : Disk ε
  result : Except Failure String
  source : Source
  /-- The value a live response gave. -/
  given : Option String
  /-- The call has made the fetches it was given, and no other. -/
  complete : Bool

/-- All fetches have been made, and no other. -/
def Wire.complete (wire : Wire) : Bool := wire.fetches.isEmpty && !wire.short

/-- The `try` block of `getSecret` after its live read. -/
def settleLive (agent : VaultAgent) (disk : Disk ε) (call : Call) (live : CredentialValue)
    (complete : Bool) : Finished ε :=
  let wasInFallback := agent.state.inFallback
  let agent := { agent with state := recordSuccess agent.state }
  match refreshCache cipher agent disk call live with
  | (agent, disk, some failure) =>
    ⟨agent, disk, .error failure, .live, some live.value, complete && call.beaconScript.isEmpty⟩
  | (agent, disk, none) =>
    if wasInFallback then
      let (agent, beacon) := sendPendingActivationBeacon agent call.beaconScript
      ⟨agent, disk, .ok live.value, .live, some live.value, complete && beacon.complete⟩
    else ⟨agent, disk, .ok live.value, .live, some live.value, complete && call.beaconScript.isEmpty⟩

/-- The `catch` block of `getSecret` on a `TypeError`. -/
def settleTypeError (agent : VaultAgent) (disk : Disk ε) (call : Call) (responded complete : Bool) :
    Finished ε :=
  let state := recordNetworkFailure (markLiveRetryAttempted agent.state call.now)
    agent.fallbackThreshold call.now
  let agent := { agent with
    state
    pendingActivationBeacon :=
      match agent.pendingActivationBeacon with
      | none => if state.inFallback then some ⟨call.now, agent.fallbackThreshold⟩ else none
      | some beacon => some beacon }
  ⟨agent, disk, getFromCache cipher agent disk call.name call.now, .cache false responded, none,
    complete && call.beaconScript.isEmpty⟩

/-- `getSecret`. -/
def getSecret (agent : VaultAgent) (disk : Disk ε) (call : Call) : Finished ε :=
  if !shouldAttemptLiveRetry agent.state call.calledAt then
    ⟨agent, disk, getFromCache cipher agent disk call.name call.now, .cache true false, none,
      call.script.isEmpty && call.beaconScript.isEmpty⟩
  else
    match fetchCredentialValue call.name ⟨call.script, agent.accessToken, false, false⟩ with
    | (.ok live, wire) =>
      settleLive cipher { agent with accessToken := wire.accessToken } disk call live wire.complete
    | (.error .typeError, wire) =>
      settleTypeError cipher { agent with accessToken := wire.accessToken } disk call
        wire.responded wire.complete
    | (.error failure, wire) =>
      ⟨{ agent with accessToken := wire.accessToken }, disk, .error failure, .live, none,
        wire.complete && call.beaconScript.isEmpty⟩

/-! ### How a live read ends -/

/-- The result is a `TypeError`. -/
def isTypeError {α : Type} : Except Failure α → Bool
  | .error .typeError => true
  | _ => false

/-- A response has been received. -/
def Fetched.isAnswered : Fetched → Bool
  | .unreachable => false
  | .answered _ _ => true

/-- The fetch ends its call with a `TypeError`: there is no response, or a successful one whose
body breaks off or has no `data` to look into. -/
def Fetched.failsByTypeError : Fetched → Bool
  | .unreachable => true
  | .answered status body => isOk status && isTypeError (body.data "value")

/-- The fetches a part of a call has made: whether one was answered, and whether one ended the
call with a `TypeError`. -/
def Ran (wire : Wire) (typeError : Bool) (wire' : Wire) : Prop :=
  ∃ made, wire.fetches = made ++ wire'.fetches ∧
    wire'.responded = (wire.responded || made.any Fetched.isAnswered) ∧
    (wire'.short = false → wire.short = false ∧ made.any Fetched.failsByTypeError = typeError)

/-- A part of a call that ends with a `TypeError` exactly if one of its fetches does. -/
def Faithful {α : Type} (part : Live α) : Prop :=
  ∀ wire, Ran wire (isTypeError (part wire).1) (part wire).2

section Faithful

variable {α β : Type} {part : Live α} {next : α → Live β} {wire wire' wire'' : Wire} {a : α}
  {failure : Failure} {typeError : Bool}

lemma bind_ok (h : part wire = (.ok a, wire')) : (part >>= next) wire = next a wire' := by
  show (ExceptT.bindCont next (part wire).1) (part wire).2 = _
  rw [h]
  rfl

lemma bind_error (h : part wire = (.error failure, wire')) :
    (part >>= next) wire = (.error failure, wire') := by
  show (ExceptT.bindCont next (part wire).1) (part wire).2 = _
  rw [h]
  rfl

lemma Ran.refl (wire : Wire) : Ran wire false wire :=
  ⟨[], rfl, by simp, fun h => ⟨h, rfl⟩⟩

lemma Ran.trans (h : Ran wire false wire') (h' : Ran wire' typeError wire'') :
    Ran wire typeError wire'' := by
  obtain ⟨made, hmade, hresponded, hshort⟩ := h
  obtain ⟨made', hmade', hresponded', hshort'⟩ := h'
  refine ⟨made ++ made', by rw [hmade, hmade', List.append_assoc], ?_, fun h => ?_⟩
  · rw [hresponded', hresponded, List.any_append, Bool.or_assoc]
  · obtain ⟨hmid, hfails'⟩ := hshort' h
    obtain ⟨hstart, hfails⟩ := hshort hmid
    exact ⟨hstart, by rw [List.any_append, hfails, hfails', Bool.false_or]⟩

lemma Faithful.bind (hpart : Faithful part) (hnext : ∀ a, Faithful (next a)) :
    Faithful (part >>= next) := by
  intro wire
  have hfirst := hpart wire
  rcases hrun : part wire with ⟨failure | a, wire'⟩
  · rw [bind_error hrun]
    rw [hrun] at hfirst
    cases failure <;> exact hfirst
  · rw [bind_ok hrun]
    rw [hrun] at hfirst
    exact hfirst.trans (hnext a wire')

lemma fetch_answered {status : ℕ} {body : Body} {rest : List Fetched}
    (h : wire.fetches = .answered status body :: rest) :
    fetch wire = (.ok (status, body), { wire with fetches := rest, responded := true }) := by
  obtain ⟨fetches, accessToken, responded, short⟩ := wire
  obtain rfl : fetches = _ := h
  rfl

/-- A fetch whose response is read on the spot, or does not end the call. -/
lemma faithful_fetch {next : ℕ × Body → Live α}
    (hnext : ∀ status body, (∃ result, (∀ wire, next (status, body) wire = (result, wire)) ∧
        isTypeError result = (Fetched.answered status body).failsByTypeError) ∨
      (Fetched.answered status body).failsByTypeError = false ∧ Faithful (next (status, body))) :
    Faithful (fetch >>= next) := by
  intro wire
  obtain ⟨fetches, accessToken, responded, short⟩ := wire
  match fetches with
  | [] => exact ⟨[], rfl, (Bool.or_false responded).symm, nofun⟩
  | .unreachable :: rest =>
    exact ⟨[.unreachable], rfl, (Bool.or_false responded).symm, fun h => ⟨h, rfl⟩⟩
  | .answered status body :: rest =>
    rw [bind_ok (fetch_answered rfl)]
    have hfetched : ∀ typeError, (Fetched.answered status body).failsByTypeError = typeError →
        Ran ⟨.answered status body :: rest, accessToken, responded, short⟩ typeError
          ⟨rest, accessToken, true, short⟩ := fun typeError htype =>
      ⟨[.answered status body], rfl, by simp [Fetched.isAnswered], fun h => ⟨h, by simpa using htype⟩⟩
    rcases hnext status body with ⟨result, hread, htype⟩ | ⟨hreadable, hlater⟩
    · rw [hread]
      exact hfetched _ htype.symm
    · exact (hfetched _ hreadable).trans (hlater _)

lemma faithful_setToken (accessToken : Option Json) :
    Faithful (modify fun wire => { wire with accessToken } : Live Unit) :=
  fun wire => ⟨[], rfl, (Bool.or_false wire.responded).symm, fun h => ⟨h, rfl⟩⟩

lemma lift_apply (result : Except Failure α) (wire : Wire) :
    (liftM result : Live α) wire = (result, wire) := by
  cases result <;> rfl

/-- Whether a body has a `data` to look into does not depend on what is looked for. -/
lemma isTypeError_data (body : Body) (key key' : String) :
    isTypeError (body.data key) = isTypeError (body.data key') := by
  rw [Body.data, Body.data]
  cases body.read with
  | error failure => rfl
  | ok value =>
    show isTypeError (member value "data" >>= _) = isTypeError (member value "data" >>= _)
    cases member value "data" with
    | error failure => rfl
    | ok data =>
      show isTypeError (member data key >>= _) = isTypeError (member data key' >>= _)
      rcases data with _ | _ | _ <;> rfl

lemma isTypeError_readAccessToken (status : ℕ) (body : Body) :
    isTypeError (readAccessToken status body) = (Fetched.answered status body).failsByTypeError := by
  rw [readAccessToken, Fetched.failsByTypeError, isTypeError_data body "value" "accessToken"]
  cases isOk status with
  | false => rfl
  | true =>
    show isTypeError (body.data "accessToken" >>= _) = isTypeError _
    rcases body.data "accessToken" with failure | data
    · cases failure <;> rfl
    · rfl

lemma isTypeError_readCredentialValue (name : String) (status : ℕ) (body : Body) :
    isTypeError (readCredentialValue name status body) =
      (Fetched.answered status body).failsByTypeError := by
  rw [readCredentialValue, Fetched.failsByTypeError]
  by_cases h404 : status = 404
  · rw [if_pos h404, h404]
    rfl
  by_cases h403 : status = 403
  · rw [if_neg h404, if_pos h403, h403]
    rfl
  by_cases h409 : status = 409
  · rw [if_neg h404, if_neg h403, if_pos h409, h409]
    rfl
  rw [if_neg h404, if_neg h403, if_neg h409]
  cases isOk status with
  | false => rfl
  | true =>
    show isTypeError (body.data "value" >>= _) = isTypeError _
    rcases body.data "value" with failure | ⟨data, value⟩
    · cases failure <;> rfl
    · rcases data with _ | data <;> rcases value with _ | value
      · rfl
      · cases value <;> rfl
      · rfl
      · cases value <;> rfl

lemma faithful_exchangeToken : Faithful exchangeToken :=
  faithful_fetch fun status body =>
    .inl ⟨_, lift_apply _, isTypeError_readAccessToken status body⟩

lemma faithful_ensureToken : Faithful ensureToken := by
  intro wire
  by_cases htoken : Json.truthy wire.accessToken = true
  · have hskip : ensureToken wire = (.ok (), wire) := by
      show (ite _ _ _ : Live Unit) wire = _
      rw [if_neg (by simpa using htoken)]
      rfl
    rw [hskip]
    exact .refl wire
  · have hexchange : ensureToken wire = (exchangeToken >>= fun accessToken =>
        modify fun wire => { wire with accessToken }) wire := by
      show (ite _ _ _ : Live Unit) wire = _
      rw [if_pos (by simpa using htoken)]
    rw [hexchange]
    exact faithful_exchangeToken.bind faithful_setToken wire

/-- **A live read fails with a `TypeError` exactly if one of its fetches does.** -/
lemma faithful_fetchCredentialValue (name : String) : Faithful (fetchCredentialValue name) := by
  have hread : ∀ status body, ∃ result, (∀ wire, (liftM (readCredentialValue name status body) :
      Live CredentialValue) wire = (result, wire)) ∧
      isTypeError result = (Fetched.answered status body).failsByTypeError := fun status body =>
    ⟨_, lift_apply _, isTypeError_readCredentialValue name status body⟩
  refine faithful_ensureToken.bind fun _ => faithful_fetch fun status body => ?_
  by_cases hstatus : status = 401
  · refine .inr ⟨by rw [hstatus]; rfl, ?_⟩
    show Faithful (ite _ _ _)
    rw [if_pos hstatus]
    exact faithful_exchangeToken.bind fun accessToken => (faithful_setToken accessToken).bind fun _ =>
      faithful_ensureToken.bind fun _ => faithful_fetch fun status body => .inl (hread status body)
  · refine .inl ?_
    show ∃ result, (∀ wire, (ite _ _ _ : Live CredentialValue) wire = _) ∧ _
    rw [if_neg hstatus]
    exact hread status body

end Faithful

/-! ### What a call does to the state -/

/-- How a live read has ended. -/
def outcomeOf : Except Failure CredentialValue × Wire → LiveOutcome
  | (.ok _, _) => .value
  | (.error .typeError, wire) => if wire.responded then .brokenResponse else .networkFailure
  | (.error _, _) => .httpError

/-- The live read of a call. -/
def liveRead (agent : VaultAgent) (call : Call) : Except Failure CredentialValue × Wire :=
  fetchCredentialValue call.name ⟨call.script, agent.accessToken, false, false⟩

variable {agent : VaultAgent} {disk : Disk ε} {call : Call}

/-- The state of an agent with its threshold. -/
def VaultAgent.fallback (agent : VaultAgent) : FallbackState × ℕ :=
  (agent.state, agent.fallbackThreshold)

lemma fallback_refreshCache (live : CredentialValue) :
    (refreshCache cipher agent disk call live).1.fallback = agent.fallback := by
  rw [refreshCache]
  split
  · rfl
  · dsimp only
    split
    · split <;> rfl
    · split <;> split <;> rfl

lemma fallback_sendPendingActivationBeacon (fetches : List Fetched) :
    (sendPendingActivationBeacon agent fetches).1.fallback = agent.fallback := by
  rw [sendPendingActivationBeacon]
  split
  · rfl
  · split <;> rfl

/-- A live read that goes through is a success, whatever becomes of the cache file. -/
lemma fallback_settleLive (live : CredentialValue) (complete : Bool) :
    (settleLive cipher agent disk call live complete).agent.fallback =
      (recordSuccess agent.state, agent.fallbackThreshold) := by
  have hstate : (refreshCache cipher { agent with state := recordSuccess agent.state } disk call
      live).1.fallback = _ := fallback_refreshCache cipher live
  rw [settleLive]
  split <;> rename_i heq <;> rw [heq] at hstate
  · exact hstate
  · dsimp only
    split
    · exact (fallback_sendPendingActivationBeacon _).trans hstate
    · exact hstate

/-- A call that attempts a live read settles it by its outcome, one that does not leaves the state
alone. -/
lemma fallback_getSecret (agent : VaultAgent) (disk : Disk ε) (call : Call) :
    (getSecret cipher agent disk call).agent.fallback =
      (if shouldAttemptLiveRetry agent.state call.calledAt then
        agent.state.settle agent.fallbackThreshold call.now (outcomeOf (liveRead agent call))
      else agent.state, agent.fallbackThreshold) := by
  rw [getSecret, liveRead]
  cases shouldAttemptLiveRetry agent.state call.calledAt with
  | false => rfl
  | true =>
    rcases fetchCredentialValue call.name ⟨call.script, agent.accessToken, false, false⟩ with
      ⟨failure | live, wire⟩
    · cases failure with
      | typeError => cases h : wire.responded <;> simp [outcomeOf, h] <;> rfl
      | syntaxError => rfl
      | ioError => rfl
      | agentError code message => rfl
    · exact fallback_settleLive cipher live wire.complete

end Agent
