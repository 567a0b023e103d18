import ProjectVault.Agent.GetSecret

/-!
What the cache of the agents gives out (`agent/src/index.ts`, `agent/src/cache-store.ts`).
-/

namespace Agent

open Js

variable {κ ε : Type} (cipher : CacheCipher κ ε)

/-- A value a live response gave. -/
structure Given where
  baseUrl : String
  projectId : String
  name : String
  value : String
  deriving DecidableEq

/-- A value a call has returned, with the entry the cache file held under the name. -/
structure Returned (ε : Type) where
  gives : Given
  now : ℕ
  inFallback : Bool
  source : Source
  entry : Option (CacheEntry ε)

/-- The agents over one cache file. The last three fields record what has happened: for whom the
last live read of a name that went through was made, what the vault has answered, and what the
calls have returned. -/
structure CacheWorld (ε : Type) where
  disk : Disk ε
  agents : List VaultAgent
  now : ℕ
  origins : String → Option (String × String)
  given : List Given
  returned : List (Returned ε)

/-- What can happen to the agents. -/
inductive CacheLabel where
  | creates (apiKey baseUrl projectId : String) (fallbackThreshold : ℕ)
  | calls (i : ℕ) (call : Call)
  /-- The cache file is removed or damaged from outside. -/
  | damages (removed : Bool)

/-- A call of the `i`-th agent has ended. -/
def CacheWorld.finish (w : CacheWorld ε) (i : ℕ) (agent : VaultAgent) (call : Call) : CacheWorld ε :=
  let finished := getSecret cipher agent w.disk call
  { disk := finished.disk
    agents := w.agents.set i finished.agent
    now := call.now
    origins :=
      match finished.source, finished.result with
      | .live, .ok _ => fun n =>
        if n = call.name then some (agent.baseUrl, agent.projectId) else w.origins n
      | _, _ => w.origins
    given :=
      match finished.given with
      | some value => ⟨agent.baseUrl, agent.projectId, call.name, value⟩ :: w.given
      | none => w.given
    returned :=
      match finished.result with
      | .ok value =>
        ⟨⟨agent.baseUrl, agent.projectId, call.name, value⟩, call.now, agent.state.inFallback,
          finished.source, w.disk.entry call.name⟩ :: w.returned
      | .error _ => w.returned }

/-- One step; the clock does not go back, and a call makes the fetches it is given. -/
def cacheStep (w : CacheWorld ε) : CacheLabel → Option (CacheWorld ε)
  | .creates apiKey baseUrl projectId fallbackThreshold =>
    some { w with
      agents := w.agents ++ [createVaultAgent apiKey baseUrl projectId fallbackThreshold] }
  | .calls i call =>
    (w.agents[i]?).bind fun agent =>
      if w.now ≤ call.calledAt ∧ call.calledAt ≤ call.now ∧
          (getSecret cipher agent w.disk call).complete then
        some (w.finish cipher i agent call)
      else none
  | .damages removed => some { w with disk := if removed then .absent else .unreadable }

/-- Agents over one cache file. -/
def cacheSystem : Run.System (CacheWorld ε) CacheLabel where
  init := ⟨.absent, [], 0, fun _ => none, [], []⟩
  step := cacheStep cipher

/-- What a call may return without a live read: it was skipped in fallback or no response was
received, the entry had not expired, and a live response gave the value for the same base URL,
project and name. -/
def Entitled (given : List Given) (r : Returned ε) : Prop :=
  match r.source with
  | .live => True
  | .cache skipped responded =>
    (if skipped then r.inFallback = true else responded = false) ∧
      (∃ entry, r.entry = some entry ∧ isEntryExpired entry r.now = false) ∧ r.gives ∈ given

/-- The cache has given out nothing but what it may. -/
def CacheWorld.Discreet (w : CacheWorld ε) : Prop := ∀ r ∈ w.returned, Entitled w.given r

/-- The call goes to the cache: it is made in fallback between two live retries, or one of its
fetches ends it with a `TypeError`. -/
def ReadsCache (agent : VaultAgent) (call : Call) : Prop :=
  shouldAttemptLiveRetry agent.state call.calledAt = false ∨
    call.script.any Fetched.failsByTypeError = true

/-- The entry opens with the API key of the agent. -/
def OpensFor (agent : VaultAgent) (entry : CacheEntry ε) : Prop :=
  (cipher.decryptFromCache entry.encryptedValue (cipher.deriveCacheKey agent.apiKey)).isOk = true

/-- The calls that stay clear of the two leaks. One that goes to the cache, where an entry that has
not expired opens with its API key, finds the entry written for its own base URL and project, and
makes no fetch but one that is not answered. -/
def Guarded (w : CacheWorld ε) : CacheLabel → Prop
  | .calls i call => ∀ agent ∈ w.agents[i]?, ReadsCache agent call →
      ∀ entry ∈ w.disk.entry call.name, isEntryExpired entry call.now = false → OpensFor cipher agent entry →
      w.origins call.name = some (agent.baseUrl, agent.projectId) ∧
        call.script.any Fetched.isAnswered = false
  | _ => True

instance (given : List Given) (r : Returned ε) : Decidable (Entitled given r) := by
  unfold Entitled
  split <;> infer_instance

instance (w : CacheWorld ε) : Decidable w.Discreet := by
  unfold CacheWorld.Discreet
  infer_instance

instance (agent : VaultAgent) (call : Call) : Decidable (ReadsCache agent call) := by
  unfold ReadsCache
  infer_instance

instance (w : CacheWorld ε) (l : CacheLabel) : Decidable (Guarded cipher w l) := by
  unfold Guarded OpensFor
  split <;> infer_instance

/-- Every entry of the file holds a value a live response gave, for the name it stands under and
for those the last live read of the name was made for. -/
def Backed (disk : Disk ε) (origins : String → Option (String × String)) (given : List Given) :
    Prop :=
  ∀ name entry, disk.entry name = some entry → ∃ baseUrl projectId,
    origins name = some (baseUrl, projectId) ∧ ∃ value iv apiKey,
      entry.encryptedValue = cipher.encryptForCache value iv (cipher.deriveCacheKey apiKey) ∧
        ⟨baseUrl, projectId, name, value⟩ ∈ given

/-- What every run keeps. -/
structure CacheInv (w : CacheWorld ε) : Prop where
  backed : Backed cipher w.disk w.origins w.given
  discreet : w.Discreet

/-! ### Steps and runs -/

variable {cipher} {w w' : CacheWorld ε} {l : CacheLabel} {agent : VaultAgent} {disk : Disk ε}
  {call : Call} {origins : String → Option (String × String)} {given : List Given}

lemma Entitled.mono {given' : List Given} {r : Returned ε} (h : Entitled given r)
    (hsub : ∀ g ∈ given, g ∈ given') : Entitled given' r := by
  rw [Entitled] at h ⊢
  split at h
  · trivial
  · exact ⟨h.1, h.2.1, hsub _ h.2.2⟩

/-- What the cache gives out is what an entry that has not expired opens to. -/
lemma getFromCache_eq_ok {name value : String} {now : ℕ}
    (h : getFromCache cipher agent disk name now = .ok value) :
    ∃ entry, disk.entry name = some entry ∧ isEntryExpired entry now = false ∧
      cipher.decryptFromCache entry.encryptedValue (cipher.deriveCacheKey agent.apiKey) =
        .ok value := by
  rw [getFromCache] at h
  cases hread : readCacheFile disk with
  | none => simp [hread] at h
  | some cache =>
    simp only [hread] at h
    cases hget : getEntry cache name with
    | missing =>
      simp only [hget] at h
      split at h <;> exact absurd h (by simp)
    | inherited => simp [hget] at h
    | found entry =>
      simp only [hget] at h
      split_ifs at h with hexpired
      split at h
      · exact absurd h (by simp)
      · next hopens =>
          refine ⟨entry, ?_, by simpa using hexpired, by rw [hopens, Except.ok.inj h]⟩
          rw [Disk.entry, hread]
          exact getEntry_eq_found_iff.1 hget

/-- An envelope opens for the API key it was made for, to the value it was made of. -/
lemma CacheCipher.eq_of_decrypt {value iv apiKey other value' : String}
    (h : cipher.decryptFromCache (cipher.encryptForCache value iv (cipher.deriveCacheKey apiKey))
      (cipher.deriveCacheKey other) = .ok value') : value' = value := by
  obtain rfl := cipher.authentic value iv apiKey other value' h
  rw [cipher.opens] at h
  exact (Except.ok.inj h).symm

lemma Backed.mono {given' : List Given} (h : Backed cipher disk origins given)
    (hsub : ∀ g ∈ given, g ∈ given') : Backed cipher disk origins given' := by
  intro name entry hentry
  obtain ⟨baseUrl, projectId, horigin, value, iv, apiKey, hmade, hgiven⟩ := h name entry hentry
  exact ⟨baseUrl, projectId, horigin, value, iv, apiKey, hmade, hsub _ hgiven⟩

lemma liveEntry_eq_some {live : CredentialValue} {entry : CacheEntry ε}
    (h : liveEntry cipher agent call live = some entry) :
    entry.encryptedValue =
      cipher.encryptForCache live.value call.iv (cipher.deriveCacheKey agent.apiKey) := by
  rw [liveEntry] at h
  split_ifs at h
  rw [← Option.some.inj h]
  rfl

/-- What a live read leaves under a name: what was there, or, under its own name if it does not
throw, what it has read, if that may be cached. -/
lemma refreshCache_entry {live : CredentialValue} {agent' : VaultAgent} {disk' : Disk ε}
    {failure : Option Failure}
    (h : refreshCache cipher agent disk call live = (agent', disk', failure)) (name : String) :
    disk'.entry name =
      if name = call.name ∧ failure = none then liveEntry cipher agent call live
      else disk.entry name := by
  rw [refreshCache] at h
  cases hread : readCacheFile disk with
  | none =>
    simp only [hread, Prod.mk.injEq] at h
    obtain ⟨-, rfl, rfl⟩ := h
    simp
  | some cache =>
    have hentry : ∀ n, disk.entry n = cache n := fun n => by rw [Disk.entry, hread]; rfl
    have hlive : liveEntry cipher (if Json.truthy live.cacheable then agent else
        { agent with nonCacheableNames := call.name :: agent.nonCacheableNames }) call live =
        liveEntry cipher agent call live := by
      split <;> rfl
    simp only [hread, hlive] at h
    cases hwrite : refreshed cache call.name (liveEntry cipher agent call live) with
    | none =>
      simp only [hwrite, Prod.mk.injEq] at h
      obtain ⟨-, rfl, rfl⟩ := h
      obtain ⟨hnone, hmissing⟩ := eq_none_of_refreshed hwrite
      by_cases hname : name = call.name
      · rw [if_pos ⟨hname, rfl⟩, hnone, hname, hentry, hmissing]
      · rw [if_neg fun hand => hname hand.1]
    | some cache' =>
      simp only [hwrite] at h
      cases hwritable : call.writable with
      | false =>
        simp only [hwritable, Bool.false_eq_true, if_false, Prod.mk.injEq] at h
        obtain ⟨-, rfl, rfl⟩ := h
        simp
      | true =>
        simp only [hwritable, if_true, Prod.mk.injEq] at h
        obtain ⟨-, rfl, rfl⟩ := h
        show cache' name = _
        by_cases hname : name = call.name
        · rw [if_pos ⟨hname, rfl⟩, hname]
          exact refreshed_self hwrite
        · rw [if_neg fun hand => hname hand.1, hentry]
          exact refreshed_of_ne hname hwrite

/-- How a call ends: with what the cache holds, after a live read, or with an error. -/
inductive Ends (cipher : CacheCipher κ ε) (agent : VaultAgent) (disk : Disk ε) (call : Call)
    (finished : Finished ε) : Prop where
  | cached (reader : VaultAgent) (skipped responded : Bool) (reads : ReadsCache agent call)
      (key : reader.apiKey = agent.apiKey)
      (source : finished.source = .cache skipped responded)
      (fallback : if skipped then agent.state.inFallback = true
        else responded = call.script.any Fetched.isAnswered)
      (disk_eq : finished.disk = disk) (given : finished.given = none)
      (result : finished.result = getFromCache cipher reader disk call.name call.now)
  | live (value : String) (source : finished.source = .live) (given : finished.given = some value)
      (entry : Option (CacheEntry ε))
      (made : ∀ e ∈ entry, e.encryptedValue =
        cipher.encryptForCache value call.iv (cipher.deriveCacheKey agent.apiKey))
      (result : finished.result = .ok value ∧ (∀ name, finished.disk.entry name =
          if name = call.name then entry else disk.entry name) ∨
        ∃ failure, finished.result = .error failure ∧
          ∀ name, finished.disk.entry name = disk.entry name)
  | failed (failure : Failure) (source : finished.source = .live) (disk_eq : finished.disk = disk)
      (given : finished.given = none) (result : finished.result = .error failure)

/-- A call that does not attempt a live read is made in fallback. -/
lemma inFallback_of_not_attempt {state : FallbackState} {now : ℕ}
    (h : shouldAttemptLiveRetry state now = false) : state.inFallback = true := by
  rw [shouldAttemptLiveRetry] at h
  split_ifs at h with hout
  simpa using hout

lemma ends_settleLive {reader : VaultAgent} (hkey : reader.apiKey = agent.apiKey)
    (live : CredentialValue) (complete : Bool) :
    Ends cipher agent disk call (settleLive cipher reader disk call live complete) := by
  have hmade : ∀ e ∈ liveEntry cipher { reader with state := recordSuccess reader.state } call live,
      e.encryptedValue =
        cipher.encryptForCache live.value call.iv (cipher.deriveCacheKey agent.apiKey) :=
    fun e he => by rw [liveEntry_eq_some he, ← hkey]
  rw [settleLive]
  split
  · next agent' disk' failure hrefresh =>
      refine .live live.value rfl rfl _ hmade (.inr ⟨failure, rfl, fun name => ?_⟩)
      rw [refreshCache_entry hrefresh, if_neg fun hand => Option.some_ne_none _ hand.2]
  · next agent' disk' hrefresh =>
      have hentries := fun name => refreshCache_entry hrefresh name
      simp only [and_true] at hentries
      dsimp only
      split
      · exact .live live.value rfl rfl _ hmade (.inl ⟨rfl, hentries⟩)
      · exact .live live.value rfl rfl _ hmade (.inl ⟨rfl, hentries⟩)

/-- **A call that makes the fetches it is given** ends in one of these ways. -/
lemma ends_getSecret (hcomplete : (getSecret cipher agent disk call).complete = true) :
    Ends cipher agent disk call (getSecret cipher agent disk call) := by
  revert hcomplete
  rw [getSecret]
  cases hattempt : shouldAttemptLiveRetry agent.state call.calledAt with
  | false =>
    exact fun _ => .cached agent true false (.inl hattempt) rfl rfl
      (inFallback_of_not_attempt hattempt) rfl rfl rfl
  | true =>
    have hran := faithful_fetchCredentialValue call.name
      ⟨call.script, agent.accessToken, false, false⟩
    simp only [Bool.not_true, Bool.false_eq_true, if_false]
    generalize fetchCredentialValue call.name ⟨call.script, agent.accessToken, false, false⟩ =
      read at hran
    rcases read with ⟨failure | live, wire⟩
    · obtain ⟨made, hmade, hresponded, hshort⟩ := hran
      cases failure with
      | typeError =>
        intro hcomplete
        have hwire : wire.complete = true := (Bool.and_eq_true_iff.1 hcomplete).1
        obtain ⟨hempty, hfull⟩ := Bool.and_eq_true_iff.1 hwire
        -- every fetch of the script has been made
        obtain rfl : call.script = made := by
          rw [← List.append_nil made, ← List.isEmpty_iff.1 hempty]
          exact hmade
        exact .cached _ false wire.responded (.inr (hshort (by simpa using hfull)).2) rfl rfl
          hresponded rfl rfl rfl
      | syntaxError => exact fun _ => .failed _ rfl rfl rfl rfl
      | ioError => exact fun _ => .failed _ rfl rfl rfl rfl
      | agentError code message => exact fun _ => .failed _ rfl rfl rfl rfl
    · intro _
      show Ends cipher agent disk call (settleLive cipher _ disk call live wire.complete)
      exact ends_settleLive (by rfl) live wire.complete

/-- **One step of the agents** keeps what the file holds and what it has given out in order. -/
lemma CacheInv.step (h : CacheInv cipher w) (hguarded : Guarded cipher w l)
    (hstep : cacheStep cipher w l = some w') : CacheInv cipher w' := by
  cases l with
  | creates apiKey baseUrl projectId fallbackThreshold =>
    cases hstep
    exact ⟨h.backed, h.discreet⟩
  | damages removed =>
    cases hstep
    refine ⟨fun name entry hentry => ?_, h.discreet⟩
    cases removed <;> exact absurd hentry (by simp [entry_eq_some_iff])
  | calls i call =>
    obtain ⟨agent, hagent, hcall⟩ := Option.bind_eq_some_iff.1 hstep
    split_ifs at hcall with hcomplete
    cases hcall
    have hends := ends_getSecret hcomplete.2.2
    cases hends with
    | cached reader skipped responded reads key source fallback disk_eq given result =>
      have hgiven : (w.finish cipher i agent call).given = w.given := by
        simp only [CacheWorld.finish, given]
      have horigins : (w.finish cipher i agent call).origins = w.origins := by
        simp only [CacheWorld.finish, source]
      refine ⟨?_, ?_⟩
      · rw [horigins, hgiven]
        show Backed cipher (getSecret cipher agent w.disk call).disk w.origins w.given
        rw [disk_eq]
        exact h.backed
      · rw [CacheWorld.Discreet, hgiven]
        simp only [CacheWorld.finish, result]
        cases hread : getFromCache cipher reader w.disk call.name call.now with
        | error failure => exact h.discreet
        | ok value =>
          obtain ⟨entry, hentry, hfresh, hopens⟩ := getFromCache_eq_ok hread
          rw [key] at hopens
          obtain ⟨horigin, hsilent⟩ :=
            hguarded agent hagent reads entry hentry hfresh (by rw [OpensFor, hopens]; rfl)
          obtain ⟨baseUrl, projectId, horigin', value', iv, apiKey, hmade, hbacked⟩ :=
            h.backed call.name entry hentry
          rw [hmade] at hopens
          obtain rfl := cipher.eq_of_decrypt hopens
          obtain ⟨rfl, rfl⟩ := Prod.mk.inj (Option.some.inj (horigin.symm.trans horigin'))
          refine List.forall_mem_cons.2 ⟨?_, h.discreet⟩
          rw [Entitled]
          simp only [source]
          refine ⟨?_, ⟨entry, hentry, hfresh⟩, hbacked⟩
          split_ifs at fallback ⊢
          · exact fallback
          · rw [fallback, hsilent]
    | live value source given entry made result =>
      set new : Given := ⟨agent.baseUrl, agent.projectId, call.name, value⟩ with hnew
      have hgiven : (w.finish cipher i agent call).given = new :: w.given := by
        simp only [CacheWorld.finish, given, hnew]
      have hold : ∀ r ∈ w.returned, Entitled (new :: w.given) r := fun r hr =>
        (h.discreet r hr).mono fun g hg => List.mem_cons_of_mem new hg
      have hbacked : Backed cipher w.disk w.origins (new :: w.given) :=
        h.backed.mono fun g hg => List.mem_cons_of_mem new hg
      rcases result with ⟨result, hentries⟩ | ⟨failure, result, hentries⟩
      · refine ⟨?_, ?_⟩
        · rw [hgiven]
          intro name e he
          simp only [CacheWorld.finish, source, result] at he ⊢
          rw [hentries] at he
          by_cases hname : name = call.name
          · rw [if_pos hname] at he ⊢
            exact ⟨agent.baseUrl, agent.projectId, rfl, value, call.iv, agent.apiKey,
              made e he, hname ▸ List.mem_cons_self⟩
          · rw [if_neg hname] at he ⊢
            exact hbacked name e he
        · rw [CacheWorld.Discreet, hgiven]
          simp only [CacheWorld.finish, source, result]
          exact List.forall_mem_cons.2 ⟨trivial, hold⟩
      · refine ⟨?_, ?_⟩
        · rw [hgiven]
          intro name e he
          simp only [CacheWorld.finish, source, result] at he ⊢
          rw [hentries] at he
          exact hbacked name e he
        · rw [CacheWorld.Discreet, hgiven]
          simp only [CacheWorld.finish, result]
          exact hold
    | failed failure source disk_eq given result =>
      refine ⟨fun name e he => ?_, ?_⟩
      · simp only [CacheWorld.finish, source, given, result, disk_eq] at he ⊢
        exact h.backed name e he
      · simp only [CacheWorld.Discreet, CacheWorld.finish, given, result]
        exact h.discreet

/-- Envelopes that show the key they are made with. -/
def openCipher : CacheCipher String (String × String × String) where
  deriveCacheKey apiKey := apiKey
  encryptForCache value iv key := (iv, key, value)
  decryptFromCache envelope key :=
    if envelope.2.1 = key then .ok envelope.2.2 else .error "Failed to decrypt the cached credential"
  opens value iv key := if_pos rfl
  authentic value iv apiKey other value' h := by
    by_contra hne
    exact absurd h (by simp [hne])

/-- The response of a token exchange. -/
def tokenBody : Body := .json (.obj [("data", .obj [("accessToken", .str "t")])])

/-- The response to a request for a value that may be cached. -/
def valueBody (value : String) : Body :=
  .json (.obj [("data", .obj [("value", .str value), ("cacheable", .bool true)])])

/-- A call of `getSecret` for one name. -/
def callAt (t : ℕ) (script : List Fetched) : Call := ⟨"DB_URL", t, t, script, [], "iv", true⟩

/-- After a live read, the ways to a value the cache must not give out: a lost connection or a
broken body after a response, a successful response without `data`, and an agent that has the same
API key for another project or another vault. -/
def leakingRuns : List (List CacheLabel) :=
  [[.calls 0 (callAt 1000 [.answered 401 .malformed, .unreachable])],
    [.calls 0 (callAt 1000 [.answered 200 .broken])],
    [.calls 0 (callAt 1000 [.answered 200 (.json .null)])],
    [.creates "key" "https://vault" "q" 1, .calls 1 (callAt 1000 [.unreachable])],
    [.creates "key" "https://staging" "p" 1, .calls 1 (callAt 1000 [.unreachable])]]

/-- An agent is where the fallback system gets to with its calls. -/
def FollowsFallback (agent : VaultAgent) (now : ℕ) : Prop :=
  ∃ r, (fallbackSystem agent.fallbackThreshold).Reaches (fun _ _ => True) r ∧
    r.state = agent.state ∧ r.underWay = 0 ∧ r.now ≤ now

/-- A call is a step of the fallback system, and a second one if it attempts a live read. -/
lemma FollowsFallback.getSecret {now : ℕ} (h : FollowsFallback agent now)
    (hcalled : now ≤ call.calledAt) (hnow : call.calledAt ≤ call.now) :
    FollowsFallback (getSecret cipher agent disk call).agent call.now := by
  obtain ⟨r, hr, hstate, hidle, hle⟩ := h
  obtain ⟨hafter, hthreshold⟩ := Prod.mk.inj (fallback_getSecret cipher agent disk call)
  have hlt : ¬call.calledAt < r.now := by omega
  rw [FollowsFallback, hafter, hthreshold]
  cases hattempt : shouldAttemptLiveRetry agent.state call.calledAt with
  | false =>
    refine ⟨{ r with now := call.calledAt }, hr.step (a := .calls call.calledAt) trivial ?_,
      hstate, hidle, hnow⟩
    simp [fallbackSystem, fallbackStep, hlt, hstate, hattempt]
  | true =>
    have hcalls : (fallbackSystem agent.fallbackThreshold).Reaches (fun _ _ => True)
        { r with underWay := r.underWay + 1, now := call.calledAt } :=
      hr.step (a := .calls call.calledAt) trivial
        (by simp [fallbackSystem, fallbackStep, hlt, hstate, hattempt])
    refine ⟨_, hcalls.step (a := .settles call.now (outcomeOf (liveRead agent call))) trivial
      (if_neg (by simpa using hnow)), ?_, ?_, le_rfl⟩
    · rw [FallbackRun.settle, hstate]
      rfl
    · simp [FallbackRun.settle, hidle]

end Agent
