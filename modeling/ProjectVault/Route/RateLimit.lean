import ProjectVault.Js.Map
import ProjectVault.Net.Address

/-!
The rate limiter of the routes (`lib/route-helpers.ts`) and the calls `lib/secure-route.ts` makes
of it. Counts and limits are natural numbers, times are in milliseconds.
-/

namespace RateLimit

open Js

/-- `RateWindow`. -/
structure RateWindow where
  count : ℕ
  resetAt : ℤ

/-- The variables of the module: `userRateLimitWindows`, `boundedRateLimitWindows`,
`nextBoundedSweepAt`. -/
structure Limiter where
  user : Map RateWindow
  bounded : Map RateWindow
  nextBoundedSweepAt : ℤ

/-- `UserRateLimitInput`, with its defaults. -/
structure UserRateLimitInput where
  userId : String
  key : String
  max : ℕ
  timeWindowMs : ℤ := 60000
  bounded : Bool := false

/-- `UserRateLimitDecision`. -/
inductive Decision where
  | allowed
  | refused (retryAfter : ℤ)
deriving DecidableEq

/-- A call of `consumeUserRateLimit`, and whether its key is made from the address of an
unauthenticated caller. -/
structure RateCall where
  input : UserRateLimitInput
  now : ℤ
  fromAddress : Bool

/-- `USER_RATE_LIMIT_MAX_BUCKETS`. -/
def userRateLimitMaxBuckets : ℕ := 50000

/-- `BOUNDED_SWEEP_INTERVAL_MS`. -/
def boundedSweepIntervalMs : ℤ := 1000

/-- The module as it is loaded. -/
def Limiter.init : Limiter := ⟨Map.empty, Map.empty, 0⟩

/-- The windows that are not over yet. -/
def sweep (now : ℤ) (windows : Map RateWindow) : Map RateWindow :=
  ⟨windows.entries.filter fun e => now < e.2.resetAt,
    windows.nodup.sublist (List.filter_sublist.map _)⟩

/-- `map.size`. -/
def size (windows : Map RateWindow) : ℕ := windows.entries.length

/-- The expired windows go first, at most once in a while. -/
def Limiter.swept (l : Limiter) (now : ℤ) : Limiter :=
  if l.nextBoundedSweepAt ≤ now then
    { l with nextBoundedSweepAt := now + boundedSweepIntervalMs, bounded := sweep now l.bounded }
  else l

/-- Then the oldest one. -/
def Limiter.evicted (l : Limiter) : Limiter :=
  match l.bounded.keys.head? with
  | some oldest => { l with bounded := l.bounded.delete oldest }
  | none => l

/-- `makeRoomForBoundedBucket`. -/
def makeRoomForBoundedBucket (l : Limiter) (now : ℤ) : Limiter :=
  if size l.bounded < userRateLimitMaxBuckets then l
  else if size (l.swept now).bounded < userRateLimitMaxBuckets then l.swept now
  else (l.swept now).evicted

/-- `bucketKey`. -/
def UserRateLimitInput.bucketKey (input : UserRateLimitInput) : String :=
  input.userId ++ ":" ++ input.key

/-- The map a call uses. -/
def Limiter.windows (l : Limiter) : Bool → Map RateWindow
  | true => l.bounded
  | false => l.user

/-- `windows.set(…)`. -/
def Limiter.setWindow (l : Limiter) (key : String) (window : RateWindow) : Bool → Limiter
  | true => { l with bounded := l.bounded.set key window }
  | false => { l with user := l.user.set key window }

/-- The window a call finds, unless there is none or it is over. -/
def Limiter.current (l : Limiter) (c : RateCall) : Option RateWindow :=
  ((l.windows c.input.bounded).get? c.input.bucketKey).filter fun w => c.now < w.resetAt

/-- The window a call leaves. -/
def Limiter.bucket (l : Limiter) (c : RateCall) : RateWindow :=
  match l.current c with
  | some w => { w with count := w.count + 1 }
  | none => ⟨1, c.now + c.input.timeWindowMs⟩

/-- A call for a bucket that is not tracked makes room first, in the bounded map. -/
def Limiter.room (l : Limiter) (c : RateCall) : Limiter :=
  if ((l.windows c.input.bounded).get? c.input.bucketKey).isNone && c.input.bounded then
    makeRoomForBoundedBucket l c.now
  else l

/-- `consumeUserRateLimit`, where limits are enforced (`isRateLimitEnforced`) or not. -/
def consumeUserRateLimit (enforced : Bool) (l : Limiter) (c : RateCall) : Limiter × Decision :=
  if !enforced then (l, .allowed)
  else
    ((l.room c).setWindow c.input.bucketKey (l.bucket c) c.input.bounded,
      if (l.bucket c).count ≤ c.input.max then .allowed
      else .refused (-(-((l.bucket c).resetAt - c.now) / 1000)))

/-- The `rateLimit` of a route. -/
structure RouteRateLimit where
  key : String
  max : ℕ
  timeWindowMs : ℤ

/-- The part of `AuthContext` that names the principal. -/
structure AuthContext where
  userId : String
  orgId : String
  delegation : Bool

/-- The call `handlePublicRequest` makes. -/
def handlePublicRequest (rateLimit : RouteRateLimit) (ip : String) (now : ℤ) : RateCall where
  input := { rateLimit with userId := "ip:" ++ ip, bounded := false }
  now := now
  fromAddress := true

/-- The call `enforceRouteRateLimit` makes. -/
def enforceRouteRateLimit (rateLimit : RouteRateLimit) (auth : AuthContext) (now : ℤ) :
    RateCall where
  input :=
    { rateLimit with
      userId := if auth.delegation then "delegation:" ++ auth.orgId else auth.userId
      bounded := false }
  now := now
  fromAddress := false

/-- The call `delegationIpLimitStage` makes, for a normalized address. -/
def delegationIpLimitStage (address : String) (now : ℤ) : RateCall where
  input :=
    { userId := "delegation-ip:" ++ address, key := "delegation-ip", max := 600, bounded := true }
  now := now
  fromAddress := true

/-! ### Sequences of calls -/

/-- The limiter after the calls. -/
def runCalls (l : Limiter) (calls : List RateCall) : Limiter :=
  calls.foldl (fun l c => (consumeUserRateLimit true l c).1) l

/-- The calls with their decisions. -/
def decisions (l : Limiter) : List RateCall → List (RateCall × Decision)
  | [] => []
  | c :: calls =>
    (c, (consumeUserRateLimit true l c).2) :: decisions (consumeUserRateLimit true l c).1 calls

/-- The map and the key of a call. -/
def RateCall.bucketOf (c : RateCall) : Bool × String := (c.input.bounded, c.input.bucketKey)

/-- None of the calls starts a window of the bucket. -/
def KeepsWindow (b : Bool × String) : Limiter → List RateCall → Prop
  | _, [] => True
  | l, c :: calls =>
    (c.bucketOf = b → l.current c ≠ none) ∧
      KeepsWindow b (consumeUserRateLimit true l c).1 calls

/-- The admitted calls of a bucket whose limit is `max` or lower. -/
def admitted (b : Bool × String) (max : ℕ) (calls : List (RateCall × Decision)) :
    List (RateCall × Decision) :=
  calls.filter fun d => d.1.bucketOf = b ∧ d.1.input.max ≤ max ∧ d.2 = .allowed

/-- The authenticated principals and keys of the calls. -/
def principals (calls : List RateCall) : Finset (String × String) :=
  ((calls.filter (!·.fromAddress)).map fun c => (c.input.userId, c.input.key)).toFinset

/-- `userRateLimitBucketCount` of both maps. -/
def Limiter.bucketCount (l : Limiter) : ℕ := size l.user + size l.bounded

variable {l : Limiter} {c : RateCall} {windows : Map RateWindow} {key : String} {now : ℤ}

/-! ### Room -/

lemma get?_sweep {w : RateWindow} (h : (sweep now windows).get? key = some w) :
    windows.get? key = some w :=
  Map.get?_eq_some_iff.2 (List.mem_of_mem_filter (Map.get?_eq_some_iff.1 h))

lemma size_sweep_le : size (sweep now windows) ≤ size windows := List.length_filter_le _ _

lemma size_delete_lt (h : key ∈ windows.keys) : size (windows.delete key) < size windows := by
  obtain ⟨w, hw⟩ := Map.mem_keys_iff.1 h
  exact List.length_filter_lt_length_iff_exists.2 ⟨_, hw, by simp⟩

lemma size_set_of_mem {w : RateWindow} (h : key ∈ windows.keys) :
    size (windows.set key w) = size windows := by
  rw [size, Map.set, dif_pos h]
  exact List.length_map _

lemma size_set_le {w : RateWindow} : size (windows.set key w) ≤ size windows + 1 := by
  by_cases h : key ∈ windows.keys
  · rw [size_set_of_mem h]
    exact Nat.le_succ _
  · rw [size, Map.set, dif_neg h, List.length_append, List.length_singleton]
    rfl

/-- Making room loses windows only, and none of the other map. -/
lemma makeRoom_get? (b : Bool) {w : RateWindow}
    (h : ((makeRoomForBoundedBucket l now).windows b).get? key = some w) :
    (l.windows b).get? key = some w := by
  have hswept : ∀ {k : String}, ((l.swept now).windows b).get? k = some w →
      (l.windows b).get? k = some w := by
    intro k hk
    unfold Limiter.swept at hk
    split at hk
    · cases b with
      | true => exact get?_sweep hk
      | false => exact hk
    · exact hk
  unfold makeRoomForBoundedBucket at h
  split_ifs at h
  · exact h
  · exact hswept h
  · refine hswept ?_
    unfold Limiter.evicted at h
    split at h
    · cases b with
      | true =>
        simp only [Limiter.windows, Map.get?_delete] at h
        split_ifs at h
        exact h
      | false => exact h
    · exact h

lemma makeRoom_user : (makeRoomForBoundedBucket l now).user = l.user := by
  unfold makeRoomForBoundedBucket Limiter.evicted Limiter.swept
  split_ifs <;> first | rfl | (split <;> rfl)

lemma size_makeRoom (h : size l.bounded ≤ userRateLimitMaxBuckets) :
    size (makeRoomForBoundedBucket l now).bounded < userRateLimitMaxBuckets := by
  unfold makeRoomForBoundedBucket
  split_ifs with hroom hswept
  · exact hroom
  · exact hswept
  · have hle : size (l.swept now).bounded ≤ size l.bounded := by
      unfold Limiter.swept
      split
      · exact size_sweep_le
      · exact le_rfl
    have hpos : 0 < (l.swept now).bounded.entries.length := by
      rw [not_lt] at hswept
      exact lt_of_lt_of_le (by decide) hswept
    obtain ⟨e, entries, hentries⟩ := List.exists_cons_of_length_pos hpos
    have hhead : (l.swept now).bounded.keys = e.1 :: entries.map Prod.fst := by
      rw [Map.keys, hentries, List.map_cons]
    simp only [Limiter.evicted, hhead, List.head?_cons]
    have hlt := size_delete_lt (hhead ▸ List.mem_cons_self : e.1 ∈ (l.swept now).bounded.keys)
    omega

/-! ### One call -/

lemma setWindow_get? (l : Limiter) (key k : String) (w : RateWindow) (b b' : Bool) :
    ((l.setWindow key w b').windows b).get? k =
      if (b, k) = (b', key) then some w else (l.windows b).get? k := by
  cases b <;> cases b' <;> simp [Limiter.setWindow, Limiter.windows, Map.get?_set]

lemma consume_eq : consumeUserRateLimit true l c =
    ((l.room c).setWindow c.input.bucketKey (l.bucket c) c.input.bounded,
      if (l.bucket c).count ≤ c.input.max then .allowed
      else .refused (-(-((l.bucket c).resetAt - c.now) / 1000))) :=
  if_neg (by decide)

/-- A call has the window it leaves stored. -/
lemma consume_get?_self :
    ((consumeUserRateLimit true l c).1.windows c.input.bounded).get? c.input.bucketKey =
      some (l.bucket c) := by
  rw [consume_eq, setWindow_get?, if_pos rfl]

/-- A call stores no window of another bucket. -/
lemma consume_get?_of_ne {b : Bool × String} {w : RateWindow} (hb : b ≠ c.bucketOf)
    (h : ((consumeUserRateLimit true l c).1.windows b.1).get? b.2 = some w) :
    (l.windows b.1).get? b.2 = some w := by
  rw [consume_eq, setWindow_get?,
    if_neg (show (b.1, b.2) ≠ (c.input.bounded, c.input.bucketKey) from hb), Limiter.room] at h
  split at h
  · exact makeRoom_get? _ h
  · exact h

lemma consume_decision :
    (consumeUserRateLimit true l c).2 = .allowed ↔ (l.bucket c).count ≤ c.input.max := by
  rw [consume_eq]
  split_ifs with hmax <;> simp [hmax]

lemma room_user : (l.room c).user = l.user := by
  unfold Limiter.room
  split
  · exact makeRoom_user
  · rfl

/-- Bounded calls leave the other map alone. -/
lemma consume_user_of_bounded (h : c.input.bounded = true) :
    (consumeUserRateLimit true l c).1.user = l.user := by
  rw [consume_eq, h]
  exact room_user

lemma consume_user (h : c.input.bounded = false) :
    (consumeUserRateLimit true l c).1.user = l.user.set c.input.bucketKey (l.bucket c) := by
  rw [consume_eq, h]
  exact congrArg (·.set c.input.bucketKey (l.bucket c)) room_user

/-- What an unbounded call does depends on the map it uses only. -/
lemma bucket_congr {l' : Limiter} (hc : c.input.bounded = false) (hl : l.user = l'.user) :
    l.bucket c = l'.bucket c := by
  simp only [Limiter.bucket, Limiter.current, hc, Limiter.windows, hl]

/-- The bounded map keeps its bound. -/
lemma consume_bounded (h : size l.bounded ≤ userRateLimitMaxBuckets) :
    size (consumeUserRateLimit true l c).1.bounded ≤ userRateLimitMaxBuckets := by
  rw [consume_eq]
  cases hc : c.input.bounded with
  | false => simpa [Limiter.setWindow, Limiter.room, hc] using h
  | true =>
    simp only [Limiter.setWindow, Limiter.room, hc, Bool.and_true, Limiter.windows]
    split_ifs with hnew
    · exact size_set_le.trans (size_makeRoom h)
    · rw [size_set_of_mem]
      · exact h
      · rw [← Map.has_iff, Map.has, Option.isSome_iff_ne_none]
        simpa using hnew

/-! ### Sequences -/

/-- Decisions of unbounded calls are those of the sequence without the bounded ones. -/
lemma decisions_unbounded {l' : Limiter} (hl : l.user = l'.user) (calls : List RateCall) :
    (decisions l calls).filter (!·.1.input.bounded) =
      decisions l' (calls.filter (!·.input.bounded)) := by
  induction calls generalizing l l' with
  | nil => rfl
  | cons c calls ih =>
    cases hc : c.input.bounded with
    | true =>
      rw [decisions, List.filter_cons_of_neg (by simp [hc]),
        List.filter_cons_of_neg (by simp [hc])]
      exact ih ((consume_user_of_bounded hc).trans hl)
    | false =>
      have hbucket := bucket_congr hc hl
      have hdecision : (consumeUserRateLimit true l c).2 = (consumeUserRateLimit true l' c).2 := by
        rw [consume_eq, consume_eq, hbucket]
      rw [decisions, List.filter_cons_of_pos (by simp [hc]),
        List.filter_cons_of_pos (by simp [hc]), decisions, hdecision]
      refine congrArg _ (ih ?_)
      rw [consume_user hc, consume_user hc, hbucket, hl]

/-- What becomes of an unbounded bucket depends on its window and its calls only. -/
lemma decisions_bucket {l' : Limiter} (hl : l.user.get? key = l'.user.get? key)
    (calls : List RateCall) :
    (decisions l calls).filter (·.1.bucketOf = (false, key)) =
      decisions l' (calls.filter (·.bucketOf = (false, key))) := by
  induction calls generalizing l l' with
  | nil => rfl
  | cons c calls ih =>
    rw [decisions]
    by_cases hkey : c.bucketOf = (false, key)
    · obtain ⟨hc, rfl⟩ := Prod.mk.inj hkey
      have hbucket : l.bucket c = l'.bucket c := by
        simp only [Limiter.bucket, Limiter.current, hc, Limiter.windows, hl]
      rw [List.filter_cons_of_pos (by simpa using hkey),
        List.filter_cons_of_pos (by simpa using hkey), decisions, consume_eq, consume_eq, hbucket]
      refine congrArg _ (ih ?_)
      simp [hc, Limiter.setWindow, Map.get?_set]
    · rw [List.filter_cons_of_neg (by simpa using hkey),
        List.filter_cons_of_neg (by simpa using hkey)]
      refine ih (Eq.trans ?_ hl)
      cases hc : c.input.bounded with
      | true => rw [consume_user_of_bounded hc]
      | false =>
        have hne : key ≠ c.input.bucketKey := fun heq =>
          hkey (by rw [RateCall.bucketOf, hc, heq])
        rw [consume_user hc, Map.get?_set, if_neg hne]

/-- In a window of which `n` calls are spent, no more than `max - n` are admitted. -/
lemma admitted_keepsWindow (max : ℕ) {b : Bool × String} {n : ℕ}
    (hn : ∀ w, (l.windows b.1).get? b.2 = some w → w.count = n) {calls : List RateCall}
    (hkeeps : KeepsWindow b l calls) : (admitted b max (decisions l calls)).length ≤ max - n := by
  induction calls generalizing l n with
  | nil => exact Nat.zero_le _
  | cons c calls ih =>
    obtain ⟨hcurrent, hrest⟩ := hkeeps
    rw [decisions, admitted, List.filter_cons]
    by_cases hb : c.bucketOf = b
    · obtain ⟨w, hw⟩ := Option.ne_none_iff_exists'.1 (hcurrent hb)
      have hfound := (Option.filter_eq_some_iff.1 hw).1
      have hcount : (l.bucket c).count = n + 1 := by
        rw [Limiter.bucket, hw, ← hn w (hb ▸ hfound)]
      have hnext : ∀ w, ((consumeUserRateLimit true l c).1.windows b.1).get? b.2 = some w →
          w.count = n + 1 := by
        intro w hw
        rw [← hb] at hw
        rw [← hcount, ← Option.some.inj (consume_get?_self.symm.trans hw)]
      have hlength := ih hnext hrest
      rw [admitted] at hlength
      split_ifs with hadmitted
      · have hmax := consume_decision.1 (of_decide_eq_true hadmitted).2.2
        have hle : c.input.max ≤ max := (of_decide_eq_true hadmitted).2.1
        rw [List.length_cons]
        omega
      · omega
    · rw [if_neg (by simp [hb])]
      exact ih (fun w hw => hn w (consume_get?_of_ne (Ne.symm hb) hw)) hrest

/-- From the call that starts a window on, no more than `max` are admitted. -/
lemma admitted_window {max : ℕ} {calls : List RateCall} (hstart : l.current c = none)
    (hkeeps : KeepsWindow c.bucketOf (consumeUserRateLimit true l c).1 calls) :
    (admitted c.bucketOf max (decisions l (c :: calls))).length ≤ max := by
  have hcount : (l.bucket c).count = 1 := by rw [Limiter.bucket, hstart]
  have hrest := admitted_keepsWindow max (n := 1)
    (fun w hw => by rw [← Option.some.inj (consume_get?_self.symm.trans hw), hcount]) hkeeps
  rw [admitted] at hrest
  rw [decisions, admitted, List.filter_cons]
  split_ifs with hadmitted
  · have hmax := consume_decision.1 (of_decide_eq_true hadmitted).2.2
    have hle : c.input.max ≤ max := (of_decide_eq_true hadmitted).2.1
    rw [List.length_cons]
    omega
  · omega

/-- The bound of the bounded map holds after every sequence. -/
lemma runCalls_bounded (h : size l.bounded ≤ userRateLimitMaxBuckets) (calls : List RateCall) :
    size (runCalls l calls).bounded ≤ userRateLimitMaxBuckets := by
  induction calls generalizing l with
  | nil => exact h
  | cons c calls ih => exact ih (consume_bounded h)

/-- The other map tracks the buckets of the unbounded calls, for ever. -/
lemma mem_runCalls_user (calls : List RateCall) :
    key ∈ (runCalls l calls).user.keys ↔ key ∈ l.user.keys ∨
      key ∈ (calls.filter (!·.input.bounded)).map (·.input.bucketKey) := by
  induction calls generalizing l with
  | nil => simp [runCalls]
  | cons c calls ih =>
    rw [runCalls, List.foldl_cons, ← runCalls, ih]
    cases hc : c.input.bounded with
    | true =>
      rw [consume_user_of_bounded hc, List.filter_cons_of_neg (by simp [hc])]
    | false =>
      rw [consume_user hc, Map.mem_keys_set, List.filter_cons_of_pos (by simp [hc]),
        List.map_cons, List.mem_cons]
      tauto

/-- So there is one window for each of them. -/
lemma size_runCalls_user (calls : List RateCall) :
    size (runCalls .init calls).user =
      ((calls.filter (!·.input.bounded)).map (·.input.bucketKey)).toFinset.card := by
  rw [size, ← List.length_map, ← Map.keys, ← List.toFinset_card_of_nodup (Map.nodup_keys _)]
  congr 1
  ext key
  rw [List.mem_toFinset, List.mem_toFinset, mem_runCalls_user]
  simp [Limiter.init, Map.keys, Map.empty]

/-- Principals take one window for each key at most. -/
lemma size_user_le {calls : List RateCall}
    (haddress : ∀ c ∈ calls, c.fromAddress → c.input.bounded) :
    size (runCalls .init calls).user ≤ (principals calls).card := by
  rw [size_runCalls_user]
  refine le_trans (Finset.card_le_card fun key hkey => ?_)
    (Finset.card_image_le (f := fun p : String × String => p.1 ++ ":" ++ p.2))
  obtain ⟨c, hc, rfl⟩ := List.mem_map.1 (List.mem_toFinset.1 hkey)
  obtain ⟨hmem, hunbounded⟩ := List.mem_filter.1 hc
  have hprincipal : c.fromAddress = false := by
    by_contra haddr
    rw [haddress c hmem (by simpa using haddr)] at hunbounded
    cases hunbounded
  refine Finset.mem_image.2 ⟨(c.input.userId, c.input.key), ?_, rfl⟩
  exact List.mem_toFinset.2
    (List.mem_map.2 ⟨c, List.mem_filter.2 ⟨hmem, by rw [hprincipal]; rfl⟩, rfl⟩)

/-- **The rate limiter.** Bounded calls do not touch the decisions of the others, a window admits
at most its limit of calls, the bounded map keeps its bound, and where every key made from an
address is a bounded one, so do both maps together, but for the authenticated principals. -/
theorem consumeUserRateLimit_isolated (calls : List RateCall) :
    (decisions .init calls).filter (!·.1.input.bounded) =
      decisions .init (calls.filter (!·.input.bounded)) ∧
    (∀ (l : Limiter) (c : RateCall) (max : ℕ), l.current c = none →
      KeepsWindow c.bucketOf (consumeUserRateLimit true l c).1 calls →
        (admitted c.bucketOf max (decisions l (c :: calls))).length ≤ max) ∧
    size (runCalls .init calls).bounded ≤ userRateLimitMaxBuckets ∧
    ((∀ c ∈ calls, c.fromAddress → c.input.bounded) →
      (runCalls .init calls).bucketCount ≤ userRateLimitMaxBuckets + (principals calls).card) := by
  refine ⟨decisions_unbounded rfl calls, fun _ _ _ => admitted_window,
    runCalls_bounded (Nat.zero_le _) calls, fun haddress => ?_⟩
  rw [Limiter.bucketCount, add_comm]
  exact Nat.add_le_add (runCalls_bounded (Nat.zero_le _) calls) (size_user_le haddress)

/-- **Noninterference**: the calls of a principal, a route or an address outside the bounded map are
answered as if there were no others, whatever comes in between. -/
theorem unbounded_noninterference (key : String) (calls : List RateCall) :
    (decisions .init calls).filter (·.1.bucketOf = (false, key)) =
      decisions .init (calls.filter (·.bucketOf = (false, key))) :=
  decisions_bucket rfl calls

/-- A route of an authenticated user, and the address of a delegated request. -/
def mixedCalls : List RateCall :=
  [enforceRouteRateLimit ⟨"notes", 2, 60000⟩ ⟨"user", "org", false⟩ 0,
    delegationIpLimitStage "203.0.113.7" 1,
    enforceRouteRateLimit ⟨"notes", 2, 60000⟩ ⟨"user", "org", false⟩ 2]

theorem consumeUserRateLimit_isolated_mixed :
    (runCalls .init mixedCalls).bucketCount ≤
      userRateLimitMaxBuckets + (principals mixedCalls).card :=
  (consumeUserRateLimit_isolated mixedCalls).2.2.2 (by simp [mixedCalls, enforceRouteRateLimit,
    delegationIpLimitStage])

/-- Requests of a public route with a rate limit, each from an address of its own. -/
def publicFlood (n : ℕ) : List RateCall :=
  (List.range n).map fun i =>
    handlePublicRequest ⟨"share-reveal", 20, 60000⟩
      ("2001:db8::" ++ String.ofList (Net.hexText i)) 0

lemma bucketKey_injective : Function.Injective fun i : ℕ =>
    (handlePublicRequest ⟨"share-reveal", 20, 60000⟩
      ("2001:db8::" ++ String.ofList (Net.hexText i)) 0).input.bucketKey := by
  intro i j hij
  have hkeys := congrArg String.toList hij
  simp only [handlePublicRequest, UserRateLimitInput.bucketKey, String.toList_append,
    String.toList_ofList, List.append_assoc, List.append_cancel_left_eq] at hkeys
  rw [← Net.hexNumber_hexText i, ← Net.hexNumber_hexText j, List.append_cancel_right hkeys]

/-- Every address of a flood has a window of its own, and no principal is behind it. -/
lemma publicFlood_windows (n : ℕ) :
    size (runCalls .init (publicFlood n)).user = n ∧ principals (publicFlood n) = ∅ := by
  have hcalls : ∀ c ∈ publicFlood n, c.input.bounded = false ∧ c.fromAddress = true := by
    intro c hc
    obtain ⟨i, -, rfl⟩ := List.mem_map.1 hc
    exact ⟨rfl, rfl⟩
  constructor
  · rw [size_runCalls_user, List.filter_eq_self.2 fun c hc => by simp [(hcalls c hc).1],
      publicFlood, List.map_map, List.toFinset_card_of_nodup, List.length_map, List.length_range]
    exact List.nodup_range.map bucketKey_injective
  · rw [principals, List.filter_eq_nil_iff.2 fun c hc => by simp [(hcalls c hc).2]]
    rfl

/-- `handlePublicRequest` spends on the unbounded map. -/
theorem publicFlood_outgrows :
    userRateLimitMaxBuckets + (principals (publicFlood 50001)).card <
      (runCalls .init (publicFlood 50001)).bucketCount := by
  obtain ⟨hsize, hprincipals⟩ := publicFlood_windows 50001
  rw [hprincipals, Limiter.bucketCount, hsize]
  exact Nat.lt_of_lt_of_le (by decide) (Nat.le_add_right _ _)

end RateLimit
