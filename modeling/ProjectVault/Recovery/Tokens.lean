import ProjectVault.Run.System
import Mathlib.Data.List.Nodup

/-!
Recovery links: their issue, lookup and redemption (`recovery`, `recovery-lookup`).
-/

namespace Recovery

/-- A row of `account_recovery_tokens`, times in milliseconds. -/
structure RecoveryToken where
  id : ℕ
  userId : ℕ
  tokenHash : String
  expiresAt : ℤ
  usedAt : Option ℤ
  supersededAt : Option ℤ
  deriving DecidableEq

def recoveryTokenTtlMs : ℤ := 15 * 60 * 1000

/-- The condition of the updates that claim and supersede tokens: unused, unsuperseded and
unexpired. -/
def RecoveryToken.live (now : ℤ) (r : RecoveryToken) : Bool :=
  r.usedAt.isNone && r.supersededAt.isNone && now < r.expiresAt

inductive RecoveryTokenStatusError where
  | notFound | used | superseded | expired

def validateRecoveryTokenStatus (now : ℤ) : Option RecoveryToken → Option RecoveryTokenStatusError
  | none => some .notFound
  | some token =>
    if token.usedAt.isSome then some .used
    else if token.supersededAt.isSome then some .superseded
    else if token.expiresAt < now then some .expired
    else none

/-- `findRecoveryTokenByHash`. -/
def findRecoveryTokenByHash (tokens : List RecoveryToken) (tokenHash : String) :
    Option RecoveryToken :=
  tokens.find? fun r => r.tokenHash = tokenHash

/-- An open request or redemption. -/
inductive RecoveryTx where
  | idle
  /-- `supersedePriorRecoveryTokens` under way: its snapshot, the rows to take, the rows taken -/
  | superseding (userId : ℕ) (readAt : ℤ) (snapshot todo taken : List ℕ)
  /-- the new token inserted -/
  | inserted (readAt : ℤ) (snapshot taken : List ℕ) (token : RecoveryToken)
  /-- a redemption whose link has passed the check -/
  | found (id : ℕ)
  /-- `claimRecoveryToken` has matched its row -/
  | claimed (id : ℕ) (usedAt : ℤ)
  deriving DecidableEq

/-- The rows a transaction has locked. -/
def RecoveryTx.locks : RecoveryTx → List ℕ
  | .superseding _ _ _ _ taken => taken
  | .inserted _ _ taken _ => taken
  | .claimed id _ => [id]
  | _ => []

structure RecoveryState where
  now : ℤ
  tokens : List RecoveryToken
  nextId : ℕ
  txs : ℕ → RecoveryTx
  /-- the transactions ever opened -/
  slots : List ℕ

def RecoveryState.put (s : RecoveryState) (i : ℕ) (tx : RecoveryTx) : RecoveryState :=
  { s with txs := Function.update s.txs i tx, slots := i :: s.slots }

/-- No other transaction holds the row. -/
def RecoveryState.free (s : RecoveryState) (i id : ℕ) : Bool :=
  s.slots.all fun j => j == i || id ∉ (s.txs j).locks

/-- Apply an update to the rows of a list of ids. -/
def updateTokens (tokens : List RecoveryToken) (ids : List ℕ)
    (f : RecoveryToken → RecoveryToken) : List RecoveryToken :=
  tokens.map fun r => if r.id ∈ ids then f r else r

inductive RecoveryLabel where
  | tick (t : ℤ)
  /-- a request begins to supersede the tokens of its user, on a reading of the clock -/
  | supersede (i userId : ℕ) (readAt : ℤ)
  /-- the statement takes the next row of its snapshot -/
  | take (i : ℕ)
  | insert (i : ℕ) (tokenHash : String) (readAt : ℤ)
  | lookup (i : ℕ) (tokenHash : String) (readAt : ℤ)
  | claim (i : ℕ) (readAt : ℤ)
  | commit (i : ℕ)
  | rollback (i : ℕ)

def recoveryStep (s : RecoveryState) : RecoveryLabel → Option RecoveryState
  | .tick t => if s.now ≤ t then some { s with now := t } else none
  | .supersede i userId readAt =>
    if s.txs i = .idle ∧ readAt ≤ s.now then
      let candidates := s.tokens.filter fun r => r.userId = userId ∧ r.live readAt = true
      some (s.put i (.superseding userId readAt (s.tokens.map RecoveryToken.id)
        (candidates.map RecoveryToken.id) []))
    else none
  | .take i =>
    match s.txs i with
    | .superseding userId readAt snapshot (id :: todo) taken =>
      if s.free i id = false then none
      else if s.tokens.any fun r => r.id = id ∧ r.live readAt = true then
        some (s.put i (.superseding userId readAt snapshot todo (id :: taken)))
      else some (s.put i (.superseding userId readAt snapshot todo taken))
    | _ => none
  | .insert i tokenHash readAt =>
    match s.txs i with
    | .superseding userId supersededAt snapshot [] taken =>
      -- a second token of the hash would end the transaction
      if s.now < readAt ∨ (findRecoveryTokenByHash s.tokens tokenHash).isSome then none
      else
        some { s.put i (.inserted supersededAt snapshot taken
            ⟨s.nextId, userId, tokenHash, readAt + recoveryTokenTtlMs, none, none⟩) with
          nextId := s.nextId + 1 }
    | _ => none
  | .lookup i tokenHash readAt =>
    if s.txs i = .idle ∧ readAt ≤ s.now then
      match findRecoveryTokenByHash s.tokens tokenHash with
      | none => some s
      | some token =>
        if validateRecoveryTokenStatus readAt (some token) = none then
          some (s.put i (.found token.id))
        else some s
    else none
  | .claim i readAt =>
    match s.txs i with
    | .found id =>
      if s.now < readAt ∨ s.free i id = false then none
      else if s.tokens.any fun r => r.id = id ∧ r.live readAt = true then
        some (s.put i (.claimed id readAt))
      else some (s.put i .idle)
    | _ => none
  | .commit i =>
    match s.txs i with
    | .inserted readAt _ taken token =>
      some { s.put i .idle with
        tokens := token :: updateTokens s.tokens taken
          fun r => { r with supersededAt := some readAt } }
    | .claimed id usedAt =>
      some { s.put i .idle with
        tokens := updateTokens s.tokens [id] fun r => { r with usedAt := some usedAt } }
    | _ => none
  | .rollback i => some (s.put i .idle)

/-- The system, from a table without tokens. -/
def recoverySystem : Run.System RecoveryState RecoveryLabel where
  init := ⟨0, [], 0, fun _ => .idle, []⟩
  step := recoveryStep

/-- When a request commits a token that has not expired, no token that another request committed
since its snapshot is live. -/
def Unraced (s : RecoveryState) : RecoveryLabel → Prop
  | .commit i =>
    match s.txs i with
    | .inserted _ snapshot _ token => s.now < token.expiresAt → ∀ r ∈ s.tokens,
        r.userId = token.userId → r.id ∉ snapshot → r.live s.now = false
    | _ => True
  | _ => True

instance (s : RecoveryState) (a : RecoveryLabel) : Decidable (Unraced s a) := by
  unfold Unraced
  split
  · split <;> infer_instance
  · infer_instance

/-- The live links of a user. -/
def RecoveryState.liveLinks (s : RecoveryState) (userId : ℕ) : List RecoveryToken :=
  s.tokens.filter fun r => r.userId = userId ∧ r.live s.now = true

/-! ### The invariant -/

/-- What is known of one open transaction. -/
structure TxInv (s : RecoveryState) (tx : RecoveryTx) : Prop where
  superseding : ∀ userId readAt snapshot todo taken,
    tx = .superseding userId readAt snapshot todo taken → readAt ≤ s.now ∧
      (∀ n ∈ snapshot, n < s.nextId) ∧
      ∀ r ∈ s.tokens, r.userId = userId → r.id ∈ snapshot → r.live s.now = true →
        r.id ∈ todo ∨ r.id ∈ taken
  inserted : ∀ readAt snapshot taken token, tx = .inserted readAt snapshot taken token →
      token.id < s.nextId ∧ token.id ∉ s.tokens.map RecoveryToken.id ∧
      (∀ n ∈ snapshot, n < s.nextId) ∧
      ∀ r ∈ s.tokens, r.userId = token.userId → r.id ∈ snapshot → r.live s.now = true →
        r.id ∈ taken

/-- The id of the token a transaction has inserted. -/
def RecoveryTx.newId : RecoveryTx → Option ℕ
  | .inserted _ _ _ token => some token.id
  | _ => none

def RecoveryTx.snapshot : RecoveryTx → List ℕ
  | .superseding _ _ snapshot _ _ => snapshot
  | .inserted _ snapshot _ _ => snapshot
  | _ => []

/-- Ids are used once, what a request inserted is in no snapshot, and a user has one live link. -/
structure SupersedeInv (s : RecoveryState) : Prop where
  nodup : (s.tokens.map RecoveryToken.id).Nodup
  bound : ∀ r ∈ s.tokens, r.id < s.nextId
  tx : ∀ i, TxInv s (s.txs i)
  newId : ∀ i j n, i ≠ j → (s.txs i).newId = some n →
    (s.txs j).newId ≠ some n ∧ n ∉ (s.txs j).snapshot
  live : ∀ r ∈ s.tokens, ∀ r' ∈ s.tokens, r.userId = r'.userId → r.live s.now = true →
    r'.live s.now = true → r.id = r'.id

variable {s s' : RecoveryState} {i : ℕ} {tx : RecoveryTx}

lemma RecoveryToken.live_anti {r : RecoveryToken} {t t' : ℤ} (hle : t ≤ t')
    (h : r.live t' = true) : r.live t = true := by
  simp only [RecoveryToken.live, Bool.and_eq_true, decide_eq_true_eq] at h ⊢
  exact ⟨h.1, hle.trans_lt h.2⟩

/-- An update that ends the life of its tokens. -/
structure Kills (f : RecoveryToken → RecoveryToken) : Prop where
  id : ∀ r, (f r).id = r.id
  userId : ∀ r, (f r).userId = r.userId
  dead : ∀ r t, (f r).live t = false

lemma kills_supersede (t : ℤ) : Kills fun r => { r with supersededAt := some t } where
  id _ := rfl
  userId _ := rfl
  dead r _ := by simp [RecoveryToken.live]

lemma kills_use (t : ℤ) : Kills fun r => { r with usedAt := some t } where
  id _ := rfl
  userId _ := rfl
  dead r _ := by simp [RecoveryToken.live]

lemma Kills.ids {f : RecoveryToken → RecoveryToken} (hf : Kills f) (tokens : List RecoveryToken)
    (ids : List ℕ) :
    (updateTokens tokens ids f).map RecoveryToken.id = tokens.map RecoveryToken.id := by
  rw [updateTokens, List.map_map]
  refine List.map_congr_left fun r _ => ?_
  rw [Function.comp_apply]
  split
  · exact hf.id r
  · rfl

/-- A row after such an update, and the row it was. -/
lemma Kills.mem {f : RecoveryToken → RecoveryToken} (hf : Kills f) {tokens : List RecoveryToken}
    {ids : List ℕ} {r' : RecoveryToken} (h : r' ∈ updateTokens tokens ids f) :
    ∃ r ∈ tokens, r.id = r'.id ∧ r.userId = r'.userId ∧
      ∀ t, r'.live t = true → r.live t = true ∧ r.id ∉ ids := by
  obtain ⟨r, hr, rfl⟩ := List.mem_map.1 h
  refine ⟨r, hr, ?_⟩
  split
  · refine ⟨(hf.id r).symm, (hf.userId r).symm, fun t hlive => ?_⟩
    rw [hf.dead] at hlive
    cases hlive
  · rename_i hids
    exact ⟨rfl, rfl, fun t hlive => ⟨hlive, hids⟩⟩

/-- A transaction that nobody steps in between: the rows of its snapshot only die. -/
lemma TxInv.mono (h : TxInv s tx) (hnow : s.now ≤ s'.now) (hnext : s.nextId ≤ s'.nextId)
    (hnew : ∀ n, tx.newId = some n → n ∉ s'.tokens.map RecoveryToken.id)
    (htokens : ∀ r' ∈ s'.tokens, r'.id ∈ tx.snapshot → ∃ r ∈ s.tokens, r.id = r'.id ∧
      r.userId = r'.userId ∧ (r'.live s'.now = true → r.live s.now = true)) : TxInv s' tx where
  superseding userId readAt snapshot todo taken htx := by
    obtain ⟨hread, hsnapshot, hcovered⟩ := h.superseding userId readAt snapshot todo taken htx
    refine ⟨hread.trans hnow, fun n hn => (hsnapshot n hn).trans_le hnext, ?_⟩
    intro r' hr' huser hmem hlive
    obtain ⟨r, hr, hid, hsame, hkeep⟩ := htokens r' hr' (by rw [htx]; exact hmem)
    rw [← hid] at hmem ⊢
    exact hcovered r hr (hsame.trans huser) hmem (hkeep hlive)
  inserted readAt snapshot taken token htx := by
    obtain ⟨hid, -, hsnapshot, hcovered⟩ := h.inserted readAt snapshot taken token htx
    refine ⟨hid.trans_le hnext, hnew token.id (by rw [htx]; rfl),
      fun n hn => (hsnapshot n hn).trans_le hnext, ?_⟩
    intro r' hr' huser hmem hlive
    obtain ⟨r, hr, hid', hsame, hkeep⟩ := htokens r' hr' (by rw [htx]; exact hmem)
    rw [← hid'] at hmem ⊢
    exact hcovered r hr (hsame.trans huser) hmem (hkeep hlive)

lemma TxInv.not_mem (h : TxInv s tx) {n : ℕ} (hn : tx.newId = some n) :
    n ∉ s.tokens.map RecoveryToken.id := by
  cases htx : tx with
  | inserted readAt snapshot taken token =>
    rw [htx] at hn
    cases hn
    exact (h.inserted readAt snapshot taken token htx).2.1
  | idle => rw [htx] at hn; cases hn
  | superseding userId readAt snapshot todo taken => rw [htx] at hn; cases hn
  | found id => rw [htx] at hn; cases hn
  | claimed id usedAt => rw [htx] at hn; cases hn

lemma TxInv.newId_lt (h : TxInv s tx) {n : ℕ} (hn : tx.newId = some n) : n < s.nextId := by
  cases htx : tx with
  | inserted readAt snapshot taken token =>
    rw [htx] at hn
    cases hn
    exact (h.inserted readAt snapshot taken token htx).1
  | idle => rw [htx] at hn; cases hn
  | superseding userId readAt snapshot todo taken => rw [htx] at hn; cases hn
  | found id => rw [htx] at hn; cases hn
  | claimed id usedAt => rw [htx] at hn; cases hn

lemma TxInv.snapshot_lt (h : TxInv s tx) : ∀ n ∈ tx.snapshot, n < s.nextId := by
  cases htx : tx with
  | superseding userId readAt snapshot todo taken =>
    exact (h.superseding userId readAt snapshot todo taken htx).2.1
  | inserted readAt snapshot taken token =>
    exact (h.inserted readAt snapshot taken token htx).2.2.1
  | idle => exact fun n hn => absurd hn List.not_mem_nil
  | found id => exact fun n hn => absurd hn List.not_mem_nil
  | claimed id usedAt => exact fun n hn => absurd hn List.not_mem_nil

/-- Transactions that have neither a snapshot nor a new token. -/
lemma TxInv.of_plain (h : ∀ userId readAt snapshot todo taken,
      tx ≠ .superseding userId readAt snapshot todo taken)
    (h' : ∀ readAt snapshot taken token, tx ≠ .inserted readAt snapshot taken token) :
    TxInv s tx where
  superseding userId readAt snapshot todo taken htx :=
    absurd htx (h userId readAt snapshot todo taken)
  inserted readAt snapshot taken token htx := absurd htx (h' readAt snapshot taken token)

/-- The transactions after one of them has gone on. -/
lemma put_txs (s : RecoveryState) (i : ℕ) (tx : RecoveryTx) (j : ℕ) :
    (s.put i tx).txs j = if j = i then tx else s.txs j := by
  rw [RecoveryState.put]
  exact Function.update_apply s.txs i tx j

/-- A transaction that goes on without touching the table, its new token fresh and its snapshot
without the new tokens of others. -/
lemma SupersedeInv.put (h : SupersedeInv s) (htx : TxInv s tx)
    (hfresh : ∀ n, tx.newId = some n → ∀ j, j ≠ i →
      (s.txs j).newId ≠ some n ∧ n ∉ (s.txs j).snapshot)
    (hsnapshot : ∀ j n, j ≠ i → (s.txs j).newId = some n → n ∉ tx.snapshot) :
    SupersedeInv (s.put i tx) where
  nodup := h.nodup
  bound := h.bound
  tx j := by
    rw [put_txs]
    split
    · exact ⟨htx.superseding, htx.inserted⟩
    · exact ⟨(h.tx j).superseding, (h.tx j).inserted⟩
  newId j k n hjk hn := by
    rw [put_txs] at hn ⊢
    split at hn
    · rename_i hj
      rw [if_neg fun hk => hjk (hj.trans hk.symm)]
      exact hfresh n hn k fun hk => hjk (hj.trans hk.symm)
    · rename_i hj
      split
      · exact ⟨fun hn' => (hfresh n hn' j hj).1 hn, hsnapshot j n hj hn⟩
      · exact h.newId j k n hjk hn
  live := h.live

/-- A transaction that goes on with the snapshot and the new token it had, or without them. -/
lemma SupersedeInv.pass (h : SupersedeInv s) (htx : TxInv s tx)
    (hnew : tx.newId = (s.txs i).newId ∨ tx.newId = none)
    (hsnapshot : tx.snapshot = (s.txs i).snapshot ∨ tx.snapshot = []) :
    SupersedeInv (s.put i tx) := by
  refine h.put htx ?_ ?_
  · intro n hn j hji
    rcases hnew with hnew | hnew
    · exact h.newId i j n hji.symm (hnew ▸ hn)
    · rw [hnew] at hn
      cases hn
  · intro j n hji hn
    rcases hsnapshot with hsnapshot | hsnapshot
    · rw [hsnapshot]
      exact (h.newId j i n hji hn).2
    · rw [hsnapshot]
      exact List.not_mem_nil

/-- A transaction over, its table unchanged. -/
lemma SupersedeInv.idle (h : SupersedeInv s) (i : ℕ) : SupersedeInv (s.put i .idle) :=
  h.pass (TxInv.of_plain nofun nofun) (.inr rfl) (.inr rfl)

/-- A new id, handed to an open transaction. -/
lemma SupersedeInv.insert {userId : ℕ} {tokenHash : String} {supersededAt expiresAt : ℤ}
    {snapshot taken : List ℕ} (h : SupersedeInv s)
    (htx : s.txs i = .superseding userId supersededAt snapshot [] taken) :
    SupersedeInv { s.put i (.inserted supersededAt snapshot taken
        ⟨s.nextId, userId, tokenHash, expiresAt, none, none⟩) with nextId := s.nextId + 1 } := by
  obtain ⟨-, hsnapshot, hcovered⟩ :=
    (h.tx i).superseding userId supersededAt snapshot [] taken htx
  have hbump : SupersedeInv { s with nextId := s.nextId + 1 } :=
    ⟨h.nodup, fun r hr => (h.bound r hr).trans (Nat.lt_succ_self _),
      fun j => (h.tx j).mono le_rfl (Nat.le_succ _) (fun n hn => (h.tx j).not_mem hn)
        fun r hr _ => ⟨r, hr, rfl, rfl, fun hlive => hlive⟩, h.newId, h.live⟩
  refine hbump.put ⟨nofun, ?_⟩ ?_ ?_
  · rintro readAt' snapshot' taken' token' ⟨⟩
    refine ⟨Nat.lt_succ_self _, fun hmem => ?_,
      fun n hn => (hsnapshot n hn).trans (Nat.lt_succ_self _), fun r hr huser hmem hlive => ?_⟩
    · obtain ⟨r, hr, hid⟩ := List.mem_map.1 hmem
      exact (h.bound r hr).ne hid
    · exact (hcovered r hr huser hmem hlive).resolve_left List.not_mem_nil
  · rintro n ⟨⟩ j -
    exact ⟨fun hn => ((h.tx j).newId_lt hn).ne rfl,
      fun hn => ((h.tx j).snapshot_lt _ hn).ne rfl⟩
  · intro j n hji hn hmem
    exact (h.newId j i n hji hn).2 (by rw [htx]; exact hmem)

/-- An update that ends the life of tokens. -/
lemma SupersedeInv.update {f : RecoveryToken → RecoveryToken} (h : SupersedeInv s)
    (hf : Kills f) (ids : List ℕ) :
    SupersedeInv { s with tokens := updateTokens s.tokens ids f } where
  nodup := by
    rw [hf.ids]
    exact h.nodup
  bound r' hr' := by
    obtain ⟨r, hr, hid, -⟩ := hf.mem hr'
    rw [← hid]
    exact h.bound r hr
  tx j := by
    refine (h.tx j).mono le_rfl le_rfl (fun n hn => ?_) fun r' hr' _ => ?_
    · rw [hf.ids]
      exact (h.tx j).not_mem hn
    · obtain ⟨r, hr, hid, huser, hkeep⟩ := hf.mem hr'
      exact ⟨r, hr, hid, huser, fun hlive => (hkeep s.now hlive).1⟩
  newId := h.newId
  live r₁ h₁ r₂ h₂ huser hlive₁ hlive₂ := by
    obtain ⟨q₁, hq₁, hid₁, huser₁, hkeep₁⟩ := hf.mem h₁
    obtain ⟨q₂, hq₂, hid₂, huser₂, hkeep₂⟩ := hf.mem h₂
    rw [← hid₁, ← hid₂]
    exact h.live q₁ hq₁ q₂ hq₂ (by rw [huser₁, huser₂, huser]) (hkeep₁ s.now hlive₁).1
      (hkeep₂ s.now hlive₂).1

/-- The commit of a new token beside which no token of its user is live. -/
lemma SupersedeInv.issue {readAt : ℤ} {snapshot taken : List ℕ} {token : RecoveryToken}
    (h : SupersedeInv s) (htx : s.txs i = .inserted readAt snapshot taken token)
    (hdead : token.live s.now = true → ∀ r ∈ s.tokens, r.userId = token.userId →
      r.live s.now = false) :
    SupersedeInv { s.put i .idle with tokens := token :: s.tokens } := by
  have hid := (h.tx i).inserted readAt snapshot taken token htx
  have hnew : (s.txs i).newId = some token.id := by rw [htx]; rfl
  refine ⟨?_, ?_, ?_, ?_, ?_⟩
  · exact List.nodup_cons.2 ⟨hid.2.1, h.nodup⟩
  · intro r hr
    rcases List.mem_cons.1 hr with rfl | hr
    · exact hid.1
    · exact h.bound r hr
  · intro j
    change TxInv _ ((s.put i .idle).txs j)
    rw [put_txs]
    split
    · exact TxInv.of_plain nofun nofun
    · rename_i hji
      obtain hother := h.newId i j token.id (Ne.symm hji) hnew
      refine (h.tx j).mono le_rfl le_rfl (fun n hn hmem => ?_) fun r' hr' hsnap => ?_
      · rcases List.mem_cons.1 hmem with heq | hmem
        · exact hother.1 (heq ▸ hn)
        · exact (h.tx j).not_mem hn hmem
      · rcases List.mem_cons.1 hr' with rfl | hr'
        · exact absurd hsnap hother.2
        · exact ⟨r', hr', rfl, rfl, id⟩
  · exact (h.idle i).newId
  · intro r₁ h₁ r₂ h₂ huser hlive₁ hlive₂
    rcases List.mem_cons.1 h₁ with rfl | hold₁
    · rcases List.mem_cons.1 h₂ with rfl | hold₂
      · rfl
      · exact absurd hlive₂ (Bool.eq_false_iff.1 (hdead hlive₁ r₂ hold₂ huser.symm))
    · rcases List.mem_cons.1 h₂ with rfl | hold₂
      · exact absurd hlive₁ (Bool.eq_false_iff.1 (hdead hlive₂ r₁ hold₁ huser))
      · exact h.live r₁ hold₁ r₂ hold₂ huser hlive₁ hlive₂

/-- **One unraced step**: it keeps the invariant. -/
lemma SupersedeInv.step {a : RecoveryLabel} (h : SupersedeInv s) (hunraced : Unraced s a)
    (hstep : recoveryStep s a = some s') : SupersedeInv s' := by
  cases a with
  | tick t =>
    simp only [recoveryStep] at hstep
    split_ifs at hstep with hle
    cases hstep
    refine ⟨h.nodup, h.bound, fun j => ?_, h.newId, ?_⟩
    · exact (h.tx j).mono hle le_rfl (fun n hn => (h.tx j).not_mem hn)
        fun r hr _ => ⟨r, hr, rfl, rfl, RecoveryToken.live_anti hle⟩
    · intro r hr r' hr' huser hlive hlive'
      exact h.live r hr r' hr' huser (RecoveryToken.live_anti hle hlive)
        (RecoveryToken.live_anti hle hlive')
  | supersede i userId readAt =>
    simp only [recoveryStep] at hstep
    split_ifs at hstep with hopen
    cases hstep
    refine h.put ⟨?_, nofun⟩ nofun ?_
    · rintro userId' readAt' snapshot todo taken ⟨⟩
      refine ⟨hopen.2, ?_, ?_⟩
      · intro n hn
        obtain ⟨r, hr, rfl⟩ := List.mem_map.1 hn
        exact h.bound r hr
      · intro r hr huser _ hlive
        refine .inl (List.mem_map_of_mem (List.mem_filter.2 ⟨hr, ?_⟩))
        simpa using ⟨huser, RecoveryToken.live_anti hopen.2 hlive⟩
    · intro j n _ hn
      exact (h.tx j).not_mem hn
  | take i =>
    simp only [recoveryStep] at hstep
    split at hstep
    · rename_i userId readAt snapshot id todo taken htx
      obtain ⟨hread, hsnapshot, hcovered⟩ :=
        (h.tx i).superseding userId readAt snapshot (id :: todo) taken htx
      split at hstep
      · cases hstep
      split at hstep
      · cases hstep
        refine h.pass ⟨?_, nofun⟩ (.inr rfl) (.inl (by rw [htx]; rfl))
        rintro userId' readAt' snapshot' todo' taken' ⟨⟩
        refine ⟨hread, hsnapshot, fun r hr huser hmem hlive => ?_⟩
        rcases hcovered r hr huser hmem hlive with htodo | htaken
        · rcases List.mem_cons.1 htodo with heq | htodo
          · exact .inr (heq ▸ List.mem_cons_self)
          · exact .inl htodo
        · exact .inr (List.mem_cons_of_mem _ htaken)
      · -- the row no longer matches, so it is not live
        rename_i hany
        cases hstep
        refine h.pass ⟨?_, nofun⟩ (.inr rfl) (.inl (by rw [htx]; rfl))
        rintro userId' readAt' snapshot' todo' taken' ⟨⟩
        refine ⟨hread, hsnapshot, fun r hr huser hmem hlive => ?_⟩
        refine (hcovered r hr huser hmem hlive).imp_left fun htodo => ?_
        rcases List.mem_cons.1 htodo with heq | htodo
        · refine absurd (List.any_eq_true.2 ⟨r, hr, ?_⟩) hany
          simpa using ⟨heq, RecoveryToken.live_anti hread hlive⟩
        · exact htodo
    · cases hstep
  | insert i tokenHash readAt =>
    simp only [recoveryStep] at hstep
    split at hstep
    · rename_i userId supersededAt snapshot taken htx
      obtain ⟨hread, hsnapshot, hcovered⟩ :=
        (h.tx i).superseding userId supersededAt snapshot [] taken htx
      split_ifs at hstep
      cases hstep
      exact h.insert htx
    · cases hstep
  | lookup i tokenHash readAt =>
    simp only [recoveryStep] at hstep
    split_ifs at hstep
    split at hstep
    · cases hstep
      exact h
    · split at hstep
      · cases hstep
        exact h.pass (TxInv.of_plain nofun nofun) (.inr rfl) (.inr rfl)
      · cases hstep
        exact h
  | claim i readAt =>
    simp only [recoveryStep] at hstep
    split at hstep
    · split at hstep
      · cases hstep
      split at hstep
      · cases hstep
        exact h.pass (TxInv.of_plain nofun nofun) (.inr rfl) (.inr rfl)
      · cases hstep
        exact h.idle i
    · cases hstep
  | commit i =>
    simp only [recoveryStep] at hstep
    split at hstep
    · rename_i readAt snapshot taken token htx
      cases hstep
      have hcovered := ((h.tx i).inserted readAt snapshot taken token htx).2.2.2
      have hupdate := h.update (kills_supersede readAt) taken
      refine hupdate.issue (i := i) htx fun hlive r' hr' huser => ?_
      rw [Bool.eq_false_iff]
      intro hlive'
      obtain ⟨r, hr, -, huser', hkeep⟩ := (kills_supersede readAt).mem hr'
      obtain ⟨hliver, hfree⟩ := hkeep s.now hlive'
      by_cases hsnap : r.id ∈ snapshot
      · exact hfree (hcovered r hr (huser'.trans huser) hsnap hliver)
      · have hexpires : s.now < token.expiresAt := by
          simp only [RecoveryToken.live, Bool.and_eq_true, decide_eq_true_eq] at hlive
          exact hlive.2
        simp only [Unraced, htx] at hunraced
        rw [hunraced hexpires r hr (huser'.trans huser) hsnap] at hliver
        cases hliver
    · rename_i id usedAt htx
      cases hstep
      exact (h.update (kills_use usedAt) [id]).idle i
    · cases hstep
  | rollback i =>
    cases hstep
    exact h.idle i

lemma supersedeInv_init : SupersedeInv ⟨0, [], 0, fun _ => .idle, []⟩ where
  nodup := List.nodup_nil
  bound _ hr := by simp at hr
  tx _ := TxInv.of_plain nofun nofun
  newId _ _ _ _ hn := nomatch hn
  live _ hr := by simp at hr

lemma supersedeInv_of_reaches (h : recoverySystem.Reaches Unraced s) : SupersedeInv s :=
  Run.System.Reaches.invariant (P := SupersedeInv) supersedeInv_init
    (fun _ _ _ hinv hunraced hstep => hinv.step hunraced hstep) h

/-! ### The main result -/

/-- **At most one live link**: in runs whose requests commit their token beside no live token
committed since their snapshot, a user has at most one live recovery link in every state. -/
theorem live_atMostOne (s : RecoveryState) (h : recoverySystem.Reaches Unraced s) (userId : ℕ) :
    (s.liveLinks userId).length ≤ 1 := by
  have hinv := supersedeInv_of_reaches h
  have hlinks : ∀ r ∈ s.liveLinks userId, r ∈ s.tokens ∧ r.userId = userId ∧
      r.live s.now = true := fun r hr => by
    simpa [RecoveryState.liveLinks] using hr
  have hnodup : ((s.liveLinks userId).map RecoveryToken.id).Nodup :=
    hinv.nodup.sublist (List.filter_sublist.map RecoveryToken.id)
  cases hlist : s.liveLinks userId with
  | nil => exact Nat.zero_le 1
  | cons r rest =>
    cases rest with
    | nil => exact le_rfl
    | cons r' rest =>
      rw [hlist] at hlinks hnodup
      obtain ⟨hr, huser, hlive⟩ := hlinks r (by simp)
      obtain ⟨hr', huser', hlive'⟩ := hlinks r' (by simp)
      have hid := hinv.live r hr r' hr' (huser.trans huser'.symm) hlive hlive'
      simp [hid] at hnodup

/-- Two requests of user `7` that overlap. -/
def overlappingRequests : List RecoveryLabel :=
  [.supersede 0 7 0, .supersede 1 7 0, .insert 0 "a" 0, .insert 1 "b" 0, .commit 0, .commit 1]

theorem two_live_links : ∃ s, recoverySystem.Reaches (fun _ _ => True) s ∧
    ¬ (s.liveLinks 7).length ≤ 1 := by
  obtain ⟨s, hexec, htwo⟩ := recoverySystem.exists_of_exec (fun _ _ => True)
    recoverySystem.init overlappingRequests (fun s => ¬ (s.liveLinks 7).length ≤ 1)
    (by decide +kernel)
  exact ⟨s, Run.System.steps_of_exec hexec, htwo⟩

/-- Two requests one after the other, and the redemption of the link in between. -/
def successiveRequests : List RecoveryLabel :=
  [.supersede 0 7 0, .insert 0 "a" 0, .commit 0, .lookup 1 "a" 0, .supersede 2 7 0, .take 2,
    .insert 2 "b" 0, .commit 2, .claim 1 0]

theorem live_atMostOne_successive : ∃ s, recoverySystem.Reaches Unraced s ∧
    s.tokens.length = 2 ∧ (s.liveLinks 7).length ≤ 1 := by
  obtain ⟨s, hexec, hlength⟩ := recoverySystem.exists_of_exec Unraced recoverySystem.init
    successiveRequests (fun s => s.tokens.length = 2) (by decide +kernel)
  have hreach := Run.System.steps_of_exec hexec
  exact ⟨s, hreach, hlength, live_atMostOne s hreach 7⟩

end Recovery
