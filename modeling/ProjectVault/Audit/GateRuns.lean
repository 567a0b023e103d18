import ProjectVault.Audit.QuotaGate
import ProjectVault.Run.System

/-!
Transactions that write audit rows, each behind the two gates (`audit/quota-gate.ts`).
-/

namespace ProjectVault.Audit

variable {e e' : Enforced} {call : GateCall} {g : GateSettings} {now windowMs : ℕ}

/-! ### Admitted writes -/

/-- The settings of the environment, whose schema makes the window positive. -/
structure GateEnv where
  quotaEnforcementEnabled : Bool
  defaultStorageQuotaMb : ℕ
  writeRateEnforcementEnabled : Bool
  defaultWriteRatePerMin : ℕ
  writeRateWindowMs : ℕ
  windowMs_pos : 0 < writeRateWindowMs

/-- The settings a gate reads beside a configuration row. -/
def GateEnv.settings (env : GateEnv) (config : Option QuotaConfig) : GateSettings where
  quotaEnforcementEnabled := env.quotaEnforcementEnabled
  defaultStorageQuotaMb := env.defaultStorageQuotaMb
  writeRateEnforcementEnabled := env.writeRateEnforcementEnabled
  defaultWriteRatePerMin := env.defaultWriteRatePerMin
  writeRateWindowMs := env.writeRateWindowMs
  config := config

/-- The limit on the writes of a window; none while the rate gate is switched off. -/
def GateEnv.rateLimit (env : GateEnv) (config : Option QuotaConfig) : Option ℕ :=
  if env.writeRateEnforcementEnabled then (env.settings config).limitPerWindow else none

/-- The limit on the counted bytes; none while the storage gate is switched off. -/
def GateEnv.byteLimit (env : GateEnv) (config : Option QuotaConfig) : Option ℕ :=
  if env.quotaEnforcementEnabled then (env.settings config).quota else none

/-- A write outside every exemption class. -/
def GateCall.limited (call : GateCall) : Bool :=
  classifyAuditWriteExemption call.eventType = none

/-- A write both gates admitted: the start of its transaction, the configuration its statements
read, and the end of the rate window it found or opened. -/
structure GateWrite where
  now : ℕ
  config : Option QuotaConfig
  call : GateCall
  window : Option ℕ

/-- The bytes a write adds to `bytes_used`. -/
def GateWrite.countedBytes (x : GateWrite) : ℕ :=
  if isPreauth x.call.eventType then 0 else x.call.sizeBytes

/-- The bytes the writes added to `bytes_used`. -/
def countedBytes (writes : List GateWrite) : ℕ := (writes.map GateWrite.countedBytes).sum

/-- The writes of a window that are not exempt. -/
def limitedIn (window : Option ℕ) (writes : List GateWrite) : ℕ :=
  writes.countP fun x => x.call.limited && x.window = window

/-- The usage row after the gates of a write. -/
def GateWrite.charge (env : GateEnv) (x : GateWrite) (row : Option UsageRow) : Option UsageRow :=
  match assertOrgMayWriteAuditGates (env.settings x.config) x.now row x.call with
  | .error _ => row
  | .ok row' => row'

/-- The gates admitted the writes (newest first) one after the other, from `row₀` to the row. -/
inductive Admits (env : GateEnv) (row₀ : Option UsageRow) :
    List GateWrite → Option UsageRow → Prop
  | nil : Admits env row₀ [] row₀
  | cons {writes row row'} (now : ℕ) (config : Option QuotaConfig) (call : GateCall)
      (older : Admits env row₀ writes row)
      (h : assertOrgMayWriteAuditGates (env.settings config) now row call = .ok row') :
      Admits env row₀ (⟨now, config, call, (enforced row').rateWindowResetAt⟩ :: writes) row'

/-! ### Transactions -/

/-- The transaction that holds the lock on the usage row: its own view of the row, the writes
admitted as it would commit them, and whether a gate has thrown. -/
structure GateHolder where
  now : ℕ
  row : Option UsageRow
  writes : List GateWrite
  refused : Bool

/-- The committed row, the committed writes (newest first) and the holder of the lock. -/
structure GateWorld where
  row : Option UsageRow
  writes : List GateWrite
  holder : Option GateHolder

/-- What a transaction does at the gates. -/
inductive GateAct where
  | locks (now : ℕ)
  | writes (config : Option QuotaConfig) (call : GateCall)
  | commits
  | rollsBack

/-- Both gates, on the holder's view of the row. A gate that refuses throws out of the transaction. -/
def GateHolder.write (env : GateEnv) (t : GateHolder) (config : Option QuotaConfig)
    (call : GateCall) : GateHolder :=
  match assertOrgMayWriteAuditGates (env.settings config) t.now t.row call with
  | .error _ => { t with refused := true }
  | .ok row' =>
    { t with
      row := row',
      writes := ⟨t.now, config, call, (enforced row').rateWindowResetAt⟩ :: t.writes }

/-- One step; what a refused transaction has left is to roll back. -/
def GateWorld.step (env : GateEnv) (w : GateWorld) : GateAct → Option GateWorld
  | .locks now =>
    match w.holder with
    | none => some { w with holder := some ⟨now, w.row, w.writes, false⟩ }
    | some _ => none
  | .writes config call =>
    match w.holder with
    | none => none
    | some t => if t.refused then none else some { w with holder := t.write env config call }
  | .commits =>
    match w.holder with
    | none => none
    | some t => if t.refused then none else some ⟨t.row, t.writes, none⟩
  | .rollsBack =>
    match w.holder with
    | none => none
    | some _ => some { w with holder := none }

/-- The transactions of an organization whose usage row is `row₀`. -/
def gateSystem (env : GateEnv) (row₀ : Option UsageRow) : Run.System GateWorld GateAct where
  init := ⟨row₀, [], none⟩
  step := GateWorld.step env

/-! ### What one admission does -/

lemma GateCall.limited_spec (h : call.limited = true) :
    isExempt call.eventType = false ∧ isPreauth call.eventType = false := by
  have hnone : classifyAuditWriteExemption call.eventType = none := by
    simpa [GateCall.limited] using h
  simp [isExempt, isPreauth, hnone]

/-- A write that is not attributed to the pre-auth counters passed the gates. -/
structure Enforced.Charged (g : GateSettings) (now : ℕ) (call : GateCall) (e e' : Enforced) :
    Prop where
  rate : g.writeRateEnforcementEnabled = true →
    (call.limited = true →
      withinLimit (nextWindowCount now e.rateWindowCount e.rateWindowResetAt)
        g.limitPerWindow = true) ∧
    e'.rateWindowCount = nextWindowCount now e.rateWindowCount e.rateWindowResetAt ∧
    e'.rateWindowResetAt = nextWindowReset now g.writeRateWindowMs e.rateWindowResetAt
  rateOff : g.writeRateEnforcementEnabled = false →
    e'.rateWindowCount = e.rateWindowCount ∧ e'.rateWindowResetAt = e.rateWindowResetAt
  bytes : g.quotaEnforcementEnabled = true →
    (call.limited = true → withinLimit (e.bytesUsed + call.sizeBytes) g.quota = true) ∧
    e'.bytesUsed = e.bytesUsed + call.sizeBytes

lemma Enforced.rateGate_some {exempt : Bool} (h : e.rateGate g now exempt = some e') :
    (exempt = false → withinLimit (nextWindowCount now e.rateWindowCount e.rateWindowResetAt)
      g.limitPerWindow = true) ∧
    e' = { e with
      rateWindowCount := nextWindowCount now e.rateWindowCount e.rateWindowResetAt,
      rateWindowResetAt := nextWindowReset now g.writeRateWindowMs e.rateWindowResetAt } := by
  unfold Enforced.rateGate at h
  split_ifs at h with hwithin
  refine ⟨fun hexempt => ?_, (Option.some.inj h).symm⟩
  simpa [hexempt] using hwithin

lemma Enforced.storageGate_some {sizeBytes : ℕ} {exempt : Bool}
    (h : e.storageGate g sizeBytes exempt = some e') :
    (exempt = false → withinLimit (e.bytesUsed + sizeBytes) g.quota = true) ∧
    e' = { e with bytesUsed := e.bytesUsed + sizeBytes } := by
  unfold Enforced.storageGate at h
  split_ifs at h with hwithin
  refine ⟨fun hexempt => ?_, (Option.some.inj h).symm⟩
  simpa [hexempt] using hwithin

/-- The rate gate leaves the bytes alone and counts in the window. -/
lemma Enforced.mayWriteAtRate_ok (hpre : isPreauth call.eventType = false)
    (h : e.mayWriteAtRate g now call = .ok e') :
    e'.bytesUsed = e.bytesUsed ∧
    (g.writeRateEnforcementEnabled = true → e.rateGate g now (isExempt call.eventType) = some e') ∧
    (g.writeRateEnforcementEnabled = false → e' = e) := by
  unfold Enforced.mayWriteAtRate at h
  rw [hpre] at h
  cases hon : g.writeRateEnforcementEnabled with
  | false =>
    have he : e = e' := by simpa [hon] using h
    exact ⟨by rw [he], nofun, fun _ => he.symm⟩
  | true =>
    cases hgate : e.rateGate g now (isExempt call.eventType) with
    | none => simp [hon, hgate] at h
    | some e₁ =>
      obtain rfl : e₁ = e' := by simpa [hon, hgate] using h
      refine ⟨?_, fun _ => rfl, nofun⟩
      rw [(Enforced.rateGate_some hgate).2]

/-- The storage gate leaves the window alone and adds the bytes. -/
lemma Enforced.mayWrite_ok (hpre : isPreauth call.eventType = false)
    (h : e.mayWrite g call = .ok e') :
    e'.rateWindowCount = e.rateWindowCount ∧ e'.rateWindowResetAt = e.rateWindowResetAt ∧
    (g.quotaEnforcementEnabled = true →
      e.storageGate g call.sizeBytes (isExempt call.eventType) = some e') := by
  unfold Enforced.mayWrite at h
  rw [hpre] at h
  cases hon : g.quotaEnforcementEnabled with
  | false =>
    have he : e = e' := by simpa [hon] using h
    exact ⟨by rw [he], by rw [he], nofun⟩
  | true =>
    cases hgate : e.storageGate g call.sizeBytes (isExempt call.eventType) with
    | none => simp [hon, hgate] at h
    | some e₁ =>
      obtain rfl : e₁ = e' := by simpa [hon, hgate] using h
      rw [(Enforced.storageGate_some hgate).2]
      exact ⟨rfl, rfl, fun _ => rfl⟩

/-- What the gates check and count of a write they admit. -/
lemma Enforced.gates_ok (hpre : isPreauth call.eventType = false) (h : e.gates g now call = .ok e')
    :
    e.Charged g now call e' := by
  unfold Enforced.gates at h
  cases hrate : e.mayWriteAtRate g now call with
  | error err => simp [hrate, bind, Except.bind] at h
  | ok e₁ =>
    simp only [hrate, bind, Except.bind] at h
    obtain ⟨hbytes, hon, hoff⟩ := Enforced.mayWriteAtRate_ok hpre hrate
    obtain ⟨hcount, hreset, hstorage⟩ := Enforced.mayWrite_ok hpre h
    refine ⟨fun henabled => ?_, fun hdisabled => ?_, fun henabled => ?_⟩
    · obtain ⟨hwithin, heq⟩ := Enforced.rateGate_some (hon henabled)
      refine ⟨fun hlimited => hwithin (GateCall.limited_spec hlimited).1, ?_, ?_⟩
      · rw [hcount, heq]
      · rw [hreset, heq]
    · rw [hcount, hreset, hoff hdisabled]
      exact ⟨rfl, rfl⟩
    · obtain ⟨hwithin, heq⟩ := Enforced.storageGate_some (hstorage henabled)
      rw [hbytes] at hwithin
      refine ⟨fun hlimited => hwithin (GateCall.limited_spec hlimited).1, ?_⟩
      rw [heq]
      exact congrArg (· + call.sizeBytes) hbytes

lemma enforced_gates_ok {row row' : Option UsageRow}
    (h : assertOrgMayWriteAuditGates g now row call = .ok row') :
    (enforced row).gates g now call = .ok (enforced row') := by
  rw [← enforced_assertOrgMayWriteAuditGates, h]
  rfl

/-! ### Rate windows -/

/-- The window that ends at the second time is the one that ends at the first, or starts after
its end. -/
def WindowFollows (windowMs : ℕ) (older newer : Option ℕ) : Prop :=
  ∃ r r', older = some r ∧ newer = some r' ∧ (r = r' ∨ r + windowMs ≤ r')

lemma WindowFollows.refl {window : Option ℕ} (h : window.isSome = true) :
    WindowFollows windowMs window window := by
  obtain ⟨r, hr⟩ := Option.isSome_iff_exists.1 h
  exact ⟨r, r, hr, hr, Or.inl rfl⟩

lemma WindowFollows.trans {a b c : Option ℕ} (hab : WindowFollows windowMs a b)
    (hbc : WindowFollows windowMs b c) : WindowFollows windowMs a c := by
  obtain ⟨r, s, ha, hb, hrs⟩ := hab
  obtain ⟨s', t, hb', hc, hst⟩ := hbc
  obtain rfl : s = s' := Option.some.inj (hb.symm.trans hb')
  exact ⟨r, t, ha, hc, by omega⟩

lemma nextWindowReset_isSome (now windowMs : ℕ) (resetAt : Option ℕ) :
    (nextWindowReset now windowMs resetAt).isSome = true := by
  cases resetAt with
  | none => rfl
  | some r =>
    unfold nextWindowReset
    split_ifs <;> rfl

lemma follows_nextWindowReset {r : ℕ} :
    WindowFollows windowMs (some r) (nextWindowReset now windowMs (some r)) := by
  unfold nextWindowReset
  split_ifs with hover
  · have hle : r ≤ now := by simpa [windowOver] using hover
    exact ⟨r, now + windowMs, rfl, rfl, Or.inr (by omega)⟩
  · exact WindowFollows.refl rfl

lemma WindowFollows.nextWindowReset {a resetAt : Option ℕ} (h : WindowFollows windowMs a resetAt) :
    WindowFollows windowMs a (nextWindowReset now windowMs resetAt) := by
  obtain ⟨r, s, -, hs, -⟩ := id h
  rw [hs] at h ⊢
  exact h.trans follows_nextWindowReset

/-- While the rate gate is on: the window of the row follows every window a limited write was
counted in, and counts the limited writes it holds. -/
structure WindowInv (env : GateEnv) (writes : List GateWrite) (e : Enforced) : Prop where
  follows : ∀ x ∈ writes, x.call.limited = true →
    WindowFollows env.writeRateWindowMs x.window e.rateWindowResetAt
  count_le : limitedIn e.rateWindowResetAt writes ≤ e.rateWindowCount

lemma limitedIn_cons (window : Option ℕ) (x : GateWrite) (writes : List GateWrite) :
    limitedIn window (x :: writes) =
      limitedIn window writes + if x.call.limited && x.window = window then 1 else 0 := by
  simp only [limitedIn, List.countP_cons]

/-- A window that opens holds no write yet. -/
lemma WindowInv.limitedIn_new {env : GateEnv} {writes : List GateWrite} (h : WindowInv env writes e)
    (hover : windowOver now e.rateWindowResetAt = true) :
    limitedIn (some (now + env.writeRateWindowMs)) writes = 0 := by
  refine List.countP_eq_zero.2 fun x hx hcounted => ?_
  obtain ⟨hlimited, hwindow⟩ := Bool.and_eq_true_iff.1 hcounted
  obtain ⟨r, r', hr, hr', hle⟩ := h.follows x hx hlimited
  have hnew : r = now + env.writeRateWindowMs := by
    rw [hr] at hwindow
    exact Option.some.inj (of_decide_eq_true hwindow)
  have hend : r' ≤ now := by simpa [hr', windowOver] using hover
  have hpos := env.windowMs_pos
  omega

/-- **One charge** keeps the windows. -/
lemma WindowInv.charged {env : GateEnv} {writes : List GateWrite} {config : Option QuotaConfig}
    (h : WindowInv env writes e) (hon : env.writeRateEnforcementEnabled = true)
    (hcharged : e.Charged (env.settings config) now call e') :
    WindowInv env (⟨now, config, call, e'.rateWindowResetAt⟩ :: writes) e' := by
  obtain ⟨-, hcount, hreset⟩ := hcharged.rate hon
  change e'.rateWindowResetAt = nextWindowReset now env.writeRateWindowMs _ at hreset
  constructor
  · intro x hx hlimited
    rcases List.mem_cons.1 hx with rfl | hold
    · refine WindowFollows.refl ?_
      rw [hreset]
      exact nextWindowReset_isSome now env.writeRateWindowMs e.rateWindowResetAt
    · rw [hreset]
      exact (h.follows x hold hlimited).nextWindowReset
  · have hstep : limitedIn e'.rateWindowResetAt writes + 1 ≤ e'.rateWindowCount := by
      rw [hcount, hreset]
      unfold nextWindowCount nextWindowReset
      split_ifs with hover
      · rw [h.limitedIn_new hover]
      · exact Nat.succ_le_succ h.count_le
    rw [limitedIn_cons]
    split_ifs <;> omega

/-- A write of a pre-auth type leaves the windows as they are. -/
lemma WindowInv.preauth {env : GateEnv} {writes : List GateWrite} {x : GateWrite}
    (h : WindowInv env writes e) (hx : x.call.limited = false) : WindowInv env (x :: writes) e := by
  constructor
  · intro y hy hlimited
    rcases List.mem_cons.1 hy with rfl | hold
    · rw [hx] at hlimited
      exact absurd hlimited Bool.false_ne_true
    · exact h.follows y hold hlimited
  · rw [limitedIn_cons, hx]
    exact h.count_le

lemma GateCall.not_limited_of_isPreauth (h : isPreauth call.eventType = true) :
    call.limited = false := by
  cases hlimited : call.limited with
  | false => rfl
  | true => simp [(GateCall.limited_spec hlimited).2] at h

/-! ### The writes and the row they leave -/

section Admits

variable {env : GateEnv} {row₀ row row' : Option UsageRow} {writes older : List GateWrite}
  {x : GateWrite}

/-- The writes before an admitted write were admitted too. -/
lemma Admits.suffix (h : Admits env row₀ writes row) (hsuffix : older <:+ writes) :
    ∃ row', Admits env row₀ older row' := by
  induction h with
  | nil =>
    obtain rfl := List.suffix_nil.1 hsuffix
    exact ⟨row₀, .nil⟩
  | cons now config call hadmits hgates ih =>
    rcases List.suffix_cons_iff.1 hsuffix with rfl | hsuffix
    · exact ⟨_, hadmits.cons now config call hgates⟩
    · exact ih hsuffix

/-- The row is what the writes alone make of the first one. -/
lemma Admits.eq_foldr (h : Admits env row₀ writes row) :
    row = writes.foldr (GateWrite.charge env) row₀ := by
  induction h with
  | nil => rfl
  | cons now config call hadmits hgates ih =>
    rw [List.foldr_cons, ← ih, GateWrite.charge, hgates]

lemma Admits.windowInv (h : Admits env row₀ writes row)
    (hon : env.writeRateEnforcementEnabled = true) : WindowInv env writes (enforced row) := by
  induction h with
  | nil => exact ⟨nofun, Nat.zero_le _⟩
  | cons now config call hadmits hgates ih =>
    have hstep := enforced_gates_ok hgates
    cases hpre : isPreauth call.eventType with
    | true =>
      rw [Enforced.gates_preauth _ _ _ hpre] at hstep
      rw [← Except.ok.inj hstep]
      exact ih.preauth (GateCall.not_limited_of_isPreauth hpre)
    | false => exact ih.charged hon (Enforced.gates_ok hpre hstep)

lemma Admits.bytesUsed (h : Admits env row₀ writes row)
    (hon : env.quotaEnforcementEnabled = true) :
    (enforced row).bytesUsed = (enforced row₀).bytesUsed + countedBytes writes := by
  induction h with
  | nil => rfl
  | cons now config call hadmits hgates ih =>
    have hstep := enforced_gates_ok hgates
    simp only [countedBytes, List.map_cons, List.sum_cons, GateWrite.countedBytes] at ih ⊢
    cases hpre : isPreauth call.eventType with
    | true =>
      rw [Enforced.gates_preauth _ _ _ hpre] at hstep
      rw [← Except.ok.inj hstep, ih]
      simp
    | false =>
      rw [((Enforced.gates_ok hpre hstep).bytes hon).2, ih]
      simp only [Bool.false_eq_true, if_false]
      omega

/-- A limited write is admitted within the limit of its window. -/
lemma Admits.rate (h : Admits env row₀ (x :: older) row) (hlimited : x.call.limited = true) :
    withinLimit (limitedIn x.window (x :: older)) (env.rateLimit x.config) = true := by
  unfold GateEnv.rateLimit
  split_ifs with hon
  · have hinv := h.windowInv hon
    cases h with
    | cons now config call hadmits hgates =>
      have hcharged := Enforced.gates_ok (GateCall.limited_spec hlimited).2
        (enforced_gates_ok hgates)
      obtain ⟨hwithin, hcount, -⟩ := hcharged.rate hon
      refine withinLimit_mono ?_ (hwithin hlimited)
      rw [← hcount]
      exact hinv.count_le
  · rfl

/-- A limited write is admitted within the quota. -/
lemma Admits.quota (h : Admits env row₀ (x :: older) row) (hlimited : x.call.limited = true) :
    withinLimit ((enforced row₀).bytesUsed + countedBytes (x :: older))
      (env.byteLimit x.config) = true := by
  unfold GateEnv.byteLimit
  split_ifs with hon
  · have hbytes := h.bytesUsed hon
    cases h with
    | cons now config call hadmits hgates =>
      have hcharged := Enforced.gates_ok (GateCall.limited_spec hlimited).2
        (enforced_gates_ok hgates)
      obtain ⟨hwithin, hadd⟩ := hcharged.bytes hon
      rw [← hbytes, hadd]
      exact hwithin hlimited
  · rfl

lemma Admits.windows (h : Admits env row₀ writes row)
    (hon : env.writeRateEnforcementEnabled = true) :
    (writes.filter (·.call.limited)).Pairwise fun newer older =>
      WindowFollows env.writeRateWindowMs older.window newer.window := by
  induction h with
  | nil => exact List.Pairwise.nil
  | cons now config call hadmits hgates ih =>
    have hinv := (hadmits.cons now config call hgates).windowInv hon
    rw [List.filter_cons]
    split_ifs with hlimited
    · refine List.pairwise_cons.2 ⟨fun y hy => ?_, ih⟩
      obtain ⟨hmem, hy⟩ := List.mem_filter.1 hy
      exact hinv.follows y (List.mem_cons_of_mem _ hmem) hy
    · exact ih

/-- A window whose writes were all made under one limit holds at most so many of them. -/
lemma Admits.perWindow (h : Admits env row₀ writes row) {window : Option ℕ} {limit : ℕ}
    (hlimit : ∀ y ∈ writes, y.call.limited = true → y.window = window →
      env.rateLimit y.config = some limit) : limitedIn window writes ≤ limit := by
  induction h with
  | nil => exact Nat.zero_le _
  | cons now config call hadmits hgates ih =>
    have hcons := hadmits.cons now config call hgates
    rw [List.forall_mem_cons] at hlimit
    rw [limitedIn_cons]
    split_ifs with hnew
    · -- the newest limited write of the window carries the bound
      obtain ⟨hlimited, hwindow⟩ := Bool.and_eq_true_iff.1 hnew
      have heq := of_decide_eq_true hwindow
      have hrate := hcons.rate hlimited
      rw [hlimit.1 hlimited heq, heq, limitedIn_cons, if_pos hnew] at hrate
      exact of_decide_eq_true hrate
    · exact ih hlimit.2

end Admits

/-! ### Runs -/

/-- Writes (newest first) the gates admitted, and the row they leave. -/
structure Metered (env : GateEnv) (row₀ : Option UsageRow) (writes : List GateWrite)
    (row : Option UsageRow) : Prop where
  /-- A window whose writes were made under one limit holds at most so many. -/
  perWindow : ∀ window limit,
    (∀ y ∈ writes, y.call.limited = true → y.window = window →
      env.rateLimit y.config = some limit) → limitedIn window writes ≤ limit
  /-- Under limits that change, each write respects the limit it found. -/
  rate : ∀ x older, (x :: older) <:+ writes → x.call.limited = true →
    withinLimit (limitedIn x.window (x :: older)) (env.rateLimit x.config) = true
  windows : env.writeRateEnforcementEnabled = true →
    (writes.filter (·.call.limited)).Pairwise fun newer older =>
      WindowFollows env.writeRateWindowMs older.window newer.window
  quota : ∀ x older, (x :: older) <:+ writes → x.call.limited = true →
    withinLimit ((enforced row₀).bytesUsed + countedBytes (x :: older))
      (env.byteLimit x.config) = true
  /-- No refused and no rolled-back write has touched a counter. -/
  counters : row = writes.foldr (GateWrite.charge env) row₀

lemma Admits.metered {env : GateEnv} {row₀ row : Option UsageRow} {writes : List GateWrite}
    (h : Admits env row₀ writes row) : Metered env row₀ writes row where
  perWindow _ _ hlimit := h.perWindow hlimit
  rate x older hsuffix hlimited := by
    obtain ⟨_, hadmits⟩ := h.suffix hsuffix
    exact hadmits.rate hlimited
  windows hon := h.windows hon
  quota x older hsuffix hlimited := by
    obtain ⟨_, hadmits⟩ := h.suffix hsuffix
    exact hadmits.quota hlimited
  counters := h.eq_foldr

/-- The committed writes, and those of the holder of the lock, were admitted one after the
other. -/
structure GateWorld.Inv (env : GateEnv) (row₀ : Option UsageRow) (w : GateWorld) : Prop where
  committed : Admits env row₀ w.writes w.row
  holder : ∀ t, w.holder = some t → w.writes <:+ t.writes ∧ Admits env row₀ t.writes t.row

/-- The gates admit one more write of the holder, or refuse it and leave its view alone. -/
lemma GateHolder.admits_write {env : GateEnv} {row₀ : Option UsageRow} {t : GateHolder}
    (h : Admits env row₀ t.writes t.row) (config : Option QuotaConfig) (call : GateCall) :
    t.writes <:+ (t.write env config call).writes ∧
      Admits env row₀ (t.write env config call).writes (t.write env config call).row := by
  unfold GateHolder.write
  cases hgates : assertOrgMayWriteAuditGates (env.settings config) t.now t.row call with
  | error err => exact ⟨List.suffix_rfl, h⟩
  | ok row' => exact ⟨List.suffix_cons _ _, h.cons t.now config call hgates⟩

/-- **One step** keeps the invariant. -/
lemma GateWorld.Inv.step {env : GateEnv} {row₀ : Option UsageRow} {w w' : GateWorld} {a : GateAct}
    (h : w.Inv env row₀) (hstep : w.step env a = some w') : w'.Inv env row₀ := by
  cases a with
  | locks now =>
    cases hholder : w.holder with
    | some t => simp [GateWorld.step, hholder] at hstep
    | none =>
      simp only [GateWorld.step, hholder, Option.some.injEq] at hstep
      subst hstep
      refine ⟨h.committed, fun t ht => ?_⟩
      cases ht
      exact ⟨List.suffix_rfl, h.committed⟩
  | writes config call =>
    cases hholder : w.holder with
    | none => simp [GateWorld.step, hholder] at hstep
    | some t =>
      simp only [GateWorld.step, hholder] at hstep
      split_ifs at hstep with hrefused
      cases hstep
      obtain ⟨hsuffix, hadmits⟩ := h.holder t hholder
      obtain ⟨hmore, hnew⟩ := GateHolder.admits_write hadmits config call
      refine ⟨h.committed, fun t' ht' => ?_⟩
      cases ht'
      exact ⟨hsuffix.trans hmore, hnew⟩
  | commits =>
    cases hholder : w.holder with
    | none => simp [GateWorld.step, hholder] at hstep
    | some t =>
      simp only [GateWorld.step, hholder] at hstep
      split_ifs at hstep with hrefused
      cases hstep
      exact ⟨(h.holder t hholder).2, nofun⟩
  | rollsBack =>
    cases hholder : w.holder with
    | none => simp [GateWorld.step, hholder] at hstep
    | some t =>
      simp only [GateWorld.step, hholder, Option.some.injEq] at hstep
      subst hstep
      exact ⟨h.committed, nofun⟩

/-- **The gates meter every run.** Whatever the settings and the first row, whatever transactions
write, are refused or roll back, in every state the committed writes respect the limits and the
row counts them and nothing else; so do those of the transaction under way. -/
theorem gates_metered (env : GateEnv) (row₀ : Option UsageRow) (w : GateWorld)
    (h : (gateSystem env row₀).Reaches (fun _ _ => True) w) :
    Metered env row₀ w.writes w.row ∧
      ∀ t, w.holder = some t → w.writes <:+ t.writes ∧ Metered env row₀ t.writes t.row := by
  have hinv : w.Inv env row₀ := by
    refine Run.System.Reaches.invariant (P := GateWorld.Inv env row₀) ?_ ?_ h
    · exact ⟨.nil, fun t ht => by simp [gateSystem] at ht⟩
    · exact fun s a s' hs _ hstep => hs.step hstep
  refine ⟨hinv.committed.metered, fun t ht => ?_⟩
  obtain ⟨hsuffix, hadmits⟩ := hinv.holder t ht
  exact ⟨hsuffix, hadmits.metered⟩

/-- One write a minute, 300 bytes. -/
def sampleGateEnv : GateEnv where
  quotaEnforcementEnabled := true
  defaultStorageQuotaMb := 0
  writeRateEnforcementEnabled := true
  defaultWriteRatePerMin := 1
  writeRateWindowMs := 60
  windowMs_pos := by decide

/-- A write that is rolled back, one in its place, one the rate gate refuses, a security-critical
one in the same window, and one the storage gate refuses after the rate gate has counted it. -/
theorem gates_metered_refusals :
    ∃ w, (gateSystem sampleGateEnv none).Reaches (fun _ _ => True) w ∧
      w.writes.map (fun x => (x.call.sizeBytes, x.window)) = [(250, some 65), (40, some 65)] ∧
      Metered sampleGateEnv none w.writes w.row := by
  obtain ⟨w, hexec, hwrites⟩ := Run.System.exists_of_exec (gateSystem sampleGateEnv none)
    (fun _ _ => True) (gateSystem sampleGateEnv none).init
    [.locks 0, .writes (some ⟨some 300, none⟩) ⟨"credential.created", 90⟩, .rollsBack,
     .locks 5, .writes (some ⟨some 300, none⟩) ⟨"credential.created", 40⟩, .commits,
     .locks 3, .writes (some ⟨some 300, none⟩) ⟨"credential.created", 20⟩, .rollsBack,
     .locks 9, .writes (some ⟨some 300, none⟩) ⟨"SESSION_CREATED", 250⟩, .commits,
     .locks 70, .writes (some ⟨some 300, none⟩) ⟨"credential.created", 20⟩, .rollsBack]
    (fun w => w.writes.map (fun x => (x.call.sizeBytes, x.window)) =
      [(250, some 65), (40, some 65)]) (by decide)
  have hreach := Run.System.steps_of_exec hexec
  exact ⟨w, hreach, hwrites, (gates_metered sampleGateEnv none w hreach).1⟩

end ProjectVault.Audit
