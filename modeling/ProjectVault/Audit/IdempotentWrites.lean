import ProjectVault.Audit.ExtensionWrites

/-!
What the keyed audit writes of an extension leave behind (`lib/audit-event-source.ts`,
`audit/extension-idempotency.ts`).
-/

namespace ProjectVault.Audit

open Js Db

/-! ### The invariant -/

/-- What the committed rows say about a call. -/
structure CallOk (env : WriterEnv) (db : ExtensionDb) (seq i : ℕ) (c : KeyedCall) : Prop where
  pending : ∀ row, c.phase.pending = some row →
    row.writer = some i ∧ row.id < seq ∧ ∀ r ∈ db.log, r.id ≠ row.id
  keyed : c.phase.isKeyed = true → ∀ k ∈ db.keys, k.idempotencyKey ≠ c.key
  receipt : ∀ receipt, c.phase.receipt = some receipt →
    ∃ k ∈ db.keys, k.idempotencyKey = c.key ∧ ∃ r ∈ db.log,
      r.id = k.auditEntryId ∧ receipt.id = r.id ∧ receipt.createdAt = r.entry.createdAt
  conflict : c.phase.isConflict = true →
    ∃ k ∈ db.keys, k.idempotencyKey = c.key ∧ k.contentFingerprint ≠ c.fingerprint env
  retried : c.retried = true → ∃ k ∈ db.keys, k.idempotencyKey = c.key

/-- The key was written by the call, and points at its row. -/
structure WrittenBy (env : WriterEnv) (k : IdempotencyKeyRow) (r : ExtensionRow) (d : KeyedCall) :
    Prop where
  key : k.idempotencyKey = d.key
  fingerprint : k.contentFingerprint = d.fingerprint env
  id : k.auditEntryId = r.id

/-- Keys and rows belong to each other, and to the calls that wrote them. -/
structure KeyedInv (env : WriterEnv) (w : KeyedWorld) : Prop where
  keyNodup : (w.db.keys.map (·.idempotencyKey)).Nodup
  idNodup : (w.db.log.map (·.id)).Nodup
  idLt : ∀ r ∈ w.db.log, r.id < w.seq
  row : ∀ k ∈ w.db.keys, ∃ r ∈ w.db.log, ∃ j d, r.writer = some j ∧ w.calls[j]? = some d ∧
    WrittenBy env k r d
  key : ∀ r ∈ w.db.log, ∀ j, r.writer = some j → ∃ k ∈ w.db.keys, ∃ d, w.calls[j]? = some d ∧
    WrittenBy env k r d
  call : ∀ i c, w.calls[i]? = some c → CallOk env w.db w.seq i c
  pendingInj : ∀ (i j : ℕ) (c d : KeyedCall) (row row' : ExtensionRow), w.calls[i]? = some c →
    w.calls[j]? = some d → c.phase.pending = some row → d.phase.pending = some row' →
    row.id = row'.id → i = j
  keyedInj : ∀ (i j : ℕ) (c d : KeyedCall), w.calls[i]? = some c → w.calls[j]? = some d →
    c.phase.isKeyed = true → d.phase.isKeyed = true → c.key = d.key → i = j

section Steps

variable {env : WriterEnv} {w : KeyedWorld} {i : ℕ} {c c' : KeyedCall}

/-- The calls after one of them has moved. -/
lemma getElem?_set_iff {calls : List KeyedCall} (hc : calls[i]? = some c) {j : ℕ} {d : KeyedCall} :
    (calls.set i c')[j]? = some d ↔ j = i ∧ d = c' ∨ j ≠ i ∧ calls[j]? = some d := by
  obtain ⟨hlt, -⟩ := List.getElem?_eq_some_iff.1 hc
  by_cases hij : j = i
  · subst hij
    rw [List.getElem?_set_self hlt]
    simp [eq_comm]
  · rw [List.getElem?_set_ne (Ne.symm hij)]
    simp [hij]

/-- A call that moves keeps its content and its key. -/
lemma exists_set {calls : List KeyedCall} (hc : calls[i]? = some c) (hinput : c'.input = c.input)
    (hattribution : c'.attribution = c.attribution) {k : IdempotencyKeyRow} {r : ExtensionRow}
    {j : ℕ} (h : ∃ d, calls[j]? = some d ∧ WrittenBy env k r d) :
    ∃ d, (calls.set i c')[j]? = some d ∧ WrittenBy env k r d := by
  obtain ⟨d, hd, hwritten⟩ := h
  by_cases hij : j = i
  · subst hij
    obtain rfl := Option.some.inj (hc.symm.trans hd)
    refine ⟨c', (getElem?_set_iff hc).2 (.inl ⟨rfl, rfl⟩), ?_⟩
    refine ⟨?_, ?_, hwritten.id⟩
    · rw [hwritten.key, KeyedCall.key, KeyedCall.key, hinput]
    · rw [hwritten.fingerprint]
      simp only [KeyedCall.fingerprint, KeyedCall.content, hinput, hattribution]
  · exact ⟨d, (getElem?_set_iff hc).2 (.inr ⟨hij, hd⟩), hwritten⟩

/-- A call that moves by itself keeps the invariant if it does for itself. -/
lemma KeyedInv.move (hinv : KeyedInv env w) (hc : w.calls[i]? = some c)
    (hinput : c'.input = c.input) (hattribution : c'.attribution = c.attribution) {seq : ℕ}
    (hseq : w.seq ≤ seq) (hok : CallOk env w.db seq i c')
    (hpending : ∀ row, c'.phase.pending = some row → c.phase.pending = some row ∨ w.seq ≤ row.id)
    (hkeyed : c'.phase.isKeyed = true → w.Free i fun d => d.phase.isKeyed && d.key = c'.key) :
    KeyedInv env ⟨w.db, seq, w.calls.set i c'⟩ where
  keyNodup := hinv.keyNodup
  idNodup := hinv.idNodup
  idLt r hr := lt_of_lt_of_le (hinv.idLt r hr) hseq
  row k hk := by
    obtain ⟨r, hr, j, d, hwriter, hd, hwritten⟩ := hinv.row k hk
    obtain ⟨d', hd', hwritten'⟩ := exists_set hc hinput hattribution ⟨d, hd, hwritten⟩
    exact ⟨r, hr, j, d', hwriter, hd', hwritten'⟩
  key r hr j hwriter := by
    obtain ⟨k, hk, hd⟩ := hinv.key r hr j hwriter
    exact ⟨k, hk, exists_set hc hinput hattribution hd⟩
  call j d hd := by
    rcases (getElem?_set_iff hc).1 hd with ⟨rfl, rfl⟩ | ⟨-, hd⟩
    · exact hok
    · have hold := hinv.call j d hd
      refine { hold with pending := fun row hrow => ?_ }
      obtain ⟨hwriter, hlt, hnew⟩ := hold.pending row hrow
      exact ⟨hwriter, lt_of_lt_of_le hlt hseq, hnew⟩
  pendingInj j l d e row row' hd he hrow hrow' heq := by
    have hother : ∀ {m f row row'}, w.calls[m]? = some f → m ≠ i →
        f.phase.pending = some row → c'.phase.pending = some row' → row.id ≠ row'.id := by
      intro m f row row' hf hne hrow hrow' heq
      rcases hpending row' hrow' with hold | hnew
      · exact hne (hinv.pendingInj m i f c row row' hf hc hrow hold heq)
      · have hlt := ((hinv.call m f hf).pending row hrow).2.1
        omega
    rcases (getElem?_set_iff hc).1 hd with ⟨rfl, rfl⟩ | ⟨hne, hd'⟩
    · rcases (getElem?_set_iff hc).1 he with ⟨rfl, rfl⟩ | ⟨hne, he'⟩
      · rfl
      · exact absurd heq.symm (hother he' hne hrow' hrow)
    · rcases (getElem?_set_iff hc).1 he with ⟨rfl, rfl⟩ | ⟨-, he'⟩
      · exact absurd heq (hother hd' hne hrow hrow')
      · exact hinv.pendingInj j l d e row row' hd' he' hrow hrow' heq
  keyedInj j l d e hd he hkd hke heq := by
    have hother : ∀ {m f}, w.calls[m]? = some f → m ≠ i → f.phase.isKeyed = true →
        c'.phase.isKeyed = true → f.key ≠ c'.key := by
      intro m f hf hne hkf hkc heq
      have hfree := hkeyed hkc m f hf hne
      simp [hkf, heq] at hfree
    rcases (getElem?_set_iff hc).1 hd with ⟨rfl, rfl⟩ | ⟨hne, hd'⟩
    · rcases (getElem?_set_iff hc).1 he with ⟨rfl, rfl⟩ | ⟨hne, he'⟩
      · rfl
      · exact absurd heq.symm (hother he' hne hke hkd)
    · rcases (getElem?_set_iff hc).1 he with ⟨rfl, rfl⟩ | ⟨-, he'⟩
      · exact absurd heq (hother hd' hne hkd hke)
      · exact hinv.keyedInj j l d e hd' he' hkd hke heq

/-- A call that is keyed has a row. -/
lemma KeyedPhase.isKeyed_eq_false {phase : KeyedPhase} (h : phase.pending = none) :
    phase.isKeyed = false := by
  cases phase <;> first | rfl | cases h

/-- More rows leave what they say about a call in place, if they do not touch what it is about to
write. -/
lemma CallOk.mono {db db' : ExtensionDb} {seq seq' : ℕ} (h : CallOk env db seq i c)
    (hseq : seq ≤ seq') (hlog : db.log ⊆ db'.log) (hkeys : db.keys ⊆ db'.keys)
    (hid : ∀ row, c.phase.pending = some row → ∀ r ∈ db'.log, r ∉ db.log → r.id ≠ row.id)
    (hkey : c.phase.isKeyed = true →
      ∀ k ∈ db'.keys, k ∉ db.keys → k.idempotencyKey ≠ c.key) :
    CallOk env db' seq' i c where
  pending row hrow := by
    obtain ⟨hwriter, hlt, hnew⟩ := h.pending row hrow
    refine ⟨hwriter, lt_of_lt_of_le hlt hseq, fun r hr => ?_⟩
    by_cases hold : r ∈ db.log
    · exact hnew r hold
    · exact hid row hrow r hr hold
  keyed hkeyed k hk := by
    by_cases hold : k ∈ db.keys
    · exact h.keyed hkeyed k hold
    · exact hkey hkeyed k hk hold
  receipt rc hrc := by
    obtain ⟨k, hk, hkey, r, hr, hrest⟩ := h.receipt rc hrc
    exact ⟨k, hkeys hk, hkey, r, hlog hr, hrest⟩
  conflict hconflict := by
    obtain ⟨k, hk, hrest⟩ := h.conflict hconflict
    exact ⟨k, hkeys hk, hrest⟩
  retried hretried := by
    obtain ⟨k, hk, hkey⟩ := h.retried hretried
    exact ⟨k, hkeys hk, hkey⟩

/-- A call in a plain phase needs nothing. -/
lemma CallOk.of_plain {db : ExtensionDb} {seq : ℕ} (h : c.phase.Plain)
    (hretried : c.retried = true → ∃ k ∈ db.keys, k.idempotencyKey = c.key) :
    CallOk env db seq i c where
  pending row hrow := by rw [h.pending] at hrow; cases hrow
  keyed hkeyed := by
    rw [KeyedPhase.isKeyed_eq_false h.pending] at hkeyed
    cases hkeyed
  receipt rc hrc := by rw [h.receipt] at hrc; cases hrc
  conflict hconflict := by rw [h.isConflict] at hconflict; cases hconflict
  retried := hretried

lemma start_plain (input : AuditEventSourceWriteInput)
    (resolved : Option (Option PvAttribution)) :
    (KeyedCall.start env input resolved).phase.Plain ∧
      (KeyedCall.start env input resolved).retried = false := by
  unfold KeyedCall.start
  cases hmay : assertMayWriteExtensionAuditEvent env input with
  | error e =>
    refine ⟨⟨rfl, rfl, ?_⟩, rfl⟩
    unfold assertMayWriteExtensionAuditEvent at hmay
    split_ifs at hmay <;> (obtain rfl := Except.error.inj hmay; rfl)
  | ok _ => cases resolved <;> exact ⟨⟨rfl, rfl, rfl⟩, rfl⟩

lemma getElem?_concat_iff {calls : List KeyedCall} {j : ℕ} {d : KeyedCall} :
    (calls ++ [c])[j]? = some d ↔ calls[j]? = some d ∨ j = calls.length ∧ d = c := by
  rcases lt_trichotomy j calls.length with hlt | rfl | hgt
  · rw [List.getElem?_append_left hlt]
    simp [hlt.ne]
  · simp [eq_comm]
  · rw [List.getElem?_eq_none (by simp; omega), List.getElem?_eq_none hgt.le]
    simp [hgt.ne']

/-- A call arrives. -/
lemma KeyedInv.starts (hinv : KeyedInv env w) (hplain : c.phase.Plain)
    (hretried : c.retried = false) : KeyedInv env { w with calls := w.calls ++ [c] } where
  keyNodup := hinv.keyNodup
  idNodup := hinv.idNodup
  idLt := hinv.idLt
  row k hk := by
    obtain ⟨r, hr, j, d, hwriter, hd, hwritten⟩ := hinv.row k hk
    exact ⟨r, hr, j, d, hwriter, getElem?_concat_iff.2 (.inl hd), hwritten⟩
  key r hr j hwriter := by
    obtain ⟨k, hk, d, hd, hwritten⟩ := hinv.key r hr j hwriter
    exact ⟨k, hk, d, getElem?_concat_iff.2 (.inl hd), hwritten⟩
  call j d hd := by
    rcases getElem?_concat_iff.1 hd with hd | ⟨-, rfl⟩
    · exact hinv.call j d hd
    · exact .of_plain hplain fun hyes => by rw [hretried] at hyes; cases hyes
  pendingInj j l d e row row' hd he hrow hrow' heq := by
    rcases getElem?_concat_iff.1 hd with hd | ⟨-, rfl⟩
    · rcases getElem?_concat_iff.1 he with he | ⟨-, rfl⟩
      · exact hinv.pendingInj j l d e row row' hd he hrow hrow' heq
      · rw [hplain.pending] at hrow'
        cases hrow'
    · rw [hplain.pending] at hrow
      cases hrow
  keyedInj j l d e hd he hkd hke heq := by
    rcases getElem?_concat_iff.1 hd with hd | ⟨-, rfl⟩
    · rcases getElem?_concat_iff.1 he with he | ⟨-, rfl⟩
      · exact hinv.keyedInj j l d e hd he hkd hke heq
      · rw [KeyedPhase.isKeyed_eq_false hplain.pending] at hke
        cases hke
    · rw [KeyedPhase.isKeyed_eq_false hplain.pending] at hkd
      cases hkd

/-- Another writer commits a row. -/
lemma KeyedInv.others (hinv : KeyedInv env w) (entry : AuditLogEntry) (usage : Option UsageRow) :
    KeyedInv env
      { w with
        db := { w.db with log := w.db.log ++ [⟨w.seq, none, entry⟩], usage := usage },
        seq := w.seq + 1 } where
  keyNodup := hinv.keyNodup
  idNodup := by
    rw [List.map_append, List.map_singleton, List.nodup_append]
    refine ⟨hinv.idNodup, List.nodup_singleton _, fun n hn m hm => ?_⟩
    obtain ⟨r, hr, rfl⟩ := List.mem_map.1 hn
    rw [List.mem_singleton.1 hm]
    exact (hinv.idLt r hr).ne
  idLt r hr := by
    rcases List.mem_append.1 hr with hr | hr
    · exact (hinv.idLt r hr).trans (Nat.lt_succ_self _)
    · rw [List.mem_singleton.1 hr]
      exact Nat.lt_succ_self _
  row k hk := by
    obtain ⟨r, hr, hrest⟩ := hinv.row k hk
    exact ⟨r, List.mem_append_left _ hr, hrest⟩
  key r hr j hwriter := by
    rcases List.mem_append.1 hr with hr | hr
    · exact hinv.key r hr j hwriter
    · rw [List.mem_singleton.1 hr] at hwriter
      cases hwriter
  call j d hd := by
    have hold := hinv.call j d hd
    refine hold.mono (Nat.le_succ _) (List.subset_append_left _ _) (List.Subset.refl _) ?_ ?_
    · intro row hrow r hr hnew
      rcases List.mem_append.1 hr with hr | hr
      · exact absurd hr hnew
      · rw [List.mem_singleton.1 hr]
        exact ((hold.pending row hrow).2.1).ne'
    · exact fun _ k hk hnew => absurd hk hnew
  pendingInj := hinv.pendingInj
  keyedInj := hinv.keyedInj

lemma KeyedInv.commits (hinv : KeyedInv env w) (hc : w.calls[i]? = some c)
    {usage usage' : Option UsageRow} {row : ExtensionRow} (hphase : c.phase = .keyed usage row)
    (hinput : c'.input = c.input) (hattribution : c'.attribution = c.attribution)
    (hretried : c'.retried = c.retried)
    (hdone : c'.phase = .done (.ok ⟨row.id, row.entry.createdAt, false⟩)) :
    KeyedInv env
      ⟨⟨w.db.log ++ [row], w.db.keys ++ [⟨c.key, c.fingerprint env, row.id⟩], usage'⟩, w.seq,
        w.calls.set i c'⟩ := by
  have hpending : c.phase.pending = some row := by rw [hphase]; rfl
  have hkeyed : c.phase.isKeyed = true := by rw [hphase]; rfl
  have hnone : c'.phase.pending = none := by rw [hdone]; rfl
  have hkey : c'.key = c.key := by rw [KeyedCall.key, KeyedCall.key, hinput]
  have hok := hinv.call i c hc
  obtain ⟨hwriter, hlt, hnew⟩ := hok.pending row hpending
  have hwritten : WrittenBy env ⟨c.key, c.fingerprint env, row.id⟩ row c := ⟨rfl, rfl, rfl⟩
  refine ⟨?_, ?_, ?_, ?_, ?_, ?_, ?_, ?_⟩
  · rw [List.map_append, List.map_singleton, List.nodup_append]
    refine ⟨hinv.keyNodup, List.nodup_singleton _, fun n hn m hm => ?_⟩
    obtain ⟨k, hk, rfl⟩ := List.mem_map.1 hn
    rw [List.mem_singleton.1 hm]
    exact hok.keyed hkeyed k hk
  · rw [List.map_append, List.map_singleton, List.nodup_append]
    refine ⟨hinv.idNodup, List.nodup_singleton _, fun n hn m hm => ?_⟩
    obtain ⟨r, hr, rfl⟩ := List.mem_map.1 hn
    rw [List.mem_singleton.1 hm]
    exact hnew r hr
  · intro r hr
    rcases List.mem_append.1 hr with hr | hr
    · exact hinv.idLt r hr
    · rwa [List.mem_singleton.1 hr]
  · intro k hk
    rcases List.mem_append.1 hk with hk | hk
    · obtain ⟨r, hr, j, d, hwriter, hd, hwritten⟩ := hinv.row k hk
      obtain ⟨d', hd', hwritten'⟩ := exists_set hc hinput hattribution ⟨d, hd, hwritten⟩
      exact ⟨r, List.mem_append_left _ hr, j, d', hwriter, hd', hwritten'⟩
    · obtain ⟨d', hd', hwritten'⟩ := exists_set hc hinput hattribution ⟨c, hc, hwritten⟩
      rw [List.mem_singleton.1 hk]
      exact ⟨row, by simp, i, d', hwriter, hd', hwritten'⟩
  · intro r hr j hj
    rcases List.mem_append.1 hr with hr | hr
    · obtain ⟨k, hk, hd⟩ := hinv.key r hr j hj
      exact ⟨k, List.mem_append_left _ hk, exists_set hc hinput hattribution hd⟩
    · obtain rfl := List.mem_singleton.1 hr
      obtain rfl := Option.some.inj (hwriter.symm.trans hj)
      exact ⟨⟨c.key, c.fingerprint env, r.id⟩, by simp,
        exists_set hc hinput hattribution ⟨c, hc, hwritten⟩⟩
  · intro j d hd
    rcases (getElem?_set_iff hc).1 hd with ⟨rfl, rfl⟩ | ⟨hne, hd⟩
    · refine ⟨?_, ?_, ?_, ?_, ?_⟩
      · intro row' hrow'
        rw [hnone] at hrow'
        cases hrow'
      · intro hyes
        rw [KeyedPhase.isKeyed_eq_false hnone] at hyes
        cases hyes
      · intro rc hrc
        rw [hdone] at hrc
        cases hrc
        exact ⟨⟨c.key, c.fingerprint env, row.id⟩, by simp, hkey.symm, row, by simp, rfl, rfl, rfl⟩
      · intro hyes
        rw [hdone] at hyes
        cases hyes
      · intro hyes
        obtain ⟨k, hk, heq⟩ := hok.retried (hretried.symm.trans hyes)
        exact ⟨k, List.mem_append_left _ hk, heq.trans hkey.symm⟩
    · refine (hinv.call j d hd).mono le_rfl (List.subset_append_left _ _)
        (List.subset_append_left _ _) ?_ ?_
      · intro row' hrow' r hr hout
        rcases List.mem_append.1 hr with hr | hr
        · exact absurd hr hout
        · rw [List.mem_singleton.1 hr]
          exact fun heq => hne (hinv.pendingInj j i d c row' row hd hc hrow' hpending heq.symm)
      · intro hkd k hk hout
        rcases List.mem_append.1 hk with hk | hk
        · exact absurd hk hout
        · rw [List.mem_singleton.1 hk]
          exact fun heq => hne (hinv.keyedInj j i d c hd hc hkd hkeyed heq.symm)
  · intro j l d e row' row'' hd he hrow hrow' heq
    rcases (getElem?_set_iff hc).1 hd with ⟨rfl, rfl⟩ | ⟨-, hd⟩
    · rw [hnone] at hrow
      cases hrow
    · rcases (getElem?_set_iff hc).1 he with ⟨rfl, rfl⟩ | ⟨-, he⟩
      · rw [hnone] at hrow'
        cases hrow'
      · exact hinv.pendingInj j l d e row' row'' hd he hrow hrow' heq
  · intro j l d e hd he hkd hke heq
    rcases (getElem?_set_iff hc).1 hd with ⟨rfl, rfl⟩ | ⟨-, hd⟩
    · rw [KeyedPhase.isKeyed_eq_false hnone] at hkd
      cases hkd
    · rcases (getElem?_set_iff hc).1 he with ⟨rfl, rfl⟩ | ⟨-, he⟩
      · rw [KeyedPhase.isKeyed_eq_false hnone] at hke
        cases hke
      · exact hinv.keyedInj j l d e hd he hkd hke heq

/-- A call keeps what it was given. -/
lemma Moves.input_eq {a : KeyedAct} {db : ExtensionDb} {seq : ℕ}
    (h : Moves env w i c a c' db seq) : c'.input = c.input ∧ c'.attribution = c.attribution := by
  cases h <;> exact ⟨rfl, rfl⟩

/-- **Every step keeps the invariant**, whatever locks are bypassed. -/
lemma step_keyedInv {w' : KeyedWorld} {a : KeyedAct} (hinv : KeyedInv env w)
    (h : w.step env a = some w') : KeyedInv env w' := by
  rcases step_moves h with ⟨input, resolved, -, rfl⟩ | ⟨entry, usage, -, rfl⟩ |
    ⟨i, c, c', db, seq, hc, -, hmove, rfl⟩
  · exact hinv.starts (start_plain input resolved).1 (start_plain input resolved).2
  · exact hinv.others entry usage
  · have hok := hinv.call i c hc
    obtain ⟨hinput, hattribution⟩ := hmove.input_eq
    cases hmove with
    | quiet hplain =>
      refine hinv.move hc hinput hattribution le_rfl (.of_plain hplain hok.retried) ?_ ?_
      · intro row hrow
        rw [hplain.pending] at hrow
        cases hrow
      · intro hyes
        rw [KeyedPhase.isKeyed_eq_false hplain.pending] at hyes
        cases hyes
    | conflicts k hk hkey hdiffers =>
      refine hinv.move hc hinput hattribution le_rfl
        ⟨nofun, nofun, nofun, fun _ => ⟨k, hk, hkey, hdiffers⟩, hok.retried⟩ nofun nofun
    | finds k row hk hkey hrow hid =>
      refine hinv.move hc hinput hattribution le_rfl ⟨nofun, nofun, ?_, nofun, hok.retried⟩ nofun
        nofun
      intro rc hrc
      cases hrc
      exact ⟨k, hk, hkey, row, hrow, hid, rfl, rfl⟩
    | answers receipt hphase =>
      have hfound : c.phase.receipt = some receipt := by rw [hphase]; rfl
      refine hinv.move hc hinput hattribution le_rfl ⟨nofun, nofun, ?_, nofun, hok.retried⟩ nofun
        nofun
      intro rc hrc
      cases hrc
      exact hok.receipt _ hfound
    | inserts usage row _ hid hwriter =>
      refine hinv.move hc hinput hattribution (Nat.le_succ _)
        ⟨?_, nofun, nofun, nofun, hok.retried⟩ ?_ nofun
      · intro row' hrow'
        cases hrow'
        refine ⟨hwriter, by omega, fun r hr => ?_⟩
        rw [hid]
        exact (hinv.idLt r hr).ne
      · intro row' hrow'
        cases hrow'
        exact .inr hid.ge
    | keys usage row hphase hfree hnew =>
      have hpending : c.phase.pending = some row := by rw [hphase]; rfl
      refine hinv.move hc hinput hattribution le_rfl
        ⟨?_, fun _ => hnew, nofun, nofun, hok.retried⟩ ?_ fun _ => hfree
      · intro row' hrow'
        cases hrow'
        exact hok.pending row hpending
      · intro row' hrow'
        cases hrow'
        exact .inl hpending
    | races usage row hphase _ k hk hkey =>
      exact hinv.move hc hinput hattribution le_rfl
        ⟨nofun, nofun, nofun, nofun, fun _ => ⟨k, hk, hkey⟩⟩ nofun nofun
    | commits usage row hphase => exact hinv.commits hc hphase hinput hattribution rfl rfl

lemma getElem?_of_step {a : KeyedAct} {w' : KeyedWorld} (h : w.step env a = some w') {j : ℕ}
    {d : KeyedCall} (hd : w.calls[j]? = some d) :
    w'.calls[j]? = some d ∨ (∀ answer, d.phase ≠ .done answer) ∧
      ∃ d' db seq, Moves env w j d a d' db seq ∧ w'.calls[j]? = some d' ∧ w'.db = db := by
  rcases step_moves h with ⟨input, resolved, -, rfl⟩ | ⟨entry, usage, -, rfl⟩ |
    ⟨i, c, c', db, seq, hc, hopen, hmove, rfl⟩
  · exact .inl (getElem?_concat_iff.2 (.inl hd))
  · exact .inl hd
  · by_cases hij : j = i
    · subst hij
      obtain rfl := Option.some.inj (hc.symm.trans hd)
      exact .inr ⟨hopen, c', db, seq, hmove, (getElem?_set_iff hc).2 (.inl ⟨rfl, rfl⟩), rfl⟩
    · exact .inl ((getElem?_set_iff hc).2 (.inr ⟨hij, hd⟩))

end Steps

/-- The committed usage and nothing else. -/
lemma keyedInv_init (env : WriterEnv) (usage : Option UsageRow) :
    KeyedInv env (keyedSystem env usage).init where
  keyNodup := List.nodup_nil
  idNodup := List.nodup_nil
  idLt _ hr := absurd hr List.not_mem_nil
  row _ hk := absurd hk List.not_mem_nil
  key _ hr := absurd hr List.not_mem_nil
  call _ _ hc := by simp [keyedSystem] at hc
  pendingInj _ _ _ _ _ _ hc := by simp [keyedSystem] at hc
  keyedInj _ _ _ _ hc := by simp [keyedSystem] at hc

lemma keyedInv_of_reaches {env : WriterEnv} {usage : Option UsageRow}
    {ok : KeyedWorld → KeyedAct → Prop} {w : KeyedWorld} (h : (keyedSystem env usage).Reaches ok w) :
    KeyedInv env w :=
  Run.System.Reaches.invariant (keyedInv_init env usage)
    (fun _ _ _ hinv _ hstep => step_keyedInv hinv hstep) h

/-! ### What the calls answer -/

/-- The answer of a call, once it has one. -/
def KeyedWorld.answer (w : KeyedWorld) (i : ℕ) :
    Option (Except WriteError IdempotentAuditReceipt) :=
  (w.calls[i]?).bind fun c =>
    match c.phase with
    | .done answer => some answer
    | _ => none

/-- The call has written the committed row. -/
def KeyedWorld.Wrote (w : KeyedWorld) (d : KeyedCall) (r : ExtensionRow) : Prop :=
  r ∈ w.db.log ∧ ∃ j, r.writer = some j ∧ w.calls[j]? = some d

/-- The hash has no collision among the texts of the calls. -/
def NoCollision (env : WriterEnv) (w : KeyedWorld) : Prop :=
  ∀ c ∈ w.calls, ∀ d ∈ w.calls,
    env.sha256 (contentText c.content) = env.sha256 (contentText d.content) →
      contentText c.content = contentText d.content

section Answers

variable {env : WriterEnv} {w w' : KeyedWorld} {a : KeyedAct} {i : ℕ} {c d : KeyedCall}

lemma KeyedWorld.answer_eq (hc : w.calls[i]? = some c)
    {o : Except WriteError IdempotentAuditReceipt} : w.answer i = some o ↔ c.phase = .done o := by
  rw [KeyedWorld.answer, hc, Option.bind_some]
  cases c.phase <;> simp

/-- **One row for a key.** -/
lemma KeyedInv.row_unique (hinv : KeyedInv env w) {r r' : ExtensionRow} (h : w.Wrote c r)
    (h' : w.Wrote d r') (hkey : c.key = d.key) : r = r' := by
  obtain ⟨hr, j, hj, hc⟩ := h
  obtain ⟨hr', j', hj', hd⟩ := h'
  obtain ⟨k, hk, c', hc', hwritten⟩ := hinv.key r hr j hj
  obtain ⟨k', hk', d', hd', hwritten'⟩ := hinv.key r' hr' j' hj'
  obtain rfl := Option.some.inj (hc.symm.trans hc')
  obtain rfl := Option.some.inj (hd.symm.trans hd')
  have hkeys : k = k' := by
    refine List.inj_on_of_nodup_map hinv.keyNodup hk hk' ?_
    rw [hwritten.key, hwritten'.key, hkey]
  refine List.inj_on_of_nodup_map hinv.idNodup hr hr' ?_
  rw [← hwritten.id, ← hwritten'.id, hkeys]

lemma KeyedInv.exists_wrote (hinv : KeyedInv env w) {k : IdempotencyKeyRow} (hk : k ∈ w.db.keys) :
    ∃ d r, w.Wrote d r ∧ WrittenBy env k r d := by
  obtain ⟨r, hr, j, d, hj, hd, hwritten⟩ := hinv.row k hk
  exact ⟨d, r, ⟨hr, j, hj, hd⟩, hwritten⟩

/-- **Receipts**: a call that succeeds answers with the row of its key. -/
lemma KeyedInv.receipt_row (hinv : KeyedInv env w) (hc : w.calls[i]? = some c)
    {receipt : IdempotentAuditReceipt} (h : w.answer i = some (.ok receipt)) :
    ∃ d r, w.Wrote d r ∧ d.key = c.key ∧ receipt.id = r.id ∧
      receipt.createdAt = r.entry.createdAt := by
  have hreceipt : c.phase.receipt = some receipt := by
    rw [(KeyedWorld.answer_eq hc).1 h]
    rfl
  obtain ⟨k, hk, hkey, r, hr, hid, hrest⟩ := (hinv.call i c hc).receipt receipt hreceipt
  obtain ⟨d, r', hwrote, hwritten⟩ := hinv.exists_wrote hk
  have hrow : r' = r := by
    refine List.inj_on_of_nodup_map hinv.idNodup hwrote.1 hr ?_
    rw [hid, hwritten.id]
  rw [hrow] at hwrote
  exact ⟨d, r, hwrote, by rw [← hwritten.key, hkey], hrest⟩

/-- Without collisions the fingerprints of two calls differ exactly if their contents do. -/
lemma fingerprint_ne_iff (hsha : NoCollision env w) (hc : c ∈ w.calls) (hd : d ∈ w.calls) :
    d.fingerprint env ≠ c.fingerprint env ↔ ¬ SameContent d.content c.content := by
  rw [← contentText_eq_iff, not_iff_not]
  exact ⟨hsha d hd c hc, congrArg env.sha256⟩

/-- **Conflicts**: a lookup fails with the conflict error exactly if the row of its key has another
content. -/
lemma KeyedInv.conflict_iff (hinv : KeyedInv env w) (hsha : NoCollision env w)
    (hc : w.calls[i]? = some c) (h : w.step env (.looks i) = some w') :
    w'.answer i = some (.error .conflict) ↔
      ∃ d r, w.Wrote d r ∧ d.key = c.key ∧ ¬ SameContent d.content c.content := by
  have hlooks : ∃ start, w' = w.put i c (w.db.lookup env c start) := by
    simp only [KeyedWorld.step, hc, Option.bind_eq_bind, Option.bind_some] at h
    split at h
    · next start _ => exact ⟨start, (Option.some.inj h).symm⟩
    · cases h
  obtain ⟨start, rfl⟩ := hlooks
  have hget : (w.put i c (w.db.lookup env c start)).calls[i]? =
      some { c with phase := w.db.lookup env c start } :=
    (getElem?_set_iff hc).2 (.inl ⟨rfl, rfl⟩)
  have hanswer : (w.put i c (w.db.lookup env c start)).answer i = some (.error .conflict) ↔
      w.db.lookup env c start = .done (.error .conflict) :=
    KeyedWorld.answer_eq hget
  have hmem : c ∈ w.calls := List.mem_of_getElem? hc
  rw [hanswer]
  unfold ExtensionDb.lookup
  cases hfind : w.db.keys.find? fun k => k.idempotencyKey = c.key with
  | none =>
    refine ⟨fun h => ?_, ?_⟩
    · cases h
    rintro ⟨d, r, ⟨hr, j, hj, hd⟩, hkey, -⟩
    obtain ⟨k, hk, d', hd', hwritten⟩ := hinv.key r hr j hj
    obtain rfl := Option.some.inj (hd.symm.trans hd')
    have hnone : ∀ k ∈ w.db.keys, k.idempotencyKey ≠ c.key := by simpa using hfind
    exact absurd (hwritten.key.trans hkey) (hnone k hk)
  | some k =>
    have hk := List.mem_of_find?_eq_some hfind
    have hkey : k.idempotencyKey = c.key := by simpa using List.find?_some hfind
    obtain ⟨d, r, hwrote, hwritten⟩ := hinv.exists_wrote hk
    have hdmem : d ∈ w.calls := by
      obtain ⟨-, j, -, hd⟩ := hwrote
      exact List.mem_of_getElem? hd
    have hsame : (∃ d' r', w.Wrote d' r' ∧ d'.key = c.key ∧ ¬ SameContent d'.content c.content) ↔
        ¬ SameContent d.content c.content := by
      constructor
      · rintro ⟨d', r', hwrote', hkey', hdiffers⟩
        have hrows := hinv.row_unique hwrote hwrote' (by rw [← hwritten.key, hkey, hkey'])
        obtain ⟨-, j, hj, hd⟩ := hwrote
        obtain ⟨-, j', hj', hd'⟩ := hwrote'
        rw [hrows, hj'] at hj
        cases hj
        rwa [Option.some.inj (hd.symm.trans hd')]
      · exact fun hdiffers => ⟨d, r, hwrote, hwritten.key.symm.trans hkey, hdiffers⟩
    rw [hsame, ← fingerprint_ne_iff hsha hmem hdmem, ← hwritten.fingerprint]
    dsimp only
    split_ifs with hdiffers
    · exact ⟨fun _ => hdiffers, fun _ => rfl⟩
    · refine ⟨fun hconflict => ?_, fun hne => absurd hne hdiffers⟩
      split at hconflict
      · cases hconflict
      · cases hconflict

lemma answer_final (h : w.step env a = some w') {o : Except WriteError IdempotentAuditReceipt}
    (ho : w.answer i = some o) : w'.answer i = some o := by
  obtain ⟨c, hc, -⟩ := Option.bind_eq_some_iff.1 ho
  have hdone := (KeyedWorld.answer_eq hc).1 ho
  rcases getElem?_of_step h hc with hc' | ⟨hopen, -⟩
  · exact (KeyedWorld.answer_eq hc').2 hdone
  · exact absurd hdone (hopen o)

/-- Nothing but a lookup answers with the conflict error. -/
lemma conflict_of_step (h : w.step env a = some w') (hnew : w'.answer i = some (.error .conflict)) :
    w.answer i = some (.error .conflict) ∨ a = .looks i := by
  rcases step_moves h with ⟨input, resolved, -, rfl⟩ | ⟨entry, usage, -, rfl⟩ |
    ⟨j, c, c', db, seq, hc, -, hmove, rfl⟩
  · obtain ⟨d, hd, -⟩ := Option.bind_eq_some_iff.1 hnew
    have hdone := (KeyedWorld.answer_eq hd).1 hnew
    rcases getElem?_concat_iff.1 hd with hd | ⟨-, rfl⟩
    · exact .inl ((KeyedWorld.answer_eq hd).2 hdone)
    · have hplain : (KeyedCall.start env input resolved).phase.isConflict = false :=
        (start_plain input resolved).1.isConflict
      rw [hdone] at hplain
      cases hplain
  · exact .inl hnew
  · obtain ⟨d, hd, -⟩ := Option.bind_eq_some_iff.1 hnew
    have hdone := (KeyedWorld.answer_eq hd).1 hnew
    rcases (getElem?_set_iff hc).1 hd with ⟨rfl, rfl⟩ | ⟨-, hd⟩
    · cases hmove with
      | quiet hplain =>
        have hnot := hplain.isConflict
        dsimp only at hdone
        rw [hdone] at hnot
        cases hnot
      | conflicts => exact .inr rfl
      | finds => exact .inr rfl
      | _ => cases hdone
    · exact .inl ((KeyedWorld.answer_eq hd).2 hdone)

/-- The committed rows change by the commit of a call that answers with its own row, or by other
writers. -/
lemma db_of_step (h : w.step env a = some w') (hne : w'.db ≠ w.db) :
    (∃ entry usage, a = .others entry usage) ∨
      ∃ i receipt, a = .commits i ∧ w'.answer i = some (.ok receipt) ∧ receipt.deduped = false := by
  rcases step_moves h with ⟨input, resolved, -, rfl⟩ | ⟨entry, usage, rfl, -⟩ |
    ⟨i, c, c', db, seq, hc, -, hmove, rfl⟩
  · exact absurd rfl hne
  · exact .inl ⟨entry, usage, rfl⟩
  · have hget : (w.calls.set i c')[i]? = some c' := (getElem?_set_iff hc).2 (.inl ⟨rfl, rfl⟩)
    cases hmove with
    | commits usage row _ => exact .inr ⟨i, _, rfl, (KeyedWorld.answer_eq hget).2 rfl, rfl⟩
    | _ => exact absurd rfl hne

end Answers

/-- **Keyed writes are idempotent**: after every run of the calls of an extension, whatever locks are
bypassed and whatever other writers commit in between, a key has one row at most; a call that
succeeds answers with the row of its key; a lookup fails with the conflict error exactly if that row
has another content, and nothing else fails so; and only the commit of a call that answers with a
row of its own changes the chain, the keys and the usage. -/
theorem keyed_writes_idempotent (env : WriterEnv) (usage : Option UsageRow) {w : KeyedWorld}
    (h : (keyedSystem env usage).Reaches (fun _ _ => True) w) (hsha : NoCollision env w) :
    (w.db.log.map (·.id)).Nodup ∧
    (∀ c d r r', w.Wrote c r → w.Wrote d r' → c.key = d.key → r = r') ∧
    (∀ i c receipt, w.calls[i]? = some c → w.answer i = some (.ok receipt) →
      ∃ d r, w.Wrote d r ∧ d.key = c.key ∧ receipt.id = r.id ∧
        receipt.createdAt = r.entry.createdAt) ∧
    (∀ i c w', w.calls[i]? = some c → (keyedSystem env usage).step w (.looks i) = some w' →
      (w'.answer i = some (.error .conflict) ↔
        ∃ d r, w.Wrote d r ∧ d.key = c.key ∧ ¬ SameContent d.content c.content)) ∧
    ∀ a w', (keyedSystem env usage).step w a = some w' →
      (∀ i o, w.answer i = some o → w'.answer i = some o) ∧
      (∀ i, w'.answer i = some (.error .conflict) →
        w.answer i = some (.error .conflict) ∨ a = .looks i) ∧
      (w'.db ≠ w.db → (∃ entry usage', a = .others entry usage') ∨
        ∃ i receipt, a = .commits i ∧ w'.answer i = some (.ok receipt) ∧
          receipt.deduped = false) := by
  have hinv := keyedInv_of_reaches h
  refine ⟨hinv.idNodup, fun c d r r' hr hr' => hinv.row_unique hr hr', ?_, ?_, ?_⟩
  · exact fun i c receipt hc hanswer => hinv.receipt_row hc hanswer
  · exact fun i c w' hc hstep => hinv.conflict_iff hsha hc hstep
  · intro a w' hstep
    exact ⟨fun i o => answer_final hstep, fun i => conflict_of_step hstep, db_of_step hstep⟩

/-- An extension whose gates are switched off, with the text itself for its hash. -/
def sampleWriterEnv : WriterEnv where
  audit := plainEnv
  gates :=
    { sampleGateEnv with quotaEnforcementEnabled := false, writeRateEnforcementEnabled := false }
  orgId := "org"
  extensionName := "acme.ci"
  capabilities := ["audit-event-source"]
  sha256 := id
  hashtextextended _ := 0

/-- An event of one number, under the key `build-7`. -/
def sampleInput (n : ℕ) (resourceType : Option String) : AuditEventSourceWriteInput where
  eventType := "ext.acme.ci.built"
  projectId := none
  resourceId := none
  resourceType := resourceType
  payload :=
    { members := [("n", .num (NumLit.ofNat n)), ("gone", .undefined)]
      distinct := by simp [Value.Distinct, Value.DistinctMembers] }
  idempotencyKey := "build-7"

/-- Two calls that retry one event race past the lock, and a third uses their key for another. -/
theorem keyed_writes_idempotent_race :
    ∃ w, (keyedSystem sampleWriterEnv none).Reaches (fun _ _ => True) w ∧
      w.answer 0 = some (.ok ⟨0, 5, false⟩) ∧ w.answer 1 = some (.ok ⟨0, 5, true⟩) ∧
      w.calls.map (·.retried) = [false, true, false] ∧
      w.answer 2 = some (.error .conflict) ∧ (w.db.log.map (·.id)).Nodup := by
  obtain ⟨w, hexec, hzero, hone, hretried, htwo⟩ := Run.System.exists_of_exec
    (keyedSystem sampleWriterEnv none) (fun _ _ => True) (keyedSystem sampleWriterEnv none).init
    [.starts (sampleInput 1 none) (some none), .starts (sampleInput 1 none) (some none),
     .starts (sampleInput 2 none) (some none),
     .begins 0 5, .locks 0 false, .looks 0, .begins 1 6, .locks 1 true, .looks 1,
     .gates 0 none, .heads 0, .inserts 0, .keys 0, .commits 0,
     .gates 1 none, .heads 1, .inserts 1, .keys 1,
     .begins 1 7, .locks 1 false, .looks 1, .commits 1,
     .begins 2 8, .locks 2 false, .looks 2]
    (fun w => w.answer 0 = some (.ok ⟨0, 5, false⟩) ∧ w.answer 1 = some (.ok ⟨0, 5, true⟩) ∧
      w.calls.map (·.retried) = [false, true, false] ∧ w.answer 2 = some (.error .conflict))
    (by decide +kernel)
  have hreach := Run.System.steps_of_exec hexec
  have hmain := keyed_writes_idempotent sampleWriterEnv none hreach fun _ _ _ _ h => h
  exact ⟨w, hreach, hzero, hone, hretried, htwo, hmain.1⟩

/-- There are texts of any length. -/
lemma exists_length (n : ℕ) : ∃ s, Js.length s = n := by
  refine ⟨String.ofList (List.replicate n 'a'), ?_⟩
  rw [Js.length, String.toList_ofList, List.map_replicate]
  simp

/-- A call that arrives with a long text is refused as soon as it begins. -/
lemma step_begins_large {s : String} (hs : maxIdempotentAuditEntryBytes < Js.length s)
    (w : KeyedWorld) :
    ∃ w₁ w₂ : KeyedWorld,
      (keyedSystem sampleWriterEnv none).step w (.starts (sampleInput 1 (some s)) (some none)) =
        some w₁ ∧
      (keyedSystem sampleWriterEnv none).step w₁ (.begins w.calls.length 9) = some w₂ ∧
      w₂.db = w.db ∧
      w₂.calls = w.calls ++
        [⟨sampleInput 1 (some s), none, false, .done (.error .payloadTooLarge)⟩] := by
  have hstart : KeyedCall.start sampleWriterEnv (sampleInput 1 (some s)) (some none) =
      ⟨sampleInput 1 (some s), none, false, .ready⟩ := by
    have hmay : assertMayWriteExtensionAuditEvent sampleWriterEnv (sampleInput 1 (some s)) =
        assertMayWriteExtensionAuditEvent sampleWriterEnv (sampleInput 1 none) := rfl
    have hok : assertMayWriteExtensionAuditEvent sampleWriterEnv (sampleInput 1 none) = .ok () := by
      decide +kernel
    rw [KeyedCall.start, hmay, hok]
  have hlarge : (⟨sampleInput 1 (some s), none, false, .ready⟩ : KeyedCall).tooLarge = true := by
    have hsize : Js.length s ≤
        estimateAuditEntrySizeBytes (sampleInput 1 (some s)).payload.members none (some s) := by
      rw [estimateAuditEntrySizeBytes]
      simp only [Option.map_some, Option.getD_some, Option.map_none, Option.getD_none]
      omega
    exact decide_eq_true (lt_of_lt_of_le hs hsize)
  let ready : KeyedCall := ⟨sampleInput 1 (some s), none, false, .ready⟩
  let w₁ : KeyedWorld := { w with calls := w.calls ++ [ready] }
  refine ⟨w₁, w₁.put w.calls.length ready (.done (.error .payloadTooLarge)), ?_, ?_, rfl, ?_⟩
  · show some { w with calls := w.calls ++ [_] } = some w₁
    rw [hstart]
  · have hget : w₁.calls[w.calls.length]? = some ready := List.getElem?_concat_length
    simp only [keyedSystem, KeyedWorld.step, hget, Option.bind_eq_bind, Option.bind_some]
    rw [if_pos hlarge]
  · simp [w₁, ready, KeyedWorld.put]

/-- A call over the size bound is refused before the lookup of its key, and so with another error
than the conflict. -/
theorem conflict_size_bound :
    ∃ w c d r, (keyedSystem sampleWriterEnv none).Reaches (fun _ _ => True) w ∧
      w.calls[1]? = some c ∧ w.Wrote d r ∧ d.key = c.key ∧
      ¬ SameContent d.content c.content ∧ w.answer 1 = some (.error .payloadTooLarge) := by
  obtain ⟨w, hexec, hone, hlog⟩ := Run.System.exists_of_exec (keyedSystem sampleWriterEnv none)
    (fun _ _ => True) (keyedSystem sampleWriterEnv none).init
    [.starts (sampleInput 1 none) (some none), .begins 0 5, .locks 0 false, .looks 0,
     .gates 0 none, .heads 0, .inserts 0, .keys 0, .commits 0]
    (fun w => w.calls.map (fun c => (c.key, c.input.resourceType)) = [("build-7", none)] ∧
      w.db.log.map (·.writer) = [some 0])
    (by decide +kernel)
  obtain ⟨d, hd, hown⟩ := List.map_eq_singleton_iff.1 hone
  obtain ⟨r, hr, hwriter⟩ := List.map_eq_singleton_iff.1 hlog
  obtain ⟨hkey, htype⟩ := Prod.mk.inj hown
  obtain ⟨s, hs⟩ := exists_length (maxIdempotentAuditEntryBytes + 1)
  obtain ⟨w₁, w₂, hstarts, hbegins, hdb, hcalls⟩ := step_begins_large (by omega : _ < Js.length s) w
  have hfirst : (keyedSystem sampleWriterEnv none).Reaches (fun _ _ => True) w :=
    Run.System.steps_of_exec hexec
  have hreach : (keyedSystem sampleWriterEnv none).Reaches (fun _ _ => True) w₂ :=
    (hfirst.step trivial hstarts).step trivial hbegins
  rw [hd] at hcalls
  have hget : w₂.calls[1]? =
      some ⟨sampleInput 1 (some s), none, false, .done (.error .payloadTooLarge)⟩ := by
    rw [hcalls]
    rfl
  refine ⟨w₂, _, d, r, hreach, hget, ⟨?_, 0, hwriter, ?_⟩, hkey, ?_, ?_⟩
  · rw [hdb, hr]
    exact List.mem_singleton_self r
  · rw [hcalls]
    rfl
  · intro hsame
    have htypes : d.input.resourceType = some s := hsame.resourceType
    rw [htype] at htypes
    cases htypes
  · exact (KeyedWorld.answer_eq hget).2 rfl

end ProjectVault.Audit
