import ProjectVault.Shares.History

/-!
An open transaction on shares.
-/

namespace ProjectVault.Shares

open Js Db

variable {rt : Runtime} {collation : Collation} {ok : ShareRequest → Prop}
  {script script' : ℕ → List ShareEdit} {new : List CredentialShare}
  {added added' : List ShareAudit} {l l' : Local ShareDb ShareLock} {w w' : ShareWorld}
variable {r : CredentialShare} {keys : Option (List String)} {held : Set ShareLock}
  {answer : ShareAnswer} {Q : SharePost Unit}

/-! ### Audit rows -/

/-- No edits. -/
abbrev noEdits : ℕ → List ShareEdit := fun _ => []

lemma accounted_noEdits : Accounted noEdits [] := fun _ _ _ => rfl

/-- An edit without an audit row. -/
lemma Accounted.edit (h : Accounted script added) {id : ℕ} {e : ShareEdit} (he : e.event = none) :
    Accounted (Edits.addEdit script id e) added := by
  intro n kind hkind
  rw [h n kind hkind]
  by_cases hn : n = id
  · subst hn
    simp [Edits.addEdit_self, editCount, he]
  · rw [Edits.addEdit_of_ne _ _ hn]

lemma Accounted.audited (h : Accounted script added) {id : ℕ} {e : ShareEdit} {event : ShareEvent}
    (he : e.event = some event) (t : ℕ) :
    Accounted (Edits.addEdit script id e) (⟨id, event, t⟩ :: added) := by
  intro n kind hkind
  have hn' := h n kind hkind
  rw [auditCount] at hn' ⊢
  rw [List.countP_cons, hn']
  by_cases hn : n = id
  · subst hn
    rw [Edits.addEdit_self, editCount, editCount, List.countP_append, List.countP_singleton, he]
    simp
  · rw [Edits.addEdit_of_ne _ _ hn]
    simp [Ne.symm hn]

/-- A row about a view. -/
lemma Accounted.viewed (h : Accounted script added) (id t : ℕ) :
    Accounted script (⟨id, .viewed, t⟩ :: added) := by
  intro n kind hkind
  have hn := h n kind hkind
  rw [auditCount] at hn ⊢
  rw [List.countP_cons, hn]
  simp [hkind]

/-! ### Open transactions -/

variable (rt collation ok) in
/-- An open transaction with its edits, its new rows and its audit rows. -/
structure Open (script : ℕ → List ShareEdit) (new : List CredentialShare) (added : List ShareAudit)
    (l : Local ShareDb ShareLock) (w : ShareWorld) : Prop where
  history : History rt collation ok w
  rows : shareEdits.Working script new l w
  audit : ∀ d, (l.pending d).audit = added ++ d.audit
  accounted : Accounted script added
  times : ∀ id now, .expire now ∈ script id → now ≤ w.clock
  started : l.start ≤ w.clock

lemma History.bump (h : History rt collation ok w) : History rt collation ok w.bump :=
  h.later (Nat.le_succ _) le_rfl

lemma Open.rely (h : Open rt collation ok script new added l w)
    (hr : Rely (shareProtocol rt collation ok) l.held w w') (hinv : History rt collation ok w') :
    Open rt collation ok script new added l w' :=
  ⟨hinv, h.rows.rely shareProtocol_respected hr, h.audit, h.accounted,
    fun id now hmem => (h.times id now hmem).trans hr.le.2, h.started.trans hr.le.2⟩

lemma Open.bump (h : Open rt collation ok script new added l w) :
    Open rt collation ok script new added l w.bump :=
  ⟨h.history.bump, h.rows.bump, h.audit, h.accounted, h.times, h.started⟩

/-- The start of a transaction. -/
lemma Open.start (h : History rt collation ok w) (held : Set ShareLock) :
    Open rt collation ok noEdits [] [] ⟨w.clock, held, id⟩ w :=
  ⟨h, Edits.Working.start shareEdits w.clock held w, fun _ => rfl, accounted_noEdits,
    fun _ _ hmem => by simp at hmem, le_rfl⟩

/-- The rule for a read in an open transaction. -/
lemma Open.wp_query {α : Type} (h : Open rt collation ok script new added l w)
    {f : Ctx ShareDb → α} {Q : SharePost α}
    (hQ : ∀ w', Rely (shareProtocol rt collation ok) l.held w w' →
      Open rt collation ok script new added l w' →
      Open rt collation ok script new added l w'.bump → Q (f (l.ctx w')) l w'.bump) :
    wp (shareProtocol rt collation ok) (.query f) Q l w := by
  refine Db.wp_query fun w' hr hinv => ?_
  have h' := h.rely hr hinv
  exact hQ w' hr h' h'.bump

/-- The rule for an audit row, whose edit has just been made. -/
lemma wp_writeAudit (hrows : shareEdits.Working script new l w)
    (haudit : ∀ d, (l.pending d).audit = added ++ d.audit) {id : ℕ} {event : ShareEvent}
    (haccounted : ∀ t, Accounted script (⟨id, event, t⟩ :: added))
    (htimes : ∀ id now, .expire now ∈ script id → now ≤ w.clock) (hstarted : l.start ≤ w.clock)
    (hQ : ∀ l' w' t, Later (shareProtocol rt collation ok) l w l' w' →
      Open rt collation ok script new (⟨id, event, t⟩ :: added) l' w' → Q () l' w') :
    wp (shareProtocol rt collation ok) (writeAudit id event) Q l w := by
  refine wp_update fun w' hr hinv => ?_
  refine hQ _ _ (l.ctx w').start (Later.stmt hr (l.held_wrote _ _)) ?_
  have hw := (hrows.rely shareProtocol_respected hr).wrote [] fun d =>
    (rfl : shareTable.rows ({ d with audit := ⟨id, event, (l.ctx w').start⟩ :: d.audit } : ShareDb) =
      shareTable.rows d)
  refine ⟨History.bump hinv, hw.bump, ?_, haccounted _,
    fun id now hmem => (htimes id now hmem).trans hr.le.2, hstarted.trans hr.le.2⟩
  intro d
  change _ :: (l.pending d).audit = _
  rw [haudit, List.cons_append]

/-- What an update leaves of an open transaction before the audit row is written. -/
structure Edited (rt : Runtime) (collation : Collation) (ok : ShareRequest → Prop)
    (script : ℕ → List ShareEdit) (added : List ShareAudit) (l : Local ShareDb ShareLock)
    (w : ShareWorld) : Prop where
  history : History rt collation ok w
  rows : shareEdits.Working script [] l w
  audit : ∀ d, (l.pending d).audit = added ++ d.audit
  times : ∀ id now, .expire now ∈ script id → now ≤ w.clock
  started : l.start ≤ w.clock

lemma Open.wp_updateShare (h : Open rt collation ok script [] added l w) {id : ℕ}
    {cond : Ctx ShareDb → CredentialShare → Bool}
    {set : Ctx ShareDb → CredentialShare → CredentialShare} (e : Ctx ShareDb → ShareEdit)
    (hset : ∀ c r, set c r = (e c).apply r)
    (hguard : ∀ w' r, Rely (shareProtocol rt collation ok) l.held w w' →
      History rt collation ok w' → shareTable.find w'.db id = some r →
      cond (l.ctx w') (shareEdits.play script r) = true →
      (e (l.ctx w')).guard (shareEdits.play script r))
    (htime : ∀ c now, e c = .expire now → now ≤ w.clock)
    {Q : SharePost (Option CredentialShare)}
    (hnone : ∀ w', Rely (shareProtocol rt collation ok) l.held w w' →
      (∀ r, shareTable.find w'.db id = some r →
        cond (l.ctx w') (shareEdits.play script r) = false) →
      Open rt collation ok script [] added l w'.bump → Q none l w'.bump)
    (hsome : ∀ w' r l', Later (shareProtocol rt collation ok) l w l' w'.bump →
      shareTable.find w'.db id = some r → cond (l.ctx w') (shareEdits.play script r) = true →
      .row id ∈ l'.held → l'.start = l.start →
      Edited rt collation ok (Edits.addEdit script id (e (l.ctx w'))) added l' w'.bump →
      Q (some ((e (l.ctx w')).apply (shareEdits.play script r))) l' w'.bump) :
    wp (shareProtocol rt collation ok) (updateShare id cond set) Q l w := by
  refine h.rows.wp_updateRow shareProtocol_respected (fun w hw => History.keyed hw) (by simp) e hset
    hguard ?_ ?_
  · intro w' hr hinv hw hcond
    exact hnone w' hr hcond (h.rely hr hinv).bump
  · rintro w' r l' hr hinv hfind hcond rfl hw
    refine hsome w' r _ (Later.stmt hr (l.held_wrote _ _)) hfind hcond
      (Or.inr (List.mem_singleton.2 rfl)) rfl
      ⟨History.bump hinv, hw, h.audit, ?_, h.started.trans hr.le.2⟩
    intro m now hmem
    by_cases hm : m = id
    · subst hm
      rw [Edits.addEdit_self, List.mem_append, List.mem_singleton] at hmem
      rcases hmem with hmem | hmem
      · exact (h.times m now hmem).trans hr.le.2
      · exact (htime _ now hmem.symm).trans hr.le.2
    · rw [Edits.addEdit_of_ne _ _ hm] at hmem
      exact (h.times m now hmem).trans hr.le.2

/-- An edit without an audit row leaves the transaction open. -/
lemma Edited.opened {id : ℕ} {e : ShareEdit}
    (h : Edited rt collation ok (Edits.addEdit script id e) added l w)
    (hacc : Accounted script added) (he : e.event = none) :
    Open rt collation ok (Edits.addEdit script id e) [] added l w :=
  ⟨h.history, h.rows, h.audit, hacc.edit he, h.times, h.started⟩

/-! ### Shares that have been read -/

/-- The share is in the table, under the same terms. -/
def Seen (share : CredentialShare) (w : ShareWorld) : Prop :=
  ∃ r, shareTable.find w.db share.id = some r ∧ r.terms = share.terms

lemma Seen.rely (h : Seen share w) (hr : Rely (shareProtocol rt collation ok) held w w') :
    Seen share w' := by
  obtain ⟨r, hfind, hterms⟩ := h
  obtain ⟨es, -, hfind'⟩ := shareProtocol_respected.find_of_rely hr hfind
  exact ⟨_, hfind', (terms_run es r).trans hterms⟩

lemma id_eq_of_terms {s : CredentialShare} (h : r.terms = s.terms) : r.id = s.id := by
  have hid : r.terms.id = s.terms.id := congrArg CredentialShare.id h
  exact hid

lemma Seen.congr {share share' : CredentialShare} (h : Seen share w)
    (hterms : share'.terms = share.terms) : Seen share' w := by
  obtain ⟨r, hfind, hr⟩ := h
  exact ⟨r, by rw [id_eq_of_terms hterms]; exact hfind, hr.trans hterms.symm⟩

/-- A share read by a transaction. -/
lemma Open.seen (h : Open rt collation ok script [] added l w) (hr : r ∈ (l.ctx w).view.shares) :
    Seen r w := by
  have hpending := h.rows.pending w.db
  change r ∈ shareTable.rows (l.pending w.db) at hr
  rw [hpending, List.append_nil, List.mem_map] at hr
  obtain ⟨r₀, hr₀, rfl⟩ := hr
  refine ⟨r₀, ?_, ?_⟩
  · change shareTable.find w.db (shareTable.id (shareEdits.play script r₀)) = _
    rw [Edits.id_play]
    exact Table.find_of_mem h.history.keyed.nodup hr₀
  · exact (terms_run _ _).symm

/-! ### Pending shares -/

/-- The condition of a bucket meets the rows of that bucket only. -/
lemma bucketKeys_of_fieldCondition (hkeys : keys ≠ some []) {s : CredentialShare}
    (h : fieldCondition keys s = true) :
    bucketKeys s.fieldKey s.attributeKeys = keys := by
  have hattr : ∀ ks, s.attributeKeys = some ks → bucketKeys s.fieldKey s.attributeKeys = some ks := by
    intro ks hks
    have hfield : s.fieldKey = none := by
      cases hf : s.fieldKey with
      | none => rfl
      | some key =>
        refine absurd ⟨?_, ?_⟩ s.scope.not_both
        · exact Option.isSome_iff_exists.2 ⟨key, hf⟩
        · exact Option.isSome_iff_exists.2 ⟨ks, hks⟩
    rw [hfield, hks]
    rfl
  cases keys with
  | none =>
    simp only [fieldCondition, Bool.and_eq_true, decide_eq_true_eq] at h
    rw [h.1, h.2]
    rfl
  | some ks =>
    cases ks with
    | nil => exact absurd rfl hkeys
    | cons key ks =>
      simp only [fieldCondition] at h
      split_ifs at h with hone
      · simp only [Bool.or_eq_true, decide_eq_true_eq] at h
        cases h with
        | inl hf => rw [hf, bucketKeys, if_neg hone.2, hone.1]
        | inr ha => exact hattr _ ha
      · exact hattr _ (by simpa using h)

/-- No row has the empty bucket. -/
lemma bucketKeys_ne_nil (scope : ShareScope) :
    bucketKeys scope.fieldKey scope.attributeKeys ≠ some [] := by
  have hattr := scope.not_empty
  unfold bucketKeys
  split
  · split_ifs
    · exact hattr
    · simp
  · exact hattr

lemma isPending_play {cred now : ℕ} (happlied : shareEdits.Applied (script r.id) r)
    (h : isPending cred keys now (shareEdits.play script r) = true) :
    isPending cred keys now r = true := by
  have hterms : (shareEdits.play script r).terms = r.terms := terms_run _ _
  have hcred := congrArg CredentialShare.credentialId hterms
  have htype := congrArg CredentialShare.recipientType hterms
  have hscope := congrArg CredentialShare.scope hterms
  have hexp := congrArg CredentialShare.expiresAt hterms
  simp only [CredentialShare.terms] at hcred htype hscope hexp
  simp only [isPending, fieldCondition, CredentialShare.fieldKey, CredentialShare.attributeKeys,
    hcred, htype, hscope, hexp, Bool.and_eq_true, decide_eq_true_eq] at h ⊢
  refine ⟨⟨h.1.1, ?_⟩, h.2⟩
  by_contra hactive
  exact status_run_ne_active happlied hactive h.1.2

/-- Under the lock of a bucket the others add no pending share to it. -/
lemma countP_isPending_of_rely (hr : Rely (shareProtocol rt collation ok) held w w')
    {cred start : ℕ} (hkeys : keys ≠ some []) (hlock : .cap cred (lockSuffix keys) ∈ held) :
    w'.db.shares.countP (isPending cred keys start) ≤
      w.db.shares.countP (isPending cred keys start) := by
  refine Rely.stable (A := fun v => v.db.shares.countP (isPending cred keys start) ≤
    w.db.shares.countP (isPending cred keys start)) ?_ ?_ hr le_rfl
  · rintro other v ev hdisj - hbefore - - ⟨script, new, hmove⟩ hA
    refine le_trans ?_ hA
    have hrows : ev.after.shares = _ := hmove.changed.rows
    change ev.after.shares.countP _ ≤ _
    rw [hrows, List.countP_append, List.countP_map]
    have hnew : new.countP (isPending cred keys start) = 0 := by
      rw [List.countP_eq_zero]
      intro r hmem hpending
      simp only [isPending, Bool.and_eq_true, decide_eq_true_eq] at hpending
      obtain ⟨request, hcapped⟩ := hmove.capped r hmem hpending.1.1.1.2
      have hbucket := hcapped.lock
      rw [hpending.1.1.1.1, bucketKeys_of_fieldCondition hkeys hpending.1.1.2] at hbucket
      exact Set.disjoint_left.1 hdisj hlock hbucket
    rw [hnew, Nat.add_zero]
    have hdb : shareTable.rows ev.before = v.db.shares := by rw [hbefore]; rfl
    rw [hdb]
    refine List.countP_mono_left fun r hmem hpending => ?_
    exact isPending_play (hmove.changed.applied r (hdb ▸ hmem)) hpending
  · exact fun _ _ _ _ _ hA => hA

lemma Capped.rely {request : ShareRequest} (h : Capped rt collation ok held w w.db r request)
    (hr : Rely (shareProtocol rt collation ok) held w w') :
    Capped rt collation ok held w' w'.db r request where
  allowed := h.allowed
  fieldKey := h.fieldKey
  attributeKeys := h.attributeKeys
  lock := h.lock
  counted := by
    obtain ⟨start, hle, hcount⟩ := h.counted
    exact ⟨start, hle.trans hr.le.2,
      (countP_isPending_of_rely hr (bucketKeys_ne_nil r.scope) h.lock).trans_lt hcount⟩

/-! ### The end of a transaction -/

/-- What an answer says of a row without edits. -/
lemma does_nil :
    answer.Does r [] ↔ answer.about ≠ some r.id := by
  cases answer with
  | reveal result =>
    cases result with
    | ok share bounded gate =>
      by_cases h : share.id = r.id
      · simp [ShareAnswer.Does, ShareAnswer.about, h]
      · simp [ShareAnswer.Does, ShareAnswer.about, h]
    | _ => simp [ShareAnswer.Does, ShareAnswer.about]
  | sent id code =>
    by_cases h : id = r.id
    · simp [ShareAnswer.Does, ShareAnswer.about, h]
    · simp [ShareAnswer.Does, ShareAnswer.about, h]
  | confirmed id code proof =>
    by_cases h : id = r.id
    · simp [ShareAnswer.Does, ShareAnswer.about, h]
    · simp [ShareAnswer.Does, ShareAnswer.about, h]
  | wrongCode id =>
    by_cases h : id = r.id
    · simp only [ShareAnswer.Does, ShareAnswer.about, h, if_true]
      simp
    · simp [ShareAnswer.Does, ShareAnswer.about, h]
  | _ => simp [ShareAnswer.Does, ShareAnswer.about]

/-- The edits of a transaction fit its answer. -/
structure Done (answer : ShareAnswer) (script : ℕ → List ShareEdit) (w : ShareWorld) : Prop where
  does : ∀ r ∈ w.db.shares, answer.Does r (script r.id)
  about : ∀ id, answer.about = some id → id ∈ shareTable.ids w.db

lemma ids_of_rely (hr : Rely (shareProtocol rt collation ok) held w w') {id : ℕ}
    (h : id ∈ shareTable.ids w.db) : id ∈ shareTable.ids w'.db := by
  obtain ⟨r, hfind⟩ := Table.find_isSome_iff.2 h
  obtain ⟨es, -, hfind'⟩ := shareProtocol_respected.find_of_rely hr hfind
  exact Table.find_isSome_iff.1 ⟨_, hfind'⟩

lemma Done.rely (h : Done answer script w) (hw : shareEdits.Working script new l w)
    (hr : Rely (shareProtocol rt collation ok) l.held w w') (hinv : History rt collation ok w') :
    Done answer script w' := by
  refine ⟨fun r hmem => ?_, fun id hid => ids_of_rely hr (h.about id hid)⟩
  by_cases hscript : script r.id = []
  · rw [hscript, does_nil]
    intro habout
    obtain ⟨r₀, hfind⟩ := Table.find_isSome_iff.2 (h.about _ habout)
    obtain ⟨hmem₀, hid⟩ := Table.find_eq_some hfind
    have hid' : r₀.id = r.id := hid
    have hdoes := h.does r₀ hmem₀
    rw [hid', hscript, does_nil, hid'] at hdoes
    exact hdoes habout
  · -- the row is locked, so it is as it was
    obtain ⟨hlock, -⟩ := hw.owned _ hscript
    have heq := shareProtocol_respected.find_eq_of_rely hr hlock
    have hfind : shareTable.find w'.db r.id = some r := Table.find_of_mem hinv.keyed.nodup hmem
    rw [hfind] at heq
    exact h.does r (Table.find_eq_some heq.symm).1

/-- The proof that an answer names has been checked on a row of the log. -/
def Gated (answer : ShareAnswer) (w : ShareWorld) : Prop :=
  ∀ share bounded gate, answer = .reveal (.ok share bounded gate) →
    share.verificationRequired = true →
    ∃ older, older <:+ w.log ∧ ∃ r, rowAfter older share.id = some r ∧ ∃ proof checkedAt,
      gate = some (proof, checkedAt) ∧ hasValidVerificationProof r (some proof) checkedAt = true

/-- The log only grows. -/
lemma log_suffix_of_rely (hr : Rely (shareProtocol rt collation ok) held w w') :
    w.log <:+ w'.log := by
  refine Rely.stable (A := fun v => w.log <:+ v.log) ?_ ?_ hr List.suffix_rfl
  · exact fun _ v ev _ _ _ _ _ _ hA => hA.trans (List.suffix_cons ev v.log)
  · exact fun _ _ _ _ _ hA => hA

lemma Gated.rely (h : Gated answer w) (hr : Rely (shareProtocol rt collation ok) held w w') :
    Gated answer w' := by
  intro share bounded gate hanswer hreq
  obtain ⟨older, hsuffix, hrest⟩ := h share bounded gate hanswer hreq
  exact ⟨older, hsuffix.trans (log_suffix_of_rely hr), hrest⟩

/-- An answer that shows no share. -/
lemma gated_of_about (h : answer.about = none) : Gated answer w := by
  rintro share bounded gate rfl
  simp [ShareAnswer.about] at h

/-- The new rows of an open transaction. -/
structure Created (rt : Runtime) (collation : Collation) (ok : ShareRequest → Prop)
    (new : List CredentialShare) (held : Set ShareLock) (w : ShareWorld) : Prop where
  fresh : ∀ r ∈ new, r.IsFresh
  alone : new.length ≤ 1
  capped : ∀ r ∈ new, r.recipientType = .external →
    ∃ request, Capped rt collation ok held w w.db r request

lemma created_nil : Created rt collation ok [] held w :=
  ⟨by simp, by simp, by simp⟩

lemma Created.rely (h : Created rt collation ok new held w)
    (hr : Rely (shareProtocol rt collation ok) held w w') :
    Created rt collation ok new held w' where
  fresh := h.fresh
  alone := h.alone
  capped r hmem hext := by
    obtain ⟨request, hcapped⟩ := h.capped r hmem hext
    exact ⟨request, hcapped.rely hr⟩

/-- A transaction may end with an answer. -/
structure Ready (rt : Runtime) (collation : Collation) (ok : ShareRequest → Prop)
    (answer : ShareAnswer) (l : Local ShareDb ShareLock) (w : ShareWorld) : Prop where
  work : ∃ script new added, Open rt collation ok script new added l w ∧ Done answer script w ∧
    Created rt collation ok new l.held w
  gated : Gated answer w

lemma wp_endTransaction
    (h : answer = .failed ∧ History rt collation ok w ∨ Ready rt collation ok answer l w)
    (hQ : ∀ w', History rt collation ok w' → Q () (.idle l.start) w') :
    wp (shareProtocol rt collation ok) (endTransaction answer) Q l w := by
  by_cases hfailed : answer = .failed
  · subst hfailed
    refine wp_rollbackTx fun w' locked hr hinv _ => ?_
    have hmove : ShareMove rt collation ok l.held w' ⟨w'.db, .failed, w'.db, locked⟩ noEdits [] := by
      have hstart := Edits.Working.start shareEdits 0 l.held w'
      exact ⟨hstart.changed, fun _ _ => rfl, by simp [ShareAnswer.about], by simp,
        ⟨[], rfl, accounted_noEdits⟩, by simp, by simp, by simp, gated_of_about rfl⟩
    exact ⟨⟨_, _, hmove⟩, hQ _ (.ended hinv rfl hmove)⟩
  · have hready := h.resolve_left fun h' => hfailed h'.1
    have hend : endTransaction answer = .commitTx answer := by
      cases answer with
      | failed => exact absurd rfl hfailed
      | _ => rfl
    rw [hend]
    refine wp_commitTx fun w' locked hr hinv _ => ?_
    obtain ⟨script, new, added, hopen, hdone, hcreated⟩ := hready.work
    have hopen' := hopen.rely hr hinv
    have hdone' := hdone.rely hopen.rows hr hinv
    have hcreated' := hcreated.rely hr
    have hmove : ShareMove rt collation ok l.held w' ⟨w'.db, answer, l.pending w'.db, locked⟩
        script new :=
      ⟨hopen'.rows.changed, hdone'.does, hdone'.about, hopen'.times,
        ⟨added, hopen'.audit _, hopen'.accounted⟩, hcreated'.fresh, hcreated'.alone,
        hcreated'.capped, hready.gated.rely hr⟩
    exact ⟨⟨_, _, hmove⟩, hQ _ (.ended hinv rfl hmove)⟩

/-- The rule for a transaction around a body. -/
lemma wp_transaction {body : ShareProg ShareAnswer} {t : ℕ}
    (hbody : ∀ w, History rt collation ok w → Open rt collation ok noEdits [] [] ⟨w.clock, ∅, id⟩ w →
      wp (shareProtocol rt collation ok) body
        (fun answer l' w' => answer = .failed ∧ History rt collation ok w' ∨
          Ready rt collation ok answer l' w') ⟨w.clock, ∅, id⟩ w)
    (hQ : ∀ t' w', History rt collation ok w' → Q () (.idle t') w') :
    wp (shareProtocol rt collation ok) (transaction body) Q (.idle t) w := by
  simp only [transaction, wp_bind]
  refine wp_beginTx fun w₁ _ hi₁ => ?_
  refine wp.mono ?_ _ (hbody w₁ hi₁ (Open.start hi₁ ∅))
  exact fun answer l' w' hready => wp_endTransaction hready (hQ l'.start)

/-- An answer outside a transaction. -/
lemma wp_commitTx_idle {t : ℕ} (h : answer.about = none)
    (hQ : ∀ t' w', History rt collation ok w' → Q () (.idle t') w') :
    wp (shareProtocol rt collation ok) (.commitTx answer) Q (.idle t) w := by
  refine wp_commitTx fun w' locked hr hinv _ => ?_
  have hmove : ShareMove rt collation ok ∅ w' ⟨w'.db, answer, w'.db, locked⟩ noEdits [] := by
    have hstart := Edits.Working.start shareEdits 0 ∅ w'
    exact ⟨hstart.changed, fun r _ => does_nil.2 (by simp [h]), by simp [h], by simp,
      ⟨[], rfl, accounted_noEdits⟩, by simp, by simp, by simp, gated_of_about h⟩
  exact ⟨⟨_, _, hmove⟩, hQ _ _ (.ended hinv rfl hmove)⟩

end ProjectVault.Shares
