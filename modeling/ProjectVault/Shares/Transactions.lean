import ProjectVault.Shares.Working

/-!
The transactions on shares keep their protocol.
-/

namespace ProjectVault.Shares

open Js Db

variable {rt : Runtime} {collation : Collation} {ok : ShareRequest → Prop}
  {script script' : ℕ → List ShareEdit} {new : List CredentialShare}
  {added added' : List ShareAudit} {l l' : Local ShareDb ShareLock} {w w' : ShareWorld}
  {share : CredentialShare}
variable {r : CredentialShare} {result : RevealResult} {answer : ShareAnswer}
  {A : ℕ → ShareEdit → Prop}

/-! ### Expiry -/

/-- A row has the terms under which its share was read. -/
lemma Seen.terms_play (h : Seen share w) (script : ℕ → List ShareEdit)
    (hfind : shareTable.find w.db share.id = some r) :
    (shareEdits.play script r).terms = share.terms := by
  obtain ⟨r', hfind', hterms⟩ := h
  obtain rfl := Option.some.inj (hfind.symm.trans hfind')
  exact (terms_run _ _).trans hterms

/-- The lazy expiry closes the share with its audit row, or does nothing. -/
lemma wp_lazilyExpireShareIfDue (h : Open rt collation ok script [] added l w) (hseen : Seen share w)
    {Q : SharePost CredentialShare}
    (hkept : ∀ l' w', Later (shareProtocol rt collation ok) l w l' w' →
      Open rt collation ok script [] added l' w' → Q share l' w')
    (hexpired : ∀ share' now added' l' w', Later (shareProtocol rt collation ok) l w l' w' →
      Open rt collation ok (Edits.addEdit script share.id (.expire now)) [] added' l' w' →
      share'.status = .expired → share'.terms = share.terms → Q share' l' w') :
    wp (shareProtocol rt collation ok) (lazilyExpireShareIfDue share) Q l w := by
  simp only [lazilyExpireShareIfDue, dateNow, wp_bind]
  refine h.wp_query fun w₁ hr₁ _ h₁ => ?_
  have hlater₁ : Later (shareProtocol rt collation ok) l w l w₁.bump :=
    Later.stmt hr₁ Set.Subset.rfl
  have hseen₁ : Seen share w₁.bump := hseen.rely hlater₁.rely
  split_ifs with hdue
  · exact hkept l _ hlater₁ h₁
  · simp only [not_or, not_not, not_lt] at hdue
    simp only [wp_bind]
    refine h₁.wp_updateShare (fun _ => .expire w₁.clock) (fun _ _ => rfl) ?_ ?_ ?_ ?_
    · intro w₂ r hr₂ _ hfind hcond
      have hterms := (hseen₁.rely hr₂).terms_play script hfind
      have hexp := congrArg CredentialShare.expiresAt hterms
      refine ⟨by simpa using hcond, ?_⟩
      change (shareEdits.play script r).expiresAt = share.expiresAt at hexp
      rw [hexp]
      exact hdue.2
    · rintro _ now heq
      cases heq
      exact le_rfl
    · intro w₂ hr₂ _ h₂
      exact hkept l _ (hlater₁.trans (Later.stmt hr₂ Set.Subset.rfl)) h₂
    · intro w₂ r l₂ hlater₂ hfind _ _ _ hedited
      have hterms := (hseen₁.rely (hlater₂.rely)).terms_play script (r := r) hfind
      simp only [wp_bind]
      have hid : ((ShareEdit.expire w₁.clock).apply (shareEdits.play script r)).id = share.id :=
        id_eq_of_terms ((terms_apply _ _).trans hterms)
      rw [hid]
      refine wp_writeAudit hedited.rows hedited.audit
        (fun t => h₁.accounted.audited rfl t) hedited.times hedited.started ?_
      intro l₃ w₃ t hlater₃ h₃
      exact hexpired _ _ _ l₃ w₃ (hlater₁.trans (hlater₂.trans hlater₃)) h₃ rfl
        ((terms_apply _ _).trans hterms)

/-! ### Losing attempts -/

/-- The lock of the attempt cap revokes the share with its audit row, unless it is
revoked. -/
lemma wp_lockShareAfterAttemptCap (h : Open rt collation ok script [] added l w) {id : ℕ}
    {reason : AttemptCapLockReason}
    {Q : SharePost (Option CredentialShare)}
    (hnone : ∀ l' w', Later (shareProtocol rt collation ok) l w l' w' →
      (∃ w₁, Rely (shareProtocol rt collation ok) l.held w w₁ ∧
        ∀ r, shareTable.find w₁.db id = some r → (shareEdits.play script r).status = .revoked) →
      Open rt collation ok script [] added l' w' → Q none l' w')
    (hlocked : ∀ share' now added' l' w', Later (shareProtocol rt collation ok) l w l' w' →
      Open rt collation ok (Edits.addEdit script id (.lock reason now)) [] added' l' w' →
      Q (some share') l' w') :
    wp (shareProtocol rt collation ok) (lockShareAfterAttemptCap id reason) Q l w := by
  simp only [lockShareAfterAttemptCap, dateNow, wp_bind]
  refine h.wp_query fun w₁ hr₁ _ h₁ => ?_
  have hlater₁ : Later (shareProtocol rt collation ok) l w l w₁.bump :=
    Later.stmt hr₁ Set.Subset.rfl
  refine h₁.wp_updateShare (fun _ => .lock reason w₁.clock) (fun _ _ => rfl) ?_ ?_ ?_ ?_
  · intro _ r _ _ _ hcond
    have hne : (shareEdits.play script r).status ≠ .revoked := by simpa using hcond
    exact hne
  · simp
  · intro w₂ hr₂ hcond h₂
    refine hnone l _ (hlater₁.trans (Later.stmt hr₂ Set.Subset.rfl)) ⟨w₂, hlater₁.rely.trans hr₂, ?_⟩ h₂
    exact fun r hfind => by simpa using hcond r hfind
  · intro w₂ r l₂ hlater₂ hfind _ _ _ hedited
    simp only [wp_bind, wp_pure]
    have hid : ((ShareEdit.lock reason w₁.clock).apply (shareEdits.play script r)).id = id := by
      exact (Edits.id_play (E := shareEdits) script r).trans (Table.find_eq_some hfind).2
    rw [hid]
    refine wp_writeAudit hedited.rows hedited.audit
      (fun t => h₁.accounted.audited rfl t) hedited.times hedited.started ?_
    intro l₃ w₃ t hlater₃ h₃
    exact hlocked _ _ _ l₃ w₃ (hlater₁.trans (hlater₂.trans hlater₃)) h₃

/-- The edits of a losing attempt. -/
def LosingEdit (_ : ℕ) (e : ShareEdit) : Prop :=
  (∃ now, e = .expire now) ∨ e = .attempt ∨ ∃ now, e = .lock .revealAttemptsExhausted now

/-- A losing attempt is counted, and closes the share when the cap is reached. -/
lemma wp_recordLosingAttempt (h : Open rt collation ok script [] added l w)
    {Q : SharePost Unit}
    (hQ : ∀ script' added' l' w', Open rt collation ok script' [] added' l' w' →
      Edits.Extends LosingEdit script script' → Q () l' w') :
    wp (shareProtocol rt collation ok) (recordLosingAttempt share) Q l w := by
  simp only [recordLosingAttempt, wp_bind]
  have hcap : ∀ {script₁ added₁ l₁ w₁} (current : CredentialShare),
      Open rt collation ok script₁ [] added₁ l₁ w₁ → Edits.Extends LosingEdit script script₁ →
      wp (shareProtocol rt collation ok)
        (if current.status ≠ .revoked ∧
            externalShareMaxRevealAttempts ≤ current.revealAttemptCount then do
          let _ ← lockShareAfterAttemptCap current.id .revealAttemptsExhausted
        else pure ()) Q l₁ w₁ := by
    intro script₁ added₁ l₁ w₁ current h₁ hext
    split_ifs with hfull
    · simp only [wp_bind, wp_pure]
      refine wp_lockShareAfterAttemptCap h₁ ?_ ?_
      · exact fun l₂ w₂ _ _ h₂ => hQ _ _ l₂ w₂ h₂ hext
      · intro share' now added₂ l₂ w₂ _ h₂
        exact hQ _ _ l₂ w₂ h₂ (hext.trans (.addEdit _ (.inr (.inr ⟨now, rfl⟩))))
    · exact hQ _ _ l₁ w₁ h₁ hext
  refine h.wp_updateShare (fun _ => .attempt) (fun _ _ => rfl) ?_ ?_ ?_ ?_
  · exact fun _ _ _ _ _ _ => trivial
  · simp
  · exact fun w₁ _ _ h₁ => hcap _ h₁ (Edits.Extends.refl _ _)
  · intro w₁ r l₁ _ _ _ _ _ hedited
    exact hcap _ (hedited.opened h.accounted rfl) (.addEdit _ (.inr (.inl rfl)))

/-! ### Ends that only edit -/

variable (rt collation ok) in
/-- The body of a transaction has answered. -/
def Ends (answer : ShareAnswer) (l : Local ShareDb ShareLock) (w : ShareWorld) : Prop :=
  answer = .failed ∧ History rt collation ok w ∨ Ready rt collation ok answer l w

/-- An answer that allows edits of one kind. -/
lemma ready_of_edits (h : Open rt collation ok script [] added l w)
    (hext : Edits.Extends A noEdits script)
    (hdoes : ∀ r es, (∀ e ∈ es, A r.id e) → answer.Does r es) (habout : answer.about = none) :
    Ends rt collation ok answer l w := by
  refine .inr ⟨⟨script, [], added, h, ⟨fun r _ => ?_, by simp [habout]⟩, created_nil⟩,
    gated_of_about habout⟩
  obtain ⟨es, hes, hA⟩ := hext r.id
  rw [hes, List.nil_append]
  exact hdoes r es hA

/-- An answer of a transaction that has edited nothing. -/
lemma ready_of_noEdits (h : Open rt collation ok noEdits [] added l w)
    (habout : answer.about = none) : Ends rt collation ok answer l w := by
  refine ready_of_edits (A := fun _ _ => False) h (Edits.Extends.refl _ _) ?_ habout
  intro r es hes
  have hnil : es = [] := List.eq_nil_iff_forall_not_mem.2 fun e he => hes e he
  rw [hnil, does_nil, habout]
  simp

/-- The edits of a lazy expiry. -/
def ExpireEdit (_ : ℕ) (e : ShareEdit) : Prop := ∃ now, e = .expire now

/-- The edits of a revocation. -/
def RevokeEdit (_ : ℕ) (e : ShareEdit) : Prop := ∃ now, e = .revoke now

/-- The edits of a promoted rotation. -/
def SupersedeEdit (_ : ℕ) (e : ShareEdit) : Prop := ∃ now, e = .supersede now

/-- The edits of many rows, one after another. -/
lemma wp_updateEach {cond : Ctx ShareDb → CredentialShare → Bool}
    {set : Ctx ShareDb → CredentialShare → CredentialShare} {e : ShareEdit}
    (hset : ∀ c r, set c r = e.apply r) (hguard : ∀ c r, cond c r = true → e.guard r)
    (hevent : e.event = none) (hA : ∀ id, A id e) {ids : List ℕ}
    (h : Open rt collation ok script [] added l w)
    {Q : SharePost (List CredentialShare)}
    (hQ : ∀ rows script' l' w', Open rt collation ok script' [] added l' w' →
      Edits.Extends A script script' → Q rows l' w') :
    wp (shareProtocol rt collation ok) (shareTable.updateEach cond set ids) Q l w := by
  induction ids generalizing script l w Q with
  | nil => exact hQ [] _ l w h (Edits.Extends.refl _ _)
  | cons id ids ih =>
    simp only [Table.updateEach, wp_bind, wp_pure]
    have hnow : ∀ c : Ctx ShareDb, ∀ now, (fun _ => e) c = .expire now → now ≤ w.clock := by
      rintro - now rfl
      simp [ShareEdit.event] at hevent
    refine h.wp_updateShare (fun _ => e) hset (fun w' r _ _ _ hc => hguard _ _ hc) hnow ?_ ?_
    · intro w₁ _ _ h₁
      exact ih h₁ fun rows script' l' w' h' hext => hQ _ _ _ _ h' hext
    · intro w₁ r l₁ _ _ _ _ _ hedited
      refine ih (hedited.opened h.accounted hevent) fun rows script' l' w' h' hext => ?_
      exact hQ _ _ _ _ h' ((Edits.Extends.addEdit script (hA id)).trans hext)

/-- The update of many rows. -/
lemma wp_updateShares {cond : Ctx ShareDb → CredentialShare → Bool}
    {set : Ctx ShareDb → CredentialShare → CredentialShare} {e : ShareEdit}
    (hset : ∀ c r, set c r = e.apply r) (hguard : ∀ c r, cond c r = true → e.guard r)
    (hevent : e.event = none) (hA : ∀ id, A id e) (h : Open rt collation ok script [] added l w)
    {Q : SharePost (List CredentialShare)}
    (hQ : ∀ rows script' l' w', Open rt collation ok script' [] added l' w' →
      Edits.Extends A script script' → Q rows l' w') :
    wp (shareProtocol rt collation ok) (updateShares cond set) Q l w := by
  simp only [updateShares, Table.updateRows, wp_bind]
  refine h.wp_query fun w₁ _ _ h₁ => ?_
  exact wp_updateEach hset hguard hevent hA h₁ hQ

/-! ### Closing a share -/

lemma ready_revokeShare (h : Open rt collation ok noEdits [] [] l w) (orgId credentialId shareId : ℕ) :
    wp (shareProtocol rt collation ok) (revokeShare orgId credentialId shareId)
      (Ends rt collation ok) l w := by
  simp only [revokeShare, dateNow, wp_bind]
  refine h.wp_query fun w₁ _ _ h₁ => ?_
  cases findShareInScope (l.ctx w₁).view orgId credentialId shareId with
  | none => exact ready_of_noEdits h₁ rfl
  | some existing =>
    simp only
    split_ifs with hstatus
    · exact ready_of_noEdits h₁ rfl
    · simp only [wp_bind]
      refine h₁.wp_query fun w₂ _ _ h₂ => ?_
      refine h₂.wp_updateShare (fun _ => .revoke w₂.clock) (fun _ _ => rfl) ?_ (by simp) ?_ ?_
      · intro _ r _ _ _ hcond
        have hactive : (shareEdits.play noEdits r).status = .active := by simpa using hcond
        exact hactive
      · intro w₃ _ _ h₃
        simp only [wp_bind]
        refine h₃.wp_query fun w₄ _ _ h₄ => ?_
        cases findShareInScope (l.ctx w₄).view orgId credentialId shareId with
        | none => exact ready_of_noEdits h₄ rfl
        | some current => exact ready_of_noEdits h₄ rfl
      · intro w₃ r l₃ _ _ _ _ _ hedited
        exact ready_of_edits (A := RevokeEdit) (hedited.opened h₂.accounted rfl)
          (.addEdit _ ⟨_, rfl⟩) (fun _ _ hes => hes) rfl

lemma ready_autoRevoke (h : Open rt collation ok noEdits [] [] l w) (orgId userId : ℕ) :
    wp (shareProtocol rt collation ok) (autoRevokeSharesForDeactivatedUser orgId userId)
      (Ends rt collation ok) l w := by
  simp only [autoRevokeSharesForDeactivatedUser, dateNow, wp_bind, wp_pure]
  refine h.wp_query fun w₁ _ _ h₁ => ?_
  refine wp_updateShares (A := RevokeEdit) (e := .revoke w₁.clock) (fun _ _ => rfl) ?_ rfl
    (fun _ => ⟨_, rfl⟩) h₁ ?_
  · intro c r hcond
    simp only [Bool.and_eq_true, decide_eq_true_eq] at hcond
    exact hcond.2
  · exact fun rows script' l' w' h' hext => ready_of_edits h' hext (fun _ _ hes => hes) rfl

lemma ready_supersedeShares (h : Open rt collation ok noEdits [] [] l w) (params : SupersedeParams) :
    wp (shareProtocol rt collation ok) (supersedeShares params) (Ends rt collation ok) l w := by
  simp only [supersedeShares, dateNow, wp_bind, wp_pure]
  refine h.wp_query fun w₁ _ _ h₁ => ?_
  refine wp_updateShares (A := SupersedeEdit) (e := .supersede w₁.clock) (fun _ _ => rfl) ?_ rfl
    (fun _ => ⟨_, rfl⟩) h₁ ?_
  · intro c r hcond
    simp only [supersedeWhere, Bool.and_eq_true] at hcond
    exact hcond.1.2
  · exact fun rows script' l' w' h' hext => ready_of_edits h' hext (fun _ _ hes => hes) rfl

lemma mem_of_row {d : ShareDb} {id : ℕ} (h : d.row id = some r) :
    r ∈ d.shares :=
  (Table.find_eq_some (T := shareTable) h).1

lemma ready_expireOneShare (h : Open rt collation ok noEdits [] [] l w) (shareId : ℕ) :
    wp (shareProtocol rt collation ok) (expireOneShare shareId) (Ends rt collation ok) l w := by
  simp only [expireOneShare, wp_bind]
  refine h.wp_query fun w₁ _ hw₁ h₁ => ?_
  cases hrow : (l.ctx w₁).view.row shareId with
  | none => exact ready_of_noEdits h₁ rfl
  | some row =>
    have hseen : Seen row w₁.bump := hw₁.seen (mem_of_row hrow)
    simp only
    split_ifs with hstatus
    · exact ready_of_noEdits h₁ rfl
    · simp only [wp_bind, wp_pure]
      refine wp_lazilyExpireShareIfDue h₁ hseen ?_ ?_
      · exact fun l₂ w₂ _ h₂ => ready_of_noEdits h₂ rfl
      · intro share' now added' l₂ w₂ _ h₂ _ _
        exact ready_of_edits (A := ExpireEdit) h₂ (.addEdit _ ⟨now, rfl⟩)
          (fun _ _ hes => hes) rfl

lemma ready_externalMetadata (h : Open rt collation ok noEdits [] [] l w) (shareId : ℕ) :
    wp (shareProtocol rt collation ok) (externalMetadata shareId) (Ends rt collation ok) l w := by
  simp only [externalMetadata, wp_bind]
  refine h.wp_query fun w₁ _ hw₁ h₁ => ?_
  cases hrow : (l.ctx w₁).view.row shareId with
  | none => exact ready_of_noEdits h₁ rfl
  | some row =>
    have hseen : Seen row w₁.bump := hw₁.seen (mem_of_row hrow)
    simp only [wp_bind, wp_pure]
    refine wp_lazilyExpireShareIfDue h₁ hseen ?_ ?_
    · exact fun l₂ w₂ _ h₂ => ready_of_noEdits h₂ rfl
    · intro share' now added' l₂ w₂ _ h₂ _ _
      exact ready_of_edits (A := ExpireEdit) h₂ (.addEdit _ ⟨now, rfl⟩)
        (fun _ _ hes => hes) rfl

lemma ready_applyDeferredLosingAttempt (h : Open rt collation ok noEdits [] [] l w) (shareId : ℕ)
    (expireIfDue : Bool) :
    wp (shareProtocol rt collation ok) (applyDeferredLosingAttempt shareId expireIfDue)
      (Ends rt collation ok) l w := by
  simp only [applyDeferredLosingAttempt, wp_bind]
  refine h.wp_query fun w₁ _ hw₁ h₁ => ?_
  cases hrow : (l.ctx w₁).view.row shareId with
  | none => exact ready_of_noEdits h₁ rfl
  | some fresh =>
    have hseen : Seen fresh w₁.bump := hw₁.seen (mem_of_row hrow)
    cases expireIfDue with
    | false =>
      simp only [Bool.false_eq_true, if_false, wp_bind, wp_pure]
      refine wp_recordLosingAttempt h₁ fun script' added' l' w' h' hext => ?_
      exact ready_of_edits h' hext (fun _ _ hes => hes) rfl
    | true =>
      simp only [if_true, wp_bind, wp_pure]
      refine wp_lazilyExpireShareIfDue h₁ hseen ?_ ?_
      · intro l₂ w₂ _ h₂
        refine wp_recordLosingAttempt h₂ fun script' added' l' w' h' hext => ?_
        exact ready_of_edits h' hext (fun _ _ hes => hes) rfl
      · intro share' now added₂ l₂ w₂ _ h₂ _ _
        refine wp_recordLosingAttempt h₂ fun script' added' l' w' h' hext => ?_
        exact ready_of_edits h'
          ((Edits.Extends.addEdit _ (.inl ⟨now, rfl⟩)).trans hext) (fun _ _ hes => hes) rfl

/-! ### Reveals -/

/-- A reveal that shows nothing. -/
def RevealResult.NotOk (result : RevealResult) : Prop :=
  ∀ share bounded gate, result ≠ .ok share bounded gate

lemma RevealResult.NotOk.does (h : result.NotOk) {es : List ShareEdit}
    (hes : ∀ e ∈ es, ExpireEdit r.id e) : (ShareAnswer.reveal result).Does r es := by
  cases result with
  | ok share bounded gate => exact absurd rfl (h share bounded gate)
  | _ => exact hes

lemma RevealResult.NotOk.about (h : result.NotOk) :
    (ShareAnswer.reveal result).about = none := by
  cases result with
  | ok share bounded gate => exact absurd rfl (h share bounded gate)
  | _ => rfl

/-- A reveal that shows nothing has at most expired the share. -/
lemma RevealResult.NotOk.ready (hnot : result.NotOk) (h : Open rt collation ok script [] added l w)
    (hext : Edits.Extends ExpireEdit noEdits script) :
    Ends rt collation ok (.reveal result) l w :=
  ready_of_edits h hext (fun _ _ hes => hnot.does hes) hnot.about

/-- The lookup of a member: a refusal, or a share that may have been expired. -/
lemma wp_findShareByToken (h : Open rt collation ok noEdits [] [] l w) (orgId tokenHash user : ℕ)
    {Q : SharePost (Except RevealResult CredentialShare)}
    (herror : ∀ refusal l' w', refusal.NotOk → Open rt collation ok noEdits [] [] l' w' →
      Q (.error refusal) l' w')
    (hok : ∀ share script added l' w', Open rt collation ok script [] added l' w' → Seen share w' →
      share.recipientUserId = some user → Edits.Extends ExpireEdit noEdits script →
      (share.status ≠ .expired → script = noEdits ∧ added = []) → Q (.ok share) l' w') :
    wp (shareProtocol rt collation ok) (findShareByToken orgId tokenHash user) Q l w := by
  simp only [findShareByToken, wp_bind]
  refine h.wp_query fun w₁ _ hw₁ h₁ => ?_
  cases hrow : (l.ctx w₁).view.byToken (some orgId) tokenHash with
  | none => exact herror _ l _ (by simp [RevealResult.NotOk]) h₁
  | some row =>
    have hmem : row ∈ (l.ctx w₁).view.shares :=
      List.mem_of_find?_eq_some (Option.filter_eq_some_iff.1 hrow).1
    have hseen : Seen row w₁.bump := hw₁.seen hmem
    simp only
    split_ifs with huser
    · exact herror _ l _ (by simp [RevealResult.NotOk]) h₁
    · simp only [wp_bind, wp_pure]
      have huser' : row.recipientUserId = some user := by simpa using huser
      refine wp_lazilyExpireShareIfDue h₁ hseen ?_ ?_
      · intro l₂ w₂ hlater h₂
        exact hok row _ _ l₂ w₂ h₂ (hseen.rely hlater.rely) huser' (Edits.Extends.refl _ _)
          fun _ => ⟨rfl, rfl⟩
      · intro share' now added' l₂ w₂ hlater h₂ hexpired hterms
        refine hok share' _ _ l₂ w₂ h₂ ((hseen.rely hlater.rely).congr hterms) ?_
          (.addEdit _ ⟨now, rfl⟩) fun hne => absurd hexpired hne
        have := congrArg CredentialShare.recipientUserId hterms
        exact this.trans huser'

/-- The checks before a claim: a refusal, or a share that has not been expired. -/
lemma wp_precheckShareClaimable (h : Open rt collation ok script [] added l w) (hseen : Seen share w)
    (hext : Edits.Extends ExpireEdit noEdits script) (orgId user : ℕ)
    {Q : SharePost (Option RevealResult)}
    (hsome : ∀ blocked script' added' l' w', blocked.NotOk →
      Open rt collation ok script' [] added' l' w' → Edits.Extends ExpireEdit noEdits script' →
      Q (some blocked) l' w')
    (hnone : ∀ l' w', Later (shareProtocol rt collation ok) l w l' w' →
      Open rt collation ok script [] added l' w' → share.status ≠ .expired → Q none l' w') :
    wp (shareProtocol rt collation ok) (precheckShareClaimable orgId user share) Q l w := by
  simp only [precheckShareClaimable, readVault, dateNow, wp_bind]
  refine h.wp_query fun w₁ hr₁ _ h₁ => ?_
  have hlater₁ : Later (shareProtocol rt collation ok) l w l w₁.bump :=
    Later.stmt hr₁ Set.Subset.rfl
  split_ifs with hmember hrevoked hexpired
  · exact hsome _ _ _ l _ (by simp [RevealResult.NotOk]) h₁ hext
  · exact hsome _ _ _ l _ (by simp [RevealResult.NotOk]) h₁ hext
  · exact hsome _ _ _ l _ (by simp [RevealResult.NotOk]) h₁ hext
  · simp only [wp_bind]
    refine h₁.wp_query fun w₂ hr₂ _ h₂ => ?_
    have hlater₂ := hlater₁.trans (Later.stmt hr₂ Set.Subset.rfl)
    split_ifs with hdue
    · simp only [wp_bind, wp_pure]
      refine wp_lazilyExpireShareIfDue h₂ (hseen.rely hlater₂.rely) ?_ ?_
      · exact fun l₃ w₃ _ h₃ => hsome _ _ _ l₃ w₃ (by simp [RevealResult.NotOk]) h₃ hext
      · intro share' now added' l₃ w₃ _ h₃ _ _
        exact hsome _ _ _ l₃ w₃ (by simp [RevealResult.NotOk]) h₃
          (hext.trans (.addEdit _ ⟨now, rfl⟩))
    · exact hnone l _ hlater₂ h₂ fun hst => hexpired (.inl hst)

lemma wp_serializeBoundedTx (h : Open rt collation ok script [] added l w)
    {Q : SharePost (Except VaultError SerializeBoundedResult)}
    (hQ : ∀ res w', Rely (shareProtocol rt collation ok) l.held w w' →
      Open rt collation ok script [] added l w' → Q res l w') :
    wp (shareProtocol rt collation ok) (serializeBoundedTx rt share) Q l w := by
  simp only [serializeBoundedTx, readVault, wp_bind, wp_pure]
  refine h.wp_query fun w₁ hr₁ _ h₁ => h₁.wp_query fun w₂ hr₂ _ h₂ =>
    h₂.wp_query fun w₃ hr₃ _ h₃ => h₃.wp_query fun w₄ hr₄ _ h₄ => h₄.wp_query fun w₅ hr₅ _ h₅ => ?_
  refine hQ _ _ ?_ h₅
  exact hr₁.trans ((World.bump_rely _).trans (hr₂.trans ((World.bump_rely _).trans
    (hr₃.trans ((World.bump_rely _).trans (hr₄.trans ((World.bump_rely _).trans
      (hr₅.trans (World.bump_rely _)))))))))

/-- The edits of a transaction that has changed one row. -/
lemma done_of_edits {id : ℕ} {es : List ShareEdit} (h : Open rt collation ok script [] added l w)
    (hscript : ∀ n, script n = if n = id then es else []) (hfind : shareTable.find w.db id = some r)
    (hdoes : answer.Does r es) (habout : answer.about = some id) : Done answer script w := by
  have hid : r.id = id := (Table.find_eq_some hfind).2
  refine ⟨fun r' hmem => ?_, ?_⟩
  · rw [hscript]
    by_cases hr' : r'.id = id
    · rw [if_pos hr']
      have hfind' := Table.find_of_mem h.history.keyed.nodup hmem
      have hfind'' : shareTable.find w.db r'.id = some r' := hfind'
      rw [hr', hfind] at hfind''
      exact Option.some.inj hfind'' ▸ hdoes
    · rw [if_neg hr', does_nil, habout]
      exact fun heq => hr' (Option.some.inj heq).symm
  · intro id' hid'
    rw [habout] at hid'
    cases hid'
    exact Table.find_isSome_iff.1 ⟨r, hfind⟩

lemma addEdit_noEdits (id : ℕ) (e : ShareEdit) (n : ℕ) :
    Edits.addEdit noEdits id e n = if n = id then [e] else [] :=
  rfl

/-- A claim of a share, by one edit of an active row. -/
def ClaimPost (rt : Runtime) (collation : Collation) (ok : ShareRequest → Prop) (id : ℕ)
    (added : List ShareAudit) (l : Local ShareDb ShareLock) (w : ShareWorld)
    (claimed : Option CredentialShare) (l' : Local ShareDb ShareLock) (w' : ShareWorld) : Prop :=
  Later (shareProtocol rt collation ok) l w l' w' ∧ match claimed with
    | none => Open rt collation ok noEdits [] added l' w'
    | some claimed => ∃ r e, shareTable.find w'.db id = some r ∧ claimed = e.apply r ∧
        ((∃ now, e = .view now) ∨ ∃ now, e = .viewAgain now) ∧
        Open rt collation ok (Edits.addEdit noEdits id e) [] added l' w'

lemma wp_claimSingleUseView (h : Open rt collation ok noEdits [] added l w) (id : ℕ) :
    wp (shareProtocol rt collation ok) (claimSingleUseView id) (ClaimPost rt collation ok id added l w)
      l w := by
  simp only [claimSingleUseView, dateNow, wp_bind]
  refine h.wp_query fun w₁ hr₁ _ h₁ => ?_
  have hlater₁ : Later (shareProtocol rt collation ok) l w l w₁.bump :=
    Later.stmt hr₁ Set.Subset.rfl
  refine h₁.wp_updateShare (fun _ => .view w₁.clock) (fun _ _ => rfl) ?_ (by simp) ?_ ?_
  · intro _ r _ _ _ hcond
    have hactive : (shareEdits.play noEdits r).status = .active := by simpa using hcond
    exact hactive
  · exact fun w₂ hr₂ _ h₂ => ⟨hlater₁.trans (Later.stmt hr₂ Set.Subset.rfl), h₂⟩
  · intro w₂ r l₂ hlater₂ hfind _ _ _ hedited
    exact ⟨hlater₁.trans hlater₂, r, _, hfind, rfl, .inl ⟨_, rfl⟩, hedited.opened h₁.accounted rfl⟩

lemma wp_recordMultiView (h : Open rt collation ok noEdits [] added l w) (hseen : Seen share w)
    (hmulti : share.singleUse = false) :
    wp (shareProtocol rt collation ok) (recordMultiView share.id)
      (ClaimPost rt collation ok share.id added l w) l w := by
  refine h.wp_updateShare (fun c => .viewAgain c.start) (fun _ _ => rfl) ?_ (by simp) ?_ ?_
  · intro w₁ r hr₁ _ hfind hcond
    have hterms := (hseen.rely hr₁).terms_play noEdits hfind
    have husage := congrArg CredentialShare.singleUse hterms
    exact ⟨of_decide_eq_true hcond, husage.trans hmulti⟩
  · exact fun w₁ hr₁ _ h₁ => ⟨Later.stmt hr₁ Set.Subset.rfl, h₁⟩
  · intro w₁ r l₁ hlater hfind _ _ _ hedited
    exact ⟨hlater, r, _, hfind, rfl, .inr ⟨_, rfl⟩, hedited.opened h.accounted rfl⟩

lemma resolveLostClaim_notOk (h : Open rt collation ok noEdits [] added l w)
    (orgId credentialId shareId : ℕ) :
    wp (shareProtocol rt collation ok) (resolveLostClaim orgId credentialId shareId)
      (fun result l' w' => result.NotOk ∧ Open rt collation ok noEdits [] added l' w') l w := by
  simp only [resolveLostClaim, wp_bind]
  refine h.wp_query fun w₁ _ _ h₁ => ?_
  cases findShareInScope (l.ctx w₁).view orgId credentialId shareId with
  | none => exact ⟨by simp [RevealResult.NotOk], h₁⟩
  | some current =>
    simp only
    split_ifs with hrevoked hexpired
    · exact ⟨by simp [RevealResult.NotOk], h₁⟩
    · exact ⟨by simp [RevealResult.NotOk], h₁⟩
    · exact ⟨by simp [RevealResult.NotOk], h₁⟩

/-- The columns of a claimed row are those of the share that was read. -/
lemma verificationRequired_apply (e : ShareEdit) (r : CredentialShare) :
    (e.apply r).verificationRequired = r.verificationRequired := by
  have hterms := congrArg CredentialShare.verificationRequired (terms_apply e r)
  exact hterms

lemma does_claim {e : ShareEdit} (hview : (∃ now, e = .view now) ∨ ∃ now, e = .viewAgain now)
    (bounded : SerializeBoundedResult) (gate : Option (ℕ × ℕ)) :
    (ShareAnswer.reveal (.ok (e.apply r) bounded gate)).Does r [e] := by
  have hid : (e.apply r).id = r.id := id_eq_of_terms (terms_apply e r)
  simp only [ShareAnswer.Does, hid, if_true]
  rcases hview with ⟨now, rfl⟩ | ⟨now, rfl⟩
  · exact ⟨now, .inl rfl, rfl⟩
  · exact ⟨now, .inr rfl, rfl⟩

/-- What a member's reveal does after its claim. -/
lemma ready_claimed {user : ℕ} (hseen : Seen share w) (huser : share.recipientUserId = some user)
    {claimed : Option CredentialShare} (hpost : ClaimPost rt collation ok share.id [] l w claimed l' w')
    (orgId : ℕ) (bounded : SerializeBoundedResult) :
    wp (shareProtocol rt collation ok)
      (match claimed with
        | none => do return .reveal (← resolveLostClaim orgId share.credentialId share.id)
        | some claimed => pure (.reveal (.ok claimed bounded none)))
      (Ends rt collation ok) l' w' := by
  obtain ⟨hlater, hpost⟩ := hpost
  cases claimed with
  | none =>
    simp only [wp_bind, wp_pure]
    refine wp.mono ?_ _ (resolveLostClaim_notOk hpost _ _ _)
    exact fun result l₅ w₅ ⟨hnot, h₅⟩ => hnot.ready h₅ (Edits.Extends.refl _ _)
  | some claimed =>
    obtain ⟨r, e, hfind, rfl, hview, h₄⟩ := hpost
    have hterms := (hseen.rely hlater.rely).terms_play noEdits hfind
    have hid : (e.apply r).id = share.id := id_eq_of_terms ((terms_apply e r).trans hterms)
    refine .inr ⟨⟨_, [], _, h₄, ?_, created_nil⟩, ?_⟩
    · exact done_of_edits h₄ (addEdit_noEdits _ _) hfind (does_claim hview _ _) (congrArg some hid)
    · -- a share of a member asks for no proof
      rintro claimed bounded' gate hanswer hreq
      cases hanswer
      have huser' := congrArg CredentialShare.recipientUserId hterms
      have hmember := h₄.history.member r (Table.find_eq_some hfind).1
      change r.recipientUserId = share.recipientUserId at huser'
      rw [huser', huser] at hmember
      rw [verificationRequired_apply, hmember (by simp)] at hreq
      exact absurd hreq (by simp)

/-- The claim of a member's reveal. -/
lemma ready_claim {user : ℕ} (h : Open rt collation ok noEdits [] [] l w) (hseen : Seen share w)
    (huser : share.recipientUserId = some user) (orgId : ℕ) (bounded : SerializeBoundedResult) :
    wp (shareProtocol rt collation ok)
      (do
        match ← if share.singleUse then claimSingleUseView share.id
            else recordMultiView share.id with
        | none => return .reveal (← resolveLostClaim orgId share.credentialId share.id)
        | some claimed => return .reveal (.ok claimed bounded none))
      (Ends rt collation ok) l w := by
  split_ifs with hsingle
  · rw [wp_bind]
    refine wp.mono ?_ _ (wp_claimSingleUseView h share.id)
    exact fun claimed l' w' hpost => ready_claimed hseen huser hpost orgId bounded
  · rw [wp_bind]
    refine wp.mono ?_ _ (wp_recordMultiView h hseen (by simpa using hsingle))
    exact fun claimed l' w' hpost => ready_claimed hseen huser hpost orgId bounded

lemma ready_revealShare (h : Open rt collation ok noEdits [] [] l w) (orgId tokenHash user : ℕ) :
    wp (shareProtocol rt collation ok) (revealShare rt orgId tokenHash user) (Ends rt collation ok)
      l w := by
  simp only [revealShare, wp_bind]
  refine wp_findShareByToken h orgId tokenHash user ?_ ?_
  · exact fun refusal l' w' hnot h' => hnot.ready h' (Edits.Extends.refl _ _)
  · intro share script added l₁ w₁ h₁ hseen huser hext hkept
    simp only [wp_bind]
    refine wp_precheckShareClaimable h₁ hseen hext orgId user ?_ ?_
    · exact fun blocked script' added' l' w' hnot h' hext' => hnot.ready h' hext'
    · intro l₂ w₂ hlater₂ h₂ hne
      obtain ⟨rfl, rfl⟩ := hkept hne
      simp only [wp_bind]
      refine wp_serializeBoundedTx h₂ fun res w₃ hr₃ h₃ => ?_
      have hseen₃ : Seen share w₃ := (hseen.rely hlater₂.rely).rely hr₃
      cases res with
      | error e => exact .inl ⟨rfl, h₃.history⟩
      | ok res =>
        cases res with
        | notFound =>
          exact RevealResult.NotOk.ready (by simp [RevealResult.NotOk]) h₃
            (Edits.Extends.refl _ _)
        | value value => exact ready_claim h₃ hseen₃ huser orgId _
        | fields fields => exact ready_claim h₃ hseen₃ huser orgId _

lemma ready_memberMetadata (h : Open rt collation ok noEdits [] [] l w) (orgId tokenHash user : ℕ) :
    wp (shareProtocol rt collation ok) (memberMetadata orgId tokenHash user) (Ends rt collation ok)
      l w := by
  simp only [memberMetadata, wp_bind]
  refine wp_findShareByToken h orgId tokenHash user ?_ ?_
  · exact fun refusal l' w' _ h' => ready_of_noEdits h' rfl
  · intro share script added l₁ w₁ h₁ _ _ hext _
    exact ready_of_edits h₁ hext (fun _ _ hes => hes) rfl

lemma terminalRevealStatusFor_notOk {status : ShareStatus}
    (h : terminalRevealStatusFor status = some result) : result.NotOk := by
  cases status with
  | active => simp [terminalRevealStatusFor] at h
  | viewed => simp [terminalRevealStatusFor] at h
  | _ =>
    cases h
    simp [RevealResult.NotOk]

lemma precheckExternalShareClaimable_notOk {now : ℕ} {outcome : RevealOutcome}
    (h : precheckExternalShareClaimable share now = some outcome) :
    ∃ result, outcome.1 = .reveal result ∧ result.NotOk := by
  unfold precheckExternalShareClaimable at h
  cases hterminal : terminalRevealStatusFor share.status with
  | some terminal =>
    rw [hterminal] at h
    cases h
    exact ⟨terminal, rfl, terminalRevealStatusFor_notOk hterminal⟩
  | none =>
    rw [hterminal] at h
    simp only at h
    split_ifs at h
    · cases h
      exact ⟨_, rfl, by simp [RevealResult.NotOk]⟩
    · cases h
      exact ⟨_, rfl, by simp [RevealResult.NotOk]⟩

/-- What an external reveal has read of its share. -/
lemma Open.row (h : Open rt collation ok noEdits [] added l w) (id : ℕ) :
    (l.ctx w).view.row id = shareTable.find w.db id := by
  have hfind := h.rows.find (n := id) (by simp)
  change shareTable.find (l.pending w.db) id = _
  rw [hfind]
  cases shareTable.find w.db id with
  | none => rfl
  | some r => rfl

lemma ready_claimExternal (h : Open rt collation ok noEdits [] [] l w) (hseen : Seen share w)
    (bounded : SerializeBoundedResult) (gate : Option (ℕ × ℕ))
    (hgate : share.verificationRequired = true →
      ∃ older, older <:+ w.log ∧ ∃ r, rowAfter older share.id = some r ∧ ∃ proof checkedAt,
        gate = some (proof, checkedAt) ∧ hasValidVerificationProof r (some proof) checkedAt = true) :
    wp (shareProtocol rt collation ok)
      (do
        match ← claimSingleUseView share.id with
        | none => resolveLostExternalClaim share
        | some claimed => do
            writeAudit claimed.id .viewed
            return (.reveal (.ok claimed bounded gate), none))
      (fun outcome => Ends rt collation ok outcome.1) l w := by
  rw [wp_bind]
  refine wp.mono ?_ _ (wp_claimSingleUseView h share.id)
  rintro claimed l₁ w₁ ⟨hlater, hpost⟩
  cases claimed with
  | none =>
    simp only [resolveLostExternalClaim, wp_bind, wp_pure]
    refine Open.wp_query hpost fun w₂ _ _ h₂ => ?_
    refine RevealResult.NotOk.ready ?_ h₂ (Edits.Extends.refl _ _)
    cases hterminal : terminalRevealStatusFor
        (((l₁.ctx w₂).view.row share.id).getD share).status with
    | none => simp [RevealResult.NotOk]
    | some terminal => exact terminalRevealStatusFor_notOk hterminal
  | some claimed =>
    obtain ⟨r, e, hfind, rfl, hview, h₁⟩ := hpost
    have hterms := (hseen.rely hlater.rely).terms_play noEdits hfind
    have hid : (e.apply r).id = share.id := id_eq_of_terms ((terms_apply e r).trans hterms)
    simp only [wp_bind, wp_pure]
    refine wp_writeAudit h₁.rows h₁.audit (fun t => h₁.accounted.viewed _ t) h₁.times h₁.started
      fun l₂ w₂ t hlater₂ h₂ => ?_
    have hdone : Done (.reveal (.ok (e.apply r) bounded gate)) (Edits.addEdit noEdits share.id e)
        w₁ :=
      done_of_edits h₁ (addEdit_noEdits _ _) hfind (does_claim hview _ _) (congrArg some hid)
    refine .inr ⟨⟨_, [], _, h₂, hdone.rely h₁.rows hlater₂.rely h₂.history, created_nil⟩, ?_⟩
    rintro claimed bounded' gate' hanswer hreq
    cases hanswer
    have hreq' := congrArg CredentialShare.verificationRequired hterms
    change r.verificationRequired = share.verificationRequired at hreq'
    rw [verificationRequired_apply, hreq'] at hreq
    obtain ⟨older, hsuffix, r', hr', hrest⟩ := hgate hreq
    refine ⟨older, ?_, r', hid ▸ hr', hrest⟩
    exact hsuffix.trans
      ((log_suffix_of_rely hlater.rely).trans (log_suffix_of_rely hlater₂.rely))

/-- A valid proof has been shown. -/
lemma isSome_of_valid {proof : Option ℕ} {now : ℕ}
    (h : hasValidVerificationProof share proof now = true) : ∃ p, proof = some p := by
  unfold hasValidVerificationProof at h
  split at h
  · simp at h
  · split_ifs at h
    simp only [Bool.and_eq_true] at h
    exact Option.isSome_iff_exists.1 h.1

lemma ready_revealExternalBody (h : Open rt collation ok noEdits [] [] l w) (shareId : ℕ)
    (proof : Option ℕ) :
    wp (shareProtocol rt collation ok) (revealExternalBody rt shareId proof)
      (fun outcome => Ends rt collation ok outcome.1) l w := by
  simp only [revealExternalBody, dateNow, wp_bind]
  refine h.wp_query fun w₁ _ hw₁ h₁ => ?_
  cases hrow : (l.ctx w₁).view.row shareId with
  | none => exact RevealResult.NotOk.ready (by simp [RevealResult.NotOk]) h₁ (Edits.Extends.refl _ _)
  | some current =>
    -- the row that is read is the one the log has left
    have hlogged : rowAfter w₁.log current.id = some current := by
      have hfind := hw₁.row shareId
      rw [hrow] at hfind
      have hid : current.id = shareId := (Table.find_eq_some hfind.symm).2
      rw [← hw₁.history.row_eq, hid]
      exact hfind.symm
    simp only [wp_bind]
    refine h₁.wp_query fun w₂ hr₂ _ h₂ => ?_
    by_cases hgate : (current.verificationRequired &&
        !hasValidVerificationProof current proof (l.ctx w₂).clock) = true
    · rw [if_pos hgate]
      exact RevealResult.NotOk.ready (by simp [RevealResult.NotOk]) h₂ (Edits.Extends.refl _ _)
    · rw [if_neg hgate]
      simp only [wp_bind]
      refine h₂.wp_query fun w₃ hr₃ _ h₃ => ?_
      cases hpre : precheckExternalShareClaimable current (l.ctx w₃).clock with
      | some outcome =>
        obtain ⟨result, hresult, hnot⟩ := precheckExternalShareClaimable_notOk hpre
        simp only [wp_pure, hresult]
        exact hnot.ready h₃ (Edits.Extends.refl _ _)
      | none =>
        simp only [wp_bind]
        refine wp_serializeBoundedTx h₃ fun res w₄ hr₄ h₄ => ?_
        have hr₁₄ : Rely (shareProtocol rt collation ok) l.held w₁ w₄ :=
          (World.bump_rely _).trans (hr₂.trans ((World.bump_rely _).trans (hr₃.trans
            ((World.bump_rely _).trans hr₄))))
        have hseen : Seen current w₄ := (hw₁.seen (mem_of_row hrow)).rely hr₁₄
        have hproof : current.verificationRequired = true →
            ∃ older, older <:+ w₄.log ∧ ∃ r, rowAfter older current.id = some r ∧
              ∃ p checkedAt, (if current.verificationRequired = true then
                proof.map fun p => (p, (l.ctx w₂).clock) else none) = some (p, checkedAt) ∧
              hasValidVerificationProof r (some p) checkedAt = true := by
          intro hreq
          simp only [hreq, Bool.true_and, Bool.not_eq_true', Bool.not_eq_false] at hgate
          obtain ⟨p, rfl⟩ := isSome_of_valid hgate
          exact ⟨w₁.log, log_suffix_of_rely hr₁₄, current, hlogged, p, (l.ctx w₂).clock,
            by rw [if_pos hreq]; rfl, hgate⟩
        cases res with
        | error e => exact .inl ⟨rfl, h₄.history⟩
        | ok res =>
          cases res with
          | notFound =>
            exact RevealResult.NotOk.ready (by simp [RevealResult.NotOk]) h₄
              (Edits.Extends.refl _ _)
          | value value => exact ready_claimExternal h₄ hseen _ _ hproof
          | fields fields => exact ready_claimExternal h₄ hseen _ _ hproof

/-! ### Verification -/

/-- The rule for a change of one row that an answer tells. -/
lemma ready_of_row {id : ℕ} (es : List ShareEdit) (h : Open rt collation ok script [] added l w)
    (hscript : ∀ n, script n = if n = id then es else []) (hfind : shareTable.find w.db id = some r)
    (hdoes : answer.Does r es) (habout : answer.about = some id) (hgated : Gated answer w) :
    Ends rt collation ok answer l w :=
  .inr ⟨⟨script, [], added, h, done_of_edits h hscript hfind hdoes habout, created_nil⟩, hgated⟩

lemma ready_send (h : Open rt collation ok noEdits [] [] l w) (shareId code : ℕ) :
    wp (shareProtocol rt collation ok)
      (do
        match ← updateShare shareId
            (fun c s => verifiableShareCondition c.start s && sendAllowed c.start s)
            (fun c s => s.sent code c.start) with
        | none => return .notSent
        | some updated => return .sent updated.id code)
      (Ends rt collation ok) l w := by
  rw [wp_bind]
  refine h.wp_updateShare (fun c => .send code c.start) (fun _ _ => rfl) ?_ (by simp) ?_ ?_
  · intro w₁ r _ _ _ hcond
    simp only [Bool.and_eq_true] at hcond
    exact hcond
  · exact fun w₁ _ _ h₁ => ready_of_noEdits h₁ rfl
  · intro w₁ r l₁ hlater hfind _ _ _ hedited
    have hid : r.id = shareId := (Table.find_eq_some hfind).2
    have hopen := hedited.opened h.accounted rfl
    refine ready_of_row _ hopen (addEdit_noEdits _ _) hfind ?_ (congrArg some hid) ?_
    · exact (if_pos (rfl : r.id = r.id)).mpr ⟨_, rfl⟩
    · rintro share bounded gate hanswer
      cases hanswer

/-- After its reservation a confirm stores the proof, or counts and locks. -/
lemma ready_confirmBody (h : Open rt collation ok noEdits [] [] l w) (shareId code : ℕ) :
    wp (shareProtocol rt collation ok) (confirmBody shareId code) (Ends rt collation ok) l w := by
  simp only [confirmBody, wp_bind]
  refine h.wp_updateShare (fun c => .reserve c.start) (fun _ _ => rfl) ?_ (by simp) ?_ ?_
  · intro w₁ r _ _ _ hcond
    simp only [Bool.and_eq_true] at hcond
    exact hcond
  · exact fun w₁ _ _ h₁ => ready_of_noEdits h₁ rfl
  · intro w₁ r l₁ hlater hfind hcond hlock hstart hedited
    have hid : r.id = shareId := (Table.find_eq_some hfind).2
    have hopen := hedited.opened h.accounted rfl
    have hreserved : ((ShareEdit.reserve (l.ctx w₁).start).apply
        (shareEdits.play noEdits r)).id = shareId := hid
    simp only [hreserved]
    split_ifs with hcode hfull
    · -- the code is the one in the row
      simp only [wp_bind, wp_pure]
      refine hopen.wp_query fun w₂ hr₂ _ h₂ => ?_
      have hlocked : ∀ {w₃}, Rely (shareProtocol rt collation ok) l₁.held w₂.bump w₃ →
          shareTable.find w₃.db shareId = some r := by
        intro w₃ hr₃
        rw [shareProtocol_respected.find_eq_of_rely
          (hr₂.trans ((World.bump_rely _).trans hr₃)) hlock]
        exact hfind
      refine h₂.wp_updateShare (fun c => .verify (l₁.ctx w₂).seq c.start) (fun _ _ => rfl)
        (fun _ _ _ _ _ _ => trivial) (by simp) ?_ ?_
      · intro w₃ hr₃ hnone _
        exact absurd (hnone r (hlocked hr₃)) (by simp)
      · intro w₃ r' l₃ hlater₃ hfind' _ _ _ hedited'
        have hnow : (l₁.ctx w₃).start = (l.ctx w₁).start := hstart
        have hopen' := hedited'.opened h₂.accounted rfl
        refine ready_of_row [.reserve (l.ctx w₁).start, .verify (l₁.ctx w₂).seq
            (l₁.ctx w₃).start] hopen' ?_ (hlocked hlater₃.rely) ?_ rfl ?_
        · intro n
          by_cases hn : n = shareId
          · subst hn
            simp [Edits.addEdit_self]
          · simp [Edits.addEdit_of_ne _ _ hn, hn]
        · simp only [ShareAnswer.Does, hid, if_true]
          exact ⟨hcode, _, by rw [hnow]⟩
        · rintro share bounded gate hanswer
          cases hanswer
    · -- the last attempt locks the share
      simp only [wp_bind, wp_pure]
      have hactive : r.status = .active := by
        simp only [verifiableShareCondition, Bool.and_eq_true, decide_eq_true_eq] at hcond
        exact hcond.1.1.1.1.2
      have hlocked : ∀ {w₃}, Rely (shareProtocol rt collation ok) l₁.held w₁.bump w₃ →
          shareTable.find w₃.db shareId = some r := by
        intro w₃ hr₃
        rw [shareProtocol_respected.find_eq_of_rely hr₃ hlock]
        exact hfind
      refine wp_lockShareAfterAttemptCap hopen ?_ ?_
      · rintro l₂ w₂ _ ⟨w₃, hr₃, hrevoked⟩ _
        have hst := hrevoked r (hlocked hr₃)
        have hplay : (shareEdits.play (Edits.addEdit noEdits shareId
            (.reserve (l.ctx w₁).start)) r).status = r.status := by
          rw [Edits.play_addEdit]
          split_ifs <;> rfl
        rw [hplay, hactive] at hst
        exact absurd hst (by simp)
      · intro share' now added' l₂ w₂ hlater₂ h₂
        refine ready_of_row [.reserve (l.ctx w₁).start,
          .lock .verificationAttemptsExhausted now] h₂ ?_ (hlocked hlater₂.rely) ?_ rfl ?_
        · intro n
          by_cases hn : n = shareId
          · subst hn
            simp [Edits.addEdit_self]
          · simp [Edits.addEdit_of_ne _ _ hn, hn]
        · simp only [ShareAnswer.Does, hid, if_true]
          exact ⟨_, (if_pos hfull).mpr ⟨now, rfl⟩⟩
        · rintro share bounded gate hanswer
          cases hanswer
    · refine ready_of_row _ hopen (addEdit_noEdits _ _) hfind ?_ rfl ?_
      · simp only [ShareAnswer.Does, hid, if_true]
        exact ⟨_, (if_neg hfull).mpr rfl⟩
      · rintro share bounded gate hanswer
        cases hanswer

/-! ### Creations -/

/-- A refused creation has changed nothing. -/
lemma wp_preflight (h : Open rt collation ok noEdits [] [] l w) (request : ShareRequest)
    {Q : SharePost (Option CreateRefusal)}
    (hQ : ∀ res w', Open rt collation ok noEdits [] [] l w' → Q res l w') :
    wp (shareProtocol rt collation ok) (preflightCredentialForShareCreation request) Q l w := by
  simp only [preflightCredentialForShareCreation, readVault, wp_bind]
  refine h.wp_query fun w₁ _ _ h₁ => ?_
  split_ifs
  · exact hQ _ _ h₁
  · simp only [wp_bind]
    refine wp_either fun b => ?_
    cases b with
    | true => exact hQ _ _ h₁
    | false =>
      simp only [Bool.false_eq_true, if_false, wp_bind]
      refine h₁.wp_query fun w₂ _ _ h₂ => ?_
      split_ifs
      · exact hQ _ _ h₂
      · exact hQ _ _ h₂

/-- An accepted scope has been validated. -/
lemma wp_validate (h : Open rt collation ok noEdits [] [] l w) (request : ShareRequest)
    (maxTtlMs : ℕ)
    {Q : SharePost (Except CreateRefusal (Option String × Option (List String)))}
    (herror : ∀ e w', Open rt collation ok noEdits [] [] l w' → Q (.error e) l w')
    (hok : ∀ field keys s s' w', validateFieldKey rt s request.credentialId request.fieldKey = .ok field →
      validateAttributeKeys rt collation s' request.credentialId request.attributeKeys = .ok keys →
      Open rt collation ok noEdits [] [] l w' → Q (.ok (field, keys)) l w') :
    wp (shareProtocol rt collation ok) (validateShareFieldAndExpiry rt collation request maxTtlMs) Q
      l w := by
  simp only [validateShareFieldAndExpiry, readVault, dateNow, wp_bind]
  refine h.wp_query fun w₁ _ _ h₁ => ?_
  cases hfield : validateFieldKey rt (l.ctx w₁).view.vault request.credentialId request.fieldKey with
  | error e => exact herror _ _ h₁
  | ok field =>
    simp only [wp_bind]
    refine h₁.wp_query fun w₂ _ _ h₂ => ?_
    cases hkeys : validateAttributeKeys rt collation (l.ctx w₂).view.vault request.credentialId
        request.attributeKeys with
    | error e => exact herror _ _ h₂
    | ok keys =>
      simp only
      split_ifs with hboth
      · exact herror _ _ h₂
      · simp only [wp_bind]
        refine h₂.wp_query fun w₃ _ _ h₃ => ?_
        split_ifs
        · exact herror _ _ h₃
        · exact herror _ _ h₃
        · exact hok field keys _ _ _ hfield hkeys h₃

/-- The end of a creation. -/
lemma ready_created (h : Open rt collation ok noEdits new [] l w)
    (hcreated : Created rt collation ok new l.held w) (id : ℕ) :
    Ends rt collation ok (.created id) l w :=
  .inr ⟨⟨noEdits, new, [], h, ⟨fun _ _ => rfl, by simp [ShareAnswer.about]⟩, hcreated⟩,
    gated_of_about rfl⟩

/-- A new row in an open transaction. -/
lemma Open.wp_insertShare (h : Open rt collation ok noEdits [] [] l w)
    {values : Ctx ShareDb → CredentialShare} (hid : ∀ c, (values c).id = c.seq)
    {Q : SharePost CredentialShare}
    (hQ : ∀ w' l', Later (shareProtocol rt collation ok) l w l' w'.bump →
      Open rt collation ok noEdits [values (l.ctx w')] [] l' w'.bump →
      Q (values (l.ctx w')) l' w'.bump) :
    wp (shareProtocol rt collation ok) (insertShare values) Q l w := by
  refine h.rows.wp_insertRow shareProtocol_respected (fun w hw => History.keyed hw) hid ?_
  rintro w' l' hr hinv rfl hw
  exact hQ w' _ (Later.stmt hr (l.held_wrote _ _))
    ⟨History.bump hinv, hw, h.audit, accounted_noEdits, fun _ _ hmem => by simp at hmem,
      h.started.trans hr.le.2⟩

lemma ready_createCredentialShare (h : Open rt collation ok noEdits [] [] l w) (request : ShareRequest)
    (recipientUserId : ℕ) (singleUse : Bool) :
    wp (shareProtocol rt collation ok)
      (createCredentialShare rt collation request recipientUserId singleUse) (Ends rt collation ok)
      l w := by
  simp only [createCredentialShare, readVault, wp_bind]
  refine wp_preflight h request fun res w₁ h₁ => ?_
  cases res with
  | some refusal => exact ready_of_noEdits h₁ rfl
  | none =>
    split_ifs with hself
    · exact ready_of_noEdits h₁ rfl
    · simp only [wp_bind]
      refine h₁.wp_query fun w₂ _ _ h₂ => ?_
      cases findActiveOrgMembership (l.ctx w₂).view.vault request.orgId recipientUserId with
      | none => exact ready_of_noEdits h₂ rfl
      | some status =>
        simp only
        split_ifs with hinactive
        · exact ready_of_noEdits h₂ rfl
        · simp only [wp_bind]
          refine wp_validate h₂ request shareMaxTtlMs ?_ ?_
          · exact fun e w₃ h₃ => ready_of_noEdits h₃ rfl
          · intro field keys s s' w₃ _ _ h₃
            simp only
            cases ShareScope.of? field keys with
            | none => exact .inl ⟨rfl, h₃.history⟩
            | some scope =>
              simp only [wp_bind, wp_pure]
              refine h₃.wp_insertShare (fun _ => rfl) fun w₄ l₄ _ h₄ => ?_
              refine ready_created h₄ ⟨?_, le_rfl, ?_⟩ _
              · intro r hr
                obtain rfl := List.mem_singleton.1 hr
                exact ⟨rfl, fun _ => rfl⟩
              · intro r hr hext
                obtain rfl := List.mem_singleton.1 hr
                simp [baseShareInsertValues] at hext

lemma ShareScope.of?_eq_some {field : Option String} {keys : Option (List String)} {scope : ShareScope}
    (h : ShareScope.of? field keys = some scope) :
    scope.fieldKey = field ∧ scope.attributeKeys = keys := by
  unfold ShareScope.of? at h
  split_ifs at h
  cases h
  exact ⟨rfl, rfl⟩

/-- A row with an accepted scope, under the lock of its bucket. -/
lemma capped_of_scope {request : ShareRequest} {scope : ShareScope} {held : Set ShareLock}
    {before : ShareDb} {s s' : Store} {start : ℕ} (hcred : r.credentialId = request.credentialId)
    (hscope : r.scope = scope) (hallowed : ok request)
    (hfield : validateFieldKey rt s request.credentialId request.fieldKey = .ok scope.fieldKey)
    (hkeys : validateAttributeKeys rt collation s' request.credentialId request.attributeKeys =
      .ok scope.attributeKeys) (hlock : .cap request.credentialId
      (lockSuffix (bucketKeys scope.fieldKey scope.attributeKeys)) ∈ held)
    (hstart : start ≤ w.clock) (hcount : before.shares.countP (isPending request.credentialId
      (bucketKeys scope.fieldKey scope.attributeKeys) start) < maxPendingExternalSharesPerField) :
    Capped rt collation ok held w before r request := by
  subst hscope
  rw [← hcred] at hfield hkeys hlock hcount
  exact ⟨hallowed, ⟨s, hfield⟩, ⟨s', hkeys⟩, hlock, start, hstart, hcount⟩

lemma ready_createExternal (h : Open rt collation ok noEdits [] [] l w) {request : ShareRequest}
    (hallowed : ok request) (hostCreated : Bool) (actingUserId : Option ℕ) :
    wp (shareProtocol rt collation ok)
      (createExternalCredentialShare rt collation request hostCreated actingUserId)
      (Ends rt collation ok) l w := by
  simp only [createExternalCredentialShare, wp_bind]
  refine wp_preflight h request fun res w₁ h₁ => ?_
  cases res with
  | some refusal => exact ready_of_noEdits h₁ rfl
  | none =>
    simp only [wp_bind]
    refine wp_validate h₁ request externalShareMaxTtlMs ?_ ?_
    · exact fun e w₂ h₂ => ready_of_noEdits h₂ rfl
    · intro field keys s s' w₂ hfield hkeys h₂
      simp only [wp_bind]
      refine wp_lock fun w₃ hr₃ hi₃ => ?_
      have h₃ := h₂.rely hr₃ hi₃
      have hlock : ShareLock.cap request.credentialId (lockSuffix (bucketKeys field keys)) ∈
          (l.wrote [.cap request.credentialId (lockSuffix (bucketKeys field keys))]
            (id : ShareDb → ShareDb)).held :=
        Or.inr (List.mem_singleton.2 rfl)
      have hw₃ : Open rt collation ok noEdits [] []
          (l.wrote [.cap request.credentialId (lockSuffix (bucketKeys field keys))] id) w₃.bump :=
        ⟨h₃.history.bump, (h₃.rows.wrote _ fun _ => rfl).bump, h₃.audit, h₃.accounted,
          fun _ _ hmem => by simp at hmem, h₃.started⟩
      generalize l.wrote [.cap request.credentialId (lockSuffix (bucketKeys field keys))]
        (id : ShareDb → ShareDb) = l₃ at hlock hw₃ ⊢
      refine hw₃.wp_query fun w₄ _ hw₄ h₄ => ?_
      by_cases hfull : maxPendingExternalSharesPerField ≤ (l₃.ctx w₄).view.shares.countP
          (isPending request.credentialId (bucketKeys field keys) (l₃.ctx w₄).start)
      · rw [if_pos hfull]
        exact ready_of_noEdits h₄ rfl
      · rw [if_neg hfull]
        cases hscope : ShareScope.of? field keys with
        | none => exact .inl ⟨rfl, h₄.history⟩
        | some scope =>
          obtain ⟨rfl, rfl⟩ := ShareScope.of?_eq_some hscope
          simp only [wp_bind, wp_pure]
          -- the transaction sees the committed rows, which it has not edited
          have hview : (l₃.ctx w₄).view.shares = w₄.db.shares := by
            have hpending := hw₄.rows.pending w₄.db
            have hplay : shareEdits.play noEdits = id := by
              funext r
              rfl
            rw [hplay, List.map_id, List.append_nil] at hpending
            exact hpending
          rw [hview, not_le] at hfull
          refine h₄.wp_insertShare (fun _ => rfl) fun w₅ l₅ hlater₅ h₅ => ?_
          refine ready_created h₅ ⟨?_, le_rfl, ?_⟩ _
          · intro r hr
            obtain rfl := List.mem_singleton.1 hr
            exact ⟨rfl, fun hne => absurd rfl hne⟩
          · intro r hr _
            obtain rfl := List.mem_singleton.1 hr
            have hrely : Rely (shareProtocol rt collation ok) _ w₄ w₅.bump :=
              (World.bump_rely w₄).trans hlater₅.rely
            have hcount := (countP_isPending_of_rely hrely (bucketKeys_ne_nil scope)
              hlock).trans_lt hfull
            exact ⟨request, capped_of_scope rfl rfl hallowed hfield hkeys (hlater₅.held hlock)
              (hw₄.started.trans hrely.le.2) hcount⟩

/-! ### Calls -/

/-- The external creations of a run satisfy a condition. -/
def ShareCall.Allowed (ok : ShareRequest → Prop) : ShareCall → Prop
  | .createExternal request _ _ => ok request
  | _ => True

/-- **Agreement**: every call keeps the protocol. -/
theorem keeps_shareCall :
    Keeps (shareProtocol rt collation ok) (shareCall rt collation) (ShareCall.Allowed ok) := by
  intro call hallowed t w hinv
  have hdone : ∀ (t' : ℕ) (w' : ShareWorld), History rt collation ok w' → True := fun _ _ _ => trivial
  cases call with
  | create request recipientUserId singleUse =>
    exact wp_transaction (fun w _ h => ready_createCredentialShare h request recipientUserId singleUse)
      hdone
  | createExternal request hostCreated actingUserId =>
    exact wp_transaction (fun w _ h => ready_createExternal h hallowed hostCreated actingUserId) hdone
  | metadata orgId tokenHash sessionUserId =>
    exact wp_transaction (fun w _ h => ready_memberMetadata h orgId tokenHash sessionUserId) hdone
  | externalMetadata tokenHash =>
    simp only [shareCall, findExternalShareByTokenHash, wp_bind]
    refine wp_query fun w₁ _ _ => ?_
    cases (Local.ctx (.idle t) w₁).view.adminLookup tokenHash with
    | none => exact wp_commitTx_idle rfl hdone
    | some row =>
      simp only
      split_ifs
      · exact wp_commitTx_idle rfl hdone
      · exact wp_transaction (fun w _ h => ready_externalMetadata h row.id) hdone
  | reveal orgId tokenHash sessionUserId =>
    exact wp_transaction (fun w _ h => ready_revealShare h orgId tokenHash sessionUserId) hdone
  | revealExternal tokenHash proof =>
    simp only [shareCall, revealExternalShare, wp_bind]
    refine wp_query fun w₁ _ _ => ?_
    cases (Local.ctx (.idle t) w₁).view.adminLookup tokenHash with
    | none => exact wp_commitTx_idle rfl hdone
    | some row =>
      simp only
      split_ifs
      · exact wp_commitTx_idle rfl hdone
      · simp only [wp_bind]
        refine wp_beginTx fun w₂ _ hi₂ => ?_
        refine wp.mono ?_ _ (ready_revealExternalBody (Open.start hi₂ ∅) row.id proof)
        rintro ⟨answer, deferred⟩ l₃ w₃ hends
        simp only
        refine wp_endTransaction hends fun w₄ hi₄ => ?_
        cases deferred with
        | none => trivial
        | some d =>
          exact wp_transaction
            (fun w _ h => ready_applyDeferredLosingAttempt h d.shareId d.expireIfDue) hdone
  | revoke orgId credentialId shareId =>
    exact wp_transaction (fun w _ h => ready_revokeShare h orgId credentialId shareId) hdone
  | autoRevoke orgId userId =>
    exact wp_transaction (fun w _ h => ready_autoRevoke h orgId userId) hdone
  | sweep shareId => exact wp_transaction (fun w _ h => ready_expireOneShare h shareId) hdone
  | supersede params => exact wp_transaction (fun w _ h => ready_supersedeShares h params) hdone
  | requestVerification tokenHash =>
    simp only [shareCall, requestExternalShareVerification, wp_bind]
    refine wp_query fun w₁ _ _ => ?_
    cases (Local.ctx (.idle t) w₁).view.adminLookup tokenHash with
    | none => exact wp_commitTx_idle rfl hdone
    | some row =>
      simp only
      split_ifs
      · simp only [sendVerificationCode, wp_bind]
        refine wp_query fun w₂ _ _ => ?_
        exact wp_transaction (fun w _ h => ready_send h row.id _) hdone
      · exact wp_commitTx_idle rfl hdone
  | confirmVerification tokenHash code =>
    simp only [shareCall, confirmExternalShareVerification, wp_bind]
    refine wp_query fun w₁ _ _ => ?_
    cases (Local.ctx (.idle t) w₁).view.adminLookup tokenHash with
    | none => exact wp_commitTx_idle rfl hdone
    | some row =>
      simp only
      split_ifs
      · exact wp_commitTx_idle rfl hdone
      · exact wp_transaction (fun w _ h => ready_confirmBody h row.id code) hdone
  | credentials vault =>
    refine wp_transaction (fun w _ h => ?_) hdone
    simp only [wp_bind, wp_pure]
    refine wp_update fun w₁ hr₁ hi₁ => ?_
    have h₁ := h.rely hr₁ hi₁
    have hopen : Open rt collation ok noEdits [] [] (Local.wrote ⟨w.clock, ∅, id⟩ []
        fun d => { d with vault }) w₁.bump :=
      ⟨h₁.history.bump, (h₁.rows.wrote [] fun d =>
          (rfl : shareTable.rows ({ d with vault } : ShareDb) = shareTable.rows d)).bump,
        h₁.audit, h₁.accounted, fun _ _ hmem => by simp at hmem, h₁.started⟩
    exact ready_of_noEdits hopen rfl

/-- Every state of a run has a history. -/
theorem history_of_reaches {vault : Store} {seq clock : ℕ}
    {admitted : State ShareDb ShareLock ShareAnswer → Label ShareCall → Prop}
    (hadmitted : ∀ s i call, admitted s (.opens i call) → call.Allowed ok)
    {s : State ShareDb ShareLock ShareAnswer}
    (h : (shareSessions rt collation vault seq clock).Reaches admitted s) :
    History rt collation ok s.world :=
  (Sound.of_reaches keeps_shareCall hadmitted (.start vault seq clock) h fun _ _ => trivial).inv

end ProjectVault.Shares
