import ProjectVault.Shares.Transactions

/-!
The life of a share over all interleavings of the calls.
-/

namespace ProjectVault.Shares

open Js Db

variable {rt : Runtime} {collation : Collation} {ok : ShareRequest → Prop} {w : ShareWorld}
variable {r : CredentialShare} {es : List ShareEdit}

/-! ### Edits of one row -/

/-- The edits of a kind take away what no edit gives back. -/
structure Spends (kind : ShareEvent → Bool) (Live : CredentialShare → Prop) : Prop where
  unviewed : kind .viewed = false
  kept : ∀ (e : ShareEdit) (r : CredentialShare), e.guard r → ¬ Live r → ¬ Live (e.apply r)
  spent : ∀ (e : ShareEdit) (r : CredentialShare), e.event.any kind = true → e.guard r →
    Live r ∧ ¬ Live (e.apply r)

/-- They are made at most once. -/
lemma editCount_le {kind : ShareEvent → Bool} {Live : CredentialShare → Prop}
    (hs : Spends kind Live) (h : shareEdits.Applied es r) :
    editCount es kind ≤ 1 ∧ (¬ Live r → editCount es kind = 0) ∧
      (Live (shareEdits.run es r) → editCount es kind = 0) := by
  induction es generalizing r with
  | nil => simp [editCount]
  | cons e es ih =>
    obtain ⟨hle, hdead, hlive⟩ := ih h.2
    have hcons : editCount (e :: es) kind =
        editCount es kind + if e.event.any kind = true then 1 else 0 := List.countP_cons
    by_cases hkind : e.event.any kind = true
    · obtain ⟨hr, hr'⟩ := hs.spent e r hkind h.1
      have hzero := hdead hr'
      have hrun : ¬ Live (shareEdits.run es (e.apply r)) :=
        h.2.keeps (I := fun r => ¬ Live r) (fun e' _ r' => hs.kept e' r') hr'
      rw [hcons, hzero, if_pos hkind]
      exact ⟨le_rfl, fun hnot => absurd hr hnot, fun hl => absurd hl hrun⟩
    · rw [hcons, if_neg hkind]
      exact ⟨hle, fun hnot => hdead (hs.kept e r h.1 hnot), hlive⟩

/-- Expiries. -/
def isExpired (event : ShareEvent) : Bool := event = .expired

lemma spends_expired : Spends isExpired fun r => r.status = .active where
  unviewed := rfl
  kept e r hguard hr := status_apply_ne_active hguard hr
  spent e r hkind hguard := by
    cases e with
    | expire now => exact ⟨hguard.1, by simp [ShareEdit.apply]⟩
    | _ => simp [ShareEdit.event, isExpired] at hkind

lemma mem_of_editCount_pos (h : 0 < editCount es isExpired) :
    ∃ now, .expire now ∈ es := by
  obtain ⟨e, he, hkind⟩ := List.countP_pos_iff.1 h
  cases e with
  | expire now => exact ⟨now, he⟩
  | _ => simp [ShareEdit.event, isExpired] at hkind

lemma editCount_pos_of_mem {now : ℕ} (h : .expire now ∈ es) :
    0 < editCount es isExpired :=
  List.countP_pos_iff.2 ⟨_, h, by simp [ShareEdit.event, isExpired]⟩

/-- Only an expiry leaves the status `expired`. -/
lemma expire_mem_of_run (hr : r.status ≠ .expired) (hrun : (shareEdits.run es r).status = .expired)
    : ∃ now, .expire now ∈ es := by
  by_contra hnone
  refine absurd hrun ?_
  induction es generalizing r with
  | nil => exact hr
  | cons e es ih =>
    refine ih ?_ hrun (fun ⟨now, hmem⟩ => hnone ⟨now, List.mem_cons_of_mem e hmem⟩)
    cases e with
    | expire now => exact absurd ⟨now, List.mem_cons_self⟩ hnone
    | view now => simp [shareEdits, ShareEdit.apply]
    | revoke now => simp [shareEdits, ShareEdit.apply]
    | supersede now => simp [shareEdits, ShareEdit.apply, CredentialShare.superseded]
    | lock reason now => simp [shareEdits, ShareEdit.apply, CredentialShare.locked]
    | _ => exact hr

lemma due_of_mem (h : shareEdits.Applied es r) {now : ℕ} (hmem : .expire now ∈ es) :
    r.status = .active ∧ r.expiresAt ≤ now := by
  obtain ⟨es₁, es₂, rfl⟩ := List.append_of_mem hmem
  obtain ⟨h₁, h₂⟩ := Edits.applied_append.1 h
  obtain ⟨hactive, hdue⟩ : (shareEdits.run es₁ r).status = .active ∧
      (shareEdits.run es₁ r).expiresAt ≤ now := h₂.1
  have hexp := congrArg CredentialShare.expiresAt (terms_run es₁ r)
  change (shareEdits.run es₁ r).expiresAt = r.expiresAt at hexp
  refine ⟨?_, hexp ▸ hdue⟩
  by_contra hr
  exact status_run_ne_active h₁ hr hactive

/-- Nothing but one expiry. -/
lemma eq_of_expireEdits (h : shareEdits.Applied es r) (hes : ∀ e ∈ es, ExpireEdit r.id e) :
    es = [] ∨ ∃ now, es = [.expire now] := by
  cases es with
  | nil => exact .inl rfl
  | cons e es =>
    obtain ⟨now, rfl⟩ := hes e List.mem_cons_self
    cases es with
    | nil => exact .inr ⟨now, rfl⟩
    | cons e' es =>
      obtain ⟨now', rfl⟩ := hes e' (List.mem_cons_of_mem _ List.mem_cons_self)
      have hactive : (ShareEdit.apply (.expire now) r).status = .active := h.2.1.1
      simp [ShareEdit.apply] at hactive

/-- After its expiry a losing attempt can only lock the share. -/
lemma status_of_losing (h : shareEdits.Applied es r) (hes : ∀ e ∈ es, LosingEdit r.id e) {now : ℕ}
    (hmem : .expire now ∈ es) :
    (shareEdits.run es r).status = .expired ∨
      (shareEdits.run es r).status = .revoked ∧ (shareEdits.run es r).lockedAt.isSome = true := by
  obtain ⟨es₁, es₂, rfl⟩ := List.append_of_mem hmem
  obtain ⟨-, h₂⟩ := Edits.applied_append.1 h
  rw [Edits.run_append]
  refine h₂.2.keeps (I := fun r => r.status = .expired ∨
    r.status = .revoked ∧ r.lockedAt.isSome = true) ?_ (.inl rfl)
  intro e he r' hguard hr'
  rcases hes e (List.mem_append_right _ (List.mem_cons_of_mem _ he)) with
    ⟨now', rfl⟩ | rfl | ⟨now', rfl⟩
  · exact .inl rfl
  · exact hr'
  · exact .inr ⟨rfl, rfl⟩

/-! ### The life of a share -/

/-- The share an answer opens. -/
def ShareAnswer.opened : ShareAnswer → Option CredentialShare
  | .reveal (.ok share _ _) => some share
  | _ => none

/-- The transaction opens the share. -/
def opens (id : ℕ) (ev : ShareEnd) : Bool := ev.answer.opened.any fun s => s.id = id

/-- The transaction opens the share, which is for single use. -/
def opensSingle (id : ℕ) (ev : ShareEnd) : Bool :=
  ev.answer.opened.any fun s => s.id = id && s.singleUse

/-- The share is there and no longer active. -/
def closedIn (id : ℕ) (d : ShareDb) : Prop := ∃ r, d.row id = some r ∧ r.status ≠ .active

/-- The share is there and expired. -/
def expiredIn (id : ℕ) (d : ShareDb) : Prop := ∃ r, d.row id = some r ∧ r.status = .expired

/-- The audit rows about the expiry of a share. -/
def expiredRows (id : ℕ) (d : ShareDb) : ℕ := auditCount d.audit id isExpired

/-- What a reveal that shows nothing does to a share, at the latest at `clock`. -/
def FailedRevealKeeps (clock id : ℕ) (ev : ShareEnd) : Prop :=
  ∀ result, ev.answer = .reveal result → result.NotOk → ∀ r, ev.before.row id = some r →
    ∃ r', ev.after.row id = some r' ∧ r'.viewCount = r.viewCount ∧
      (r'.status = r.status ∨ r.status = .active ∧ r'.status = .expired ∧ r.expiresAt ≤ clock)

/-- A transaction audits the expiry of a share if it expires it, and only then; a losing
attempt may have locked it at once. -/
structure ExpiryAudited (clock id : ℕ) (ev : ShareEnd) : Prop where
  row : ¬ expiredIn id ev.before → expiredIn id ev.after →
    expiredRows id ev.after = expiredRows id ev.before + 1
  expiry : expiredRows id ev.after ≠ expiredRows id ev.before →
    ∃ r, ev.before.row id = some r ∧ r.status = .active ∧ r.expiresAt ≤ clock ∧
      (expiredIn id ev.after ∨ ev.answer = .losingAttempt ∧
        ∃ r', ev.after.row id = some r' ∧ r'.status = .revoked ∧ r'.lockedAt.isSome = true)

/-- The life of a share in a run. -/
structure LifecycleKept (w : ShareWorld) (id : ℕ) : Prop where
  once : w.log.countP (opensSingle id) ≤ 1
  shut : w.log.Pairwise fun newer older => closedIn id older.after → opens id newer = false
  closed : w.log.Pairwise fun newer older => closedIn id older.after → closedIn id newer.after
  failed : ∀ ev ∈ w.log, FailedRevealKeeps w.clock id ev
  audited : ∀ ev ∈ w.log, ExpiryAudited w.clock id ev
  alone : expiredRows id w.db ≤ 1

/-! ### What one transaction keeps -/

variable {held : Set ShareLock} {ev : ShareEnd} {script : ℕ → List ShareEdit}
  {new : List CredentialShare} {id : ℕ}

namespace ShareMove

lemma row_after (h : ShareMove rt collation ok held w ev script new) {r : CredentialShare}
    (hr : ev.before.row id = some r) :
    ev.after.row id = some (shareEdits.run (script id) r) ∧ shareEdits.Applied (script id) r ∧
      ev.answer.Does r (script id) := by
  obtain ⟨hmem, hid⟩ := Table.find_eq_some hr
  have hid' : r.id = id := hid
  refine ⟨?_, hid' ▸ h.changed.applied r hmem, hid' ▸ h.does r hmem⟩
  have hafter := h.changed.find_of_some hr
  rw [Edits.play, hid] at hafter
  exact hafter

lemma closed (h : ShareMove rt collation ok held w ev script new) (hclosed : closedIn id ev.before) :
    closedIn id ev.after := by
  obtain ⟨r, hr, hstatus⟩ := hclosed
  obtain ⟨hafter, happlied, -⟩ := h.row_after hr
  exact ⟨_, hafter, status_run_ne_active happlied hstatus⟩

lemma opened (h : ShareMove rt collation ok held w ev script new) {share : CredentialShare}
    (hopened : ev.answer.opened = some share) :
    ∃ r, ev.before.row share.id = some r ∧ r.status = .active ∧
      ev.after.row share.id = some share ∧ (share.singleUse = true → share.status = .viewed) := by
  obtain ⟨bounded, gate, hanswer⟩ : ∃ bounded gate, ev.answer = .reveal (.ok share bounded gate) := by
    cases hev : ev.answer with
    | reveal result =>
      rw [hev] at hopened
      cases result with
      | ok share' bounded gate =>
        cases hopened
        exact ⟨bounded, gate, rfl⟩
      | _ => simp [ShareAnswer.opened] at hopened
    | _ =>
      rw [hev] at hopened
      simp [ShareAnswer.opened] at hopened
  obtain ⟨r, hr⟩ := Table.find_isSome_iff.2 (h.about share.id (by rw [hanswer]; rfl))
  obtain ⟨hafter, happlied, hdoes⟩ := h.row_after hr
  have hid : share.id = r.id := (Table.find_eq_some hr).2.symm
  rw [hanswer] at hdoes
  simp only [ShareAnswer.Does, if_pos hid] at hdoes
  obtain ⟨now, hes, hshare⟩ := hdoes
  refine ⟨r, hr, ?_, hafter.trans (congrArg some hshare.symm), fun hsingle => ?_⟩
  · rcases hes with hes | hes
    · rw [hes] at happlied
      exact happlied.1
    · rw [hes] at happlied
      exact happlied.1.1
  · rcases hes with hes | hes
    · rw [hshare, hes]
      rfl
    · -- a share for single use is not opened as one for several views
      have hmulti : r.singleUse = false := by
        rw [hes] at happlied
        exact happlied.1.2
      have hterms := congrArg CredentialShare.singleUse (terms_run (script share.id) r)
      change (shareEdits.run (script share.id) r).singleUse = r.singleUse at hterms
      rw [← hshare, hsingle, hmulti] at hterms
      simp at hterms

lemma opens_eq_false (h : ShareMove rt collation ok held w ev script new)
    (hclosed : closedIn id ev.before) : opens id ev = false := by
  cases hopened : ev.answer.opened with
  | none => simp [opens, hopened]
  | some share =>
    obtain ⟨r, hr, hactive, -⟩ := h.opened hopened
    have hne : share.id ≠ id := by
      rintro rfl
      obtain ⟨r', hr', hstatus⟩ := hclosed
      obtain rfl := Option.some.inj (hr.symm.trans hr')
      exact hstatus hactive
    simp [opens, hopened, hne]

/-- A share for single use is closed when it has been opened. -/
lemma closed_of_opensSingle (h : ShareMove rt collation ok held w ev script new)
    (hopens : opensSingle id ev = true) : closedIn id ev.after := by
  cases hopened : ev.answer.opened with
  | none => simp [opensSingle, hopened] at hopens
  | some share =>
    simp only [opensSingle, hopened, Option.any_some, Bool.and_eq_true, decide_eq_true_eq] at hopens
    obtain ⟨rfl, hsingle⟩ := hopens
    obtain ⟨-, -, -, hafter, hviewed⟩ := h.opened hopened
    exact ⟨share, hafter, by simp [hviewed hsingle]⟩

lemma failed (h : ShareMove rt collation ok held w ev script new) : FailedRevealKeeps w.clock id ev := by
  intro result hanswer hnot r hr
  obtain ⟨hafter, happlied, hdoes⟩ := h.row_after hr
  have hes : ∀ e ∈ script id, ExpireEdit r.id e := by
    rw [hanswer] at hdoes
    cases result with
    | ok share bounded gate => exact absurd rfl (hnot share bounded gate)
    | _ => exact hdoes
  refine ⟨_, hafter, ?_⟩
  rcases eq_of_expireEdits happlied hes with hnil | ⟨now, hone⟩
  · rw [hnil]
    exact ⟨rfl, .inl rfl⟩
  · rw [hone] at happlied ⊢
    exact ⟨rfl, .inr ⟨happlied.1.1, rfl, happlied.1.2.trans (h.times id now (by simp [hone]))⟩⟩

/-- The audit rows that a transaction adds. -/
lemma auditCount_after (h : ShareMove rt collation ok held w ev script new) {kind : ShareEvent → Bool}
    (hkind : kind .viewed = false) :
    auditCount ev.after.audit id kind = editCount (script id) kind + auditCount ev.before.audit id kind := by
  obtain ⟨added, haudit, hacc⟩ := h.audit
  rw [haudit, ← hacc id kind hkind]
  exact List.countP_append

/-- No row, no edits. -/
lemma script_eq_nil (h : ShareMove rt collation ok held w ev script new)
    (hid : id ∉ shareTable.ids ev.before) : script id = [] := by
  by_contra hne
  exact hid (h.changed.owned id hne).2

lemma audited (h : ShareMove rt collation ok held w ev script new) : ExpiryAudited w.clock id ev := by
  have hcount : expiredRows id ev.after = editCount (script id) isExpired + expiredRows id ev.before :=
    h.auditCount_after rfl
  constructor
  · rintro hbefore ⟨r', hr', hexpired⟩
    cases hr : ev.before.row id with
    | none =>
      -- a new row is active
      have hfind := h.changed.find_of_none hr
      change ev.after.row id = _ at hfind
      rw [hr'] at hfind
      have hfresh := (h.fresh r' (List.mem_of_find?_eq_some hfind.symm)).terms
      rw [hfresh] at hexpired
      simp [CredentialShare.terms] at hexpired
    | some r =>
      obtain ⟨hafter, happlied, -⟩ := h.row_after hr
      rw [hr'] at hafter
      cases hafter
      have hr_ne : r.status ≠ .expired := fun hst => hbefore ⟨r, hr, hst⟩
      obtain ⟨now, hmem⟩ := expire_mem_of_run hr_ne hexpired
      have hpos := editCount_pos_of_mem hmem
      have hle := (editCount_le spends_expired happlied).1
      omega
  · intro hne
    have hpos : 0 < editCount (script id) isExpired := by omega
    obtain ⟨now, hmem⟩ := mem_of_editCount_pos hpos
    have hscript : script id ≠ [] := by
      intro hnil
      simp [hnil] at hmem
    obtain ⟨r, hr⟩ := Table.find_isSome_iff.2 (h.changed.owned id hscript).2
    obtain ⟨hafter, happlied, hdoes⟩ := h.row_after hr
    obtain ⟨hactive, hdue⟩ := due_of_mem happlied hmem
    refine ⟨r, hr, hactive, hdue.trans (h.times id now hmem), ?_⟩
    have hexpire : (∀ e ∈ script id, ExpireEdit r.id e) → expiredIn id ev.after := by
      intro hes
      rcases eq_of_expireEdits happlied hes with hnil | ⟨now', hone⟩
      · exact absurd hnil hscript
      · exact ⟨_, hafter, by rw [hone]; rfl⟩
    have hother : ∀ es : List ShareEdit, script id = es → .expire now ∈ es := fun es hes => hes ▸ hmem
    cases hanswer : ev.answer with
    | reveal result =>
      rw [hanswer] at hdoes
      cases result with
      | ok share bounded gate =>
        simp only [ShareAnswer.Does] at hdoes
        split_ifs at hdoes with hid
        · obtain ⟨t, hes | hes, -⟩ := hdoes
          · simpa using hother _ hes
          · simpa using hother _ hes
        · simpa using hother _ hdoes
      | _ => exact .inl (hexpire hdoes)
    | metadata status => rw [hanswer] at hdoes; exact .inl (hexpire hdoes)
    | swept expired => rw [hanswer] at hdoes; exact .inl (hexpire hdoes)
    | losingAttempt =>
      rw [hanswer] at hdoes
      rcases status_of_losing happlied hdoes hmem with hst | ⟨hst, hlocked⟩
      · exact .inl ⟨_, hafter, hst⟩
      · exact .inr ⟨rfl, _, hafter, hst, hlocked⟩
    | revoke result =>
      rw [hanswer] at hdoes
      obtain ⟨t, ht⟩ := hdoes _ hmem
      simp at ht
    | autoRevoked ids =>
      rw [hanswer] at hdoes
      obtain ⟨t, ht⟩ := hdoes _ hmem
      simp at ht
    | superseded ids =>
      rw [hanswer] at hdoes
      obtain ⟨t, ht⟩ := hdoes _ hmem
      simp at ht
    | sent id' code =>
      rw [hanswer] at hdoes
      simp only [ShareAnswer.Does] at hdoes
      split_ifs at hdoes with hid
      · obtain ⟨t, ht⟩ := hdoes
        simpa using hother _ ht
      · simpa using hother _ hdoes
    | confirmed id' code proof =>
      rw [hanswer] at hdoes
      simp only [ShareAnswer.Does] at hdoes
      split_ifs at hdoes with hid
      · obtain ⟨-, t, ht⟩ := hdoes
        simpa using hother _ ht
      · simpa using hother _ hdoes
    | wrongCode id' =>
      rw [hanswer] at hdoes
      simp only [ShareAnswer.Does] at hdoes
      split_ifs at hdoes with hid hfull
      · obtain ⟨t, t', ht⟩ := hdoes
        simpa using hother _ ht
      · obtain ⟨t, ht⟩ := hdoes
        simpa using hother _ ht
      · simpa using hother _ hdoes
    | _ =>
      rw [hanswer] at hdoes
      simpa using hother _ hdoes

end ShareMove

/-! ### What runs keep -/

namespace History

/-- No share, no audit row of its expiry or lock. -/
lemma auditCount_eq_zero (h : History rt collation ok w) {kind : ShareEvent → Bool}
    (hkind : kind .viewed = false) (hid : id ∉ shareTable.ids w.db) :
    auditCount w.db.audit id kind = 0 := by
  induction h with
  | start vault seq clock => rfl
  | later _ _ _ ih => exact ih hid
  | @ended w ev held script new h hbefore hmove ih =>
    change id ∉ shareTable.ids ev.after at hid
    rw [hmove.changed.ids, List.mem_append, not_or] at hid
    change auditCount ev.after.audit id kind = 0
    rw [hmove.auditCount_after hkind, hmove.script_eq_nil hid.1, hbefore, ih (hbefore ▸ hid.1)]
    rfl

/-- What can be spent once is audited once. -/
lemma auditCount_le (h : History rt collation ok w) {kind : ShareEvent → Bool}
    {Live : CredentialShare → Prop} (hs : Spends kind Live) :
    ∀ r ∈ w.db.shares, auditCount w.db.audit r.id kind ≤ 1 ∧
      (Live r → auditCount w.db.audit r.id kind = 0) := by
  refine h.rows (I := fun w r => auditCount w.db.audit r.id kind ≤ 1 ∧
    (Live r → auditCount w.db.audit r.id kind = 0)) ?_ ?_ ?_
  · exact fun w n t r hI => hI
  · intro w ev held script new r h hbefore hmove hmem ⟨hle, hlive⟩
    have hid : (shareEdits.run (script r.id) r).id = r.id := id_eq_of_terms (terms_run _ _)
    have happlied : shareEdits.Applied (script r.id) r :=
      hmove.changed.applied r (by rw [hbefore]; exact hmem)
    obtain ⟨hle', hdead', hlive'⟩ := editCount_le hs happlied
    change auditCount ev.after.audit _ kind ≤ 1 ∧ (_ → auditCount ev.after.audit _ kind = 0)
    rw [hid, hmove.auditCount_after hs.unviewed, hbefore]
    by_cases hr : Live r
    · rw [hlive hr]
      exact ⟨by omega, fun hrun => by rw [hlive' hrun]⟩
    · have hrun : ¬ Live (shareEdits.run (script r.id) r) :=
        happlied.keeps (I := fun r => ¬ Live r) (fun e _ r => hs.kept e r) hr
      rw [hdead' hr]
      exact ⟨by omega, fun hl => absurd hl hrun⟩
  · intro w ev held script new r h hbefore hmove hmem
    have hfresh : r.id ∉ shareTable.ids ev.before := (hmove.changed.fresh r hmem).2.2
    change auditCount ev.after.audit _ kind ≤ 1 ∧ (_ → auditCount ev.after.audit _ kind = 0)
    rw [hmove.auditCount_after hs.unviewed, hmove.script_eq_nil hfresh, hbefore,
      h.auditCount_eq_zero hs.unviewed (hbefore ▸ hfresh)]
    exact ⟨Nat.zero_le _, fun _ => rfl⟩

/-- A share that a transaction has left closed is still closed. -/
lemma closed (h : History rt collation ok w) :
    ∀ ev ∈ w.log, closedIn id ev.after → closedIn id w.db := by
  induction h with
  | start vault seq clock => simp [noShares]
  | later _ _ _ ih => exact ih
  | @ended w ev held script new h hbefore hmove ih =>
    intro ev' hmem hclosed
    rcases List.mem_cons.1 hmem with rfl | hmem
    · exact hclosed
    · exact hmove.closed (hbefore ▸ ih ev' hmem hclosed)

/-- **Lifecycle**, for every history. -/
lemma lifecycleKept (h : History rt collation ok w) (id : ℕ) : LifecycleKept w id := by
  have hlogged : ∀ ev ∈ w.log, FailedRevealKeeps w.clock id ev ∧ ExpiryAudited w.clock id ev := by
    intro ev hev
    obtain ⟨newer, older, hlog⟩ := List.append_of_mem hev
    obtain ⟨w', held, script, new, -, -, hclock, -, hmove⟩ := h.of_mem hlog
    refine ⟨fun result hanswer hnot r hr => ?_, hmove.audited.row, fun hne => ?_⟩
    · obtain ⟨r', hr', hviews, hstatus⟩ := hmove.failed result hanswer hnot r hr
      exact ⟨r', hr', hviews, hstatus.imp_right fun hst => ⟨hst.1, hst.2.1, hst.2.2.trans hclock⟩⟩
    · obtain ⟨r, hr, hactive, hdue, hafter⟩ := hmove.audited.expiry hne
      exact ⟨r, hr, hactive, hdue.trans hclock, hafter⟩
  have hpairs : (w.log.Pairwise fun newer older => closedIn id older.after →
      opens id newer = false ∧ closedIn id newer.after) ∧ w.log.countP (opensSingle id) ≤ 1 := by
    clear hlogged
    induction h with
    | start vault seq clock => exact ⟨List.Pairwise.nil, by simp [noShares]⟩
    | later _ _ _ ih => exact ih
    | @ended w ev held script new h hbefore hmove ih =>
      have hclosed : ∀ ev' ∈ w.log, closedIn id ev'.after → closedIn id ev.before :=
        fun ev' hmem hcl => hbefore ▸ h.closed ev' hmem hcl
      refine ⟨List.pairwise_cons.2 ⟨fun ev' hmem hcl => ?_, ih.1⟩, ?_⟩
      · exact ⟨hmove.opens_eq_false (hclosed ev' hmem hcl), hmove.closed (hclosed ev' hmem hcl)⟩
      · change (ev :: w.log).countP _ ≤ 1
        rw [List.countP_cons]
        split_ifs with hopens
        · -- a share that was opened before is closed
          have hzero : w.log.countP (opensSingle id) = 0 := by
            rw [List.countP_eq_zero]
            intro ev' hmem hopens'
            obtain ⟨newer, older, hlog⟩ := List.append_of_mem hmem
            obtain ⟨w', _, _, _, -, -, -, -, hmove'⟩ := h.of_mem hlog
            have hfalse := hmove.opens_eq_false
              (hclosed ev' hmem (hmove'.closed_of_opensSingle hopens'))
            unfold opens at hfalse
            unfold opensSingle at hopens
            cases hopened : ev.answer.opened with
            | none => simp [hopened] at hopens
            | some share =>
              rw [hopened] at hfalse hopens
              simp only [Option.any_some, Bool.and_eq_true] at hopens hfalse
              rw [hopens.1] at hfalse
              simp at hfalse
          omega
        · simpa using ih.2
  refine ⟨hpairs.2, hpairs.1.imp fun hp hcl => (hp hcl).1, hpairs.1.imp fun hp hcl => (hp hcl).2,
    fun ev hev => (hlogged ev hev).1, fun ev hev => (hlogged ev hev).2, ?_⟩
  by_cases hid : id ∈ shareTable.ids w.db
  · obtain ⟨r, hr, rfl⟩ := List.mem_map.1 hid
    exact (h.auditCount_le spends_expired r hr).1
  · have hzero := h.auditCount_eq_zero spends_expired.unviewed hid
    exact hzero.le.trans (Nat.zero_le 1)

end History

/-- In every run of the calls on shares and for every share: it is opened only by a
transaction that finds it active, a share for single use at most once; once a committed
transaction has left it closed it is never opened nor active again; a reveal that shows
nothing changes neither its view count nor its status, except that it may expire an
active share that is due; and the expiry is audited exactly by the transaction that
expires it, once. -/
theorem share_lifecycle (rt : Runtime) (collation : Collation) (vault : Store) (seq clock : ℕ)
    {s : State ShareDb ShareLock ShareAnswer}
    (h : (shareSessions rt collation vault seq clock).Reaches (fun _ _ => True) s) (id : ℕ) :
    LifecycleKept s.world id := by
  have hhistory : History rt collation (fun _ => True) s.world := by
    refine history_of_reaches (fun _ _ call _ => ?_) h
    cases call <;> trivial
  exact hhistory.lifecycleKept id

/-! ### A reveal that expires the share -/

/-- A secret of one field, and the member `2` of its organisation. -/
def loginVault : Store :=
  { secretStore (loginFields "password") with memberships := [⟨1, 2, "active"⟩] }

/-- A request to share the whole secret until `100`. -/
def wholeRequest : ShareRequest := ⟨1, 9, 1, 1, none, none, 100⟩

/-- A share for single use is created, and opened too late. -/
def lateReveal : List (Label ShareCall) :=
  [[.opens 0 (.create wholeRequest 2 true)], List.replicate 10 (.runs 0 false), [.tick 200],
    [.opens 1 (.reveal 1 6 2)], Label.runsFor 1 7].flatten

/-- The late reveal shows nothing, and yet the share is no longer active. -/
theorem failed_reveal_expires :
    ∃ s, (shareSessions .ascii .byLength loginVault 0 0).Reaches (fun _ _ => True) s ∧
      ∃ ev ∈ s.world.log, ev.answer = .reveal .expired ∧
        (ev.before.row 6).any (fun r => r.status = .active) = true ∧
        (ev.after.row 6).any (fun r => r.status = .expired) = true := by
  obtain ⟨s, hs, hlog⟩ := Run.System.exists_of_exec (shareSessions .ascii .byLength loginVault 0 0)
    (fun _ _ => True) (shareSessions .ascii .byLength loginVault 0 0).init lateReveal
    (fun s => ∃ ev ∈ s.world.log, ev.answer = .reveal .expired ∧
      (ev.before.row 6).any (fun r => r.status = .active) = true ∧
      (ev.after.row 6).any (fun r => r.status = .expired) = true) (by decide +kernel)
  exact ⟨s, Run.System.steps_of_exec hs, hlog⟩

/-- The life of that share. -/
theorem share_lifecycle_lateReveal :
    ∃ s, (shareSessions .ascii .byLength loginVault 0 0).Reaches (fun _ _ => True) s ∧
      s.world.log.length = 2 ∧ LifecycleKept s.world 6 := by
  obtain ⟨s, hs, hlog⟩ := Run.System.exists_of_exec (shareSessions .ascii .byLength loginVault 0 0)
    (fun _ _ => True) (shareSessions .ascii .byLength loginVault 0 0).init lateReveal
    (fun s => s.world.log.length = 2) (by decide +kernel)
  have hreach := Run.System.steps_of_exec hs
  exact ⟨s, hreach, hlog, share_lifecycle .ascii .byLength loginVault 0 0 hreach 6⟩

end ProjectVault.Shares
