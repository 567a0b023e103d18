import ProjectVault.Shares.Rotating

/-!
No share outlives a rotation of what it shows, as far as the handlers see to it.

A row that is locked changes by its holder only, and no update makes a closed row outstanding again;
so the rows an update concerns at the commit are among those it met at its start.
-/

namespace ProjectVault.Shares.Rotating

open Js

variable {r : CredentialShare}

/-! ### What is to hold -/

/-- A share is outstanding, and a rotation concerns what it shows. -/
def Concerns (scope : SupersedeParams) (share : CredentialShare) : Prop :=
  share.orgId = scope.orgId ∧ share.credentialId = scope.credentialId ∧
    share.isOutstanding = true ∧ Touches scope.targetFields share.scope

/-- Each rotation closes the shares it concerns, and no later reveal shows one of them. -/
structure Closes (log : List Entry) : Prop where
  closed : ∀ scope before after vault vault', .rotated scope before after vault vault' ∈ log →
    ∀ share ∈ before, Concerns scope share →
      ∃ row ∈ after, row.id = share.id ∧ row.status = .superseded
  unseen : log.Pairwise fun later earlier => ∀ scope before after vault vault',
    earlier = .rotated scope before after vault vault' →
      ∀ share ∈ before, Concerns scope share → ∀ bounded, later ≠ .revealed share.id bounded

/-- No share with a blank key is created; no share that a promotion concerns is committed between
the start of its update and its commit; and no share is outstanding when break-glass commits. -/
def Sound (s : State) : Label → Prop
  | .insertShare _ row => row.scope.fieldKey ≠ some ""
  | .commit i =>
    (∀ row, s.txs i = some (.created row) → ∀ j scope vault now todo done,
      s.txs j = some (.superseding scope vault now todo done) → ¬Concerns scope row) ∧
    ∀ scope vault, s.txs i = some (.broken scope vault) → ∀ r ∈ s.shares, ¬Concerns scope r
  | _ => True

/-! ### Updates of rows -/

/-- What an update may do to a row. -/
structure Calm (f : CredentialShare → CredentialShare) (r : CredentialShare) : Prop where
  id : (f r).id = r.id
  scope : (f r).scope = r.scope
  concerns : ∀ scope, Concerns scope (f r) → Concerns scope r
  inactive : r.status ≠ .active → (f r).status ≠ .active

lemma calm_id (r : CredentialShare) : Calm id r := ⟨rfl, rfl, fun _ => id, id⟩

lemma isOutstanding_iff :
    r.isOutstanding = true ↔ r.status = .active ∨ r.status = .viewed := by
  simp [CredentialShare.isOutstanding]

/-- The columns among the terms. -/
lemma columns_of_terms {r' : CredentialShare} (h : r'.terms = r.terms) :
    r'.id = r.id ∧ r'.orgId = r.orgId ∧ r'.credentialId = r.credentialId ∧ r'.scope = r.scope :=
  ⟨show r'.terms.id = r.terms.id by rw [h], show r'.terms.orgId = r.terms.orgId by rw [h],
    show r'.terms.credentialId = r.terms.credentialId by rw [h],
    show r'.terms.scope = r.terms.scope by rw [h]⟩

/-- An update that keeps the terms of a row and reopens nothing is calm. -/
lemma calm_of_terms {f : CredentialShare → CredentialShare} (hterms : (f r).terms = r.terms)
    (hinactive : r.status ≠ .active → (f r).status ≠ .active)
    (hclosed : (f r).isOutstanding = true → r.isOutstanding = true) : Calm f r := by
  obtain ⟨hid, horg, hcred, hscope⟩ := columns_of_terms hterms
  refine ⟨hid, hscope, ?_, hinactive⟩
  rintro scope ⟨horg', hcred', hout, htouch⟩
  exact ⟨horg ▸ horg', hcred ▸ hcred', hclosed hout, hscope ▸ htouch⟩

/-- An edit behind its condition is calm. -/
lemma calm_of_guard {edit : ShareEdit} (h : edit.guard r) :
    Calm edit.apply r := by
  refine calm_of_terms (terms_apply edit r) (status_apply_ne_active h) fun hout => ?_
  cases edit with
  | view now => exact isOutstanding_iff.2 (.inl h)
  | viewAgain now => exact isOutstanding_iff.2 (.inl h.1)
  | expire now => exact isOutstanding_iff.2 (.inl h.1)
  | revoke now => exact isOutstanding_iff.2 (.inl h)
  | supersede now => exact h
  | lock reason now => simp [isOutstanding_iff, ShareEdit.apply, CredentialShare.locked] at hout
  | _ => exact hout

/-- So is any edit of an active row. -/
lemma calm_of_active {edit : ShareEdit} (h : r.status = .active) :
    Calm edit.apply r :=
  calm_of_terms (terms_apply edit r) (fun hne => absurd h hne) fun _ => isOutstanding_iff.2 (.inl h)

lemma calm_superseded (now : ℕ) (r : CredentialShare) : Calm (CredentialShare.superseded now) r := by
  refine calm_of_terms rfl (fun _ => by simp [CredentialShare.superseded]) fun hout => ?_
  simp [isOutstanding_iff, CredentialShare.superseded] at hout

/-- An update of some of the rows. -/
lemma calm_ite {p : CredentialShare → Bool} {f : CredentialShare → CredentialShare}
    (h : p r = true → Calm f r) : Calm (fun r => if p r then f r else r) r := by
  by_cases hp : p r = true
  · have hf := h hp
    constructor <;> simp only [hp, if_true]
    exacts [hf.id, hf.scope, hf.concerns, hf.inactive]
  · constructor <;> simp [hp]

/-! ### The invariant -/

/-- What a transaction may rely on. -/
def TxOk (s : State) (i : ℕ) : Tx → Prop
  | .created row =>
    row.id < s.nextId ∧ row.id ∉ s.shares.map (·.id) ∧ row.scope.fieldKey ≠ some ""
  | .updated id edit shown =>
    s.rowLocks id = some i ∧ ∃ r ∈ s.shares, r.id = id ∧ Calm edit.apply r ∧
      (shown ≠ none → r.status = .active)
  | .superseding scope _ _ todo done =>
    (∀ id ∈ done, s.rowLocks id = some i) ∧
      ∀ r ∈ s.shares, Concerns scope r → r.id ∈ todo ∨ r.id ∈ done
  | _ => True

/-- A committed rotation concerned the share. -/
def Rotated (log : List Entry) (id : ℕ) : Prop :=
  ∃ scope before after vault vault', .rotated scope before after vault vault' ∈ log ∧
    ∃ share ∈ before, Concerns scope share ∧ share.id = id

structure Inv (s : State) : Prop where
  id_nodup : (s.shares.map (·.id)).Nodup
  id_lt : ∀ r ∈ s.shares, r.id < s.nextId
  nonblank : ∀ r ∈ s.shares, r.scope.fieldKey ≠ some ""
  txs : ∀ i tx, s.txs i = some tx → TxOk s i tx
  created_unique : ∀ i j row row', s.txs i = some (.created row) → s.txs j = some (.created row') →
    row.id = row'.id → i = j
  gone : ∀ id, Rotated s.log id → ∃ r ∈ s.shares, r.id = id ∧ r.status ≠ .active
  closes : Closes s.log

section Moves

variable {s s' : State} {i j : ℕ} {tx : Tx}
variable {r : CredentialShare} {log : List Entry} {scope : SupersedeParams} {id : ℕ}

/-- A transaction keeps what it relies on while the others update rows it has not locked. -/
lemma TxOk.map {f : CredentialShare → CredentialShare} (h : TxOk s j tx)
    (hshares : s'.shares = s.shares.map f) (hnext : s.nextId ≤ s'.nextId)
    (hlocks : ∀ id, s.rowLocks id = some j → s'.rowLocks id = some j)
    (hcalm : ∀ r ∈ s.shares, Calm f r)
    (hmine : ∀ r ∈ s.shares, s.rowLocks r.id = some j → f r = r) : TxOk s' j tx := by
  cases tx with
  | created row =>
    obtain ⟨hlt, hnew, hkey⟩ := h
    refine ⟨hlt.trans_le hnext, ?_, hkey⟩
    have hids : s'.shares.map (·.id) = s.shares.map (·.id) := by
      rw [hshares, List.map_map]
      exact List.map_congr_left fun r hr => (hcalm r hr).id
    rwa [hids]
  | updated id edit shown =>
    obtain ⟨hlock, r, hr, rfl, hedit, hshown⟩ := h
    refine ⟨hlocks _ hlock, r, ?_, rfl, hedit, hshown⟩
    rw [hshares]
    exact List.mem_map.2 ⟨r, hr, hmine r hr hlock⟩
  | superseding scope vault now todo done =>
    obtain ⟨hdone, hcovers⟩ := h
    refine ⟨fun id hid => hlocks id (hdone id hid), fun r' hr' hconcerns => ?_⟩
    rw [hshares] at hr'
    obtain ⟨r, hr, rfl⟩ := List.mem_map.1 hr'
    rw [(hcalm r hr).id]
    exact hcovers r hr ((hcalm r hr).concerns scope hconcerns)
  | _ => exact trivial

/-- The tables do not change. -/
lemma TxOk.same (h : TxOk s j tx) (hshares : s'.shares = s.shares) (hnext : s.nextId ≤ s'.nextId)
    (hlocks : ∀ id, s.rowLocks id = some j → s'.rowLocks id = some j) : TxOk s' j tx :=
  h.map (f := id) (by rw [hshares, List.map_id]) hnext hlocks (fun r _ => calm_id r)
    fun _ _ _ => rfl

/-- The log of an update of the rows: what it adds is closed in the new rows. -/
lemma Inv.commitRows (h : Inv s) {f : CredentialShare → CredentialShare} (vault : Store)
    (hcalm : ∀ r ∈ s.shares, Calm f r)
    (hlocked : ∀ r ∈ s.shares, f r ≠ r → s.rowLocks r.id = some i) (hgone : ∀ id, Rotated log id →
      Rotated s.log id ∨ ∃ r ∈ s.shares.map f, r.id = id ∧ r.status ≠ .active)
    (hcloses : Closes log) : Inv { s.endTx i with vault, shares := s.shares.map f, log } where
  id_nodup := by
    have hids : (s.shares.map f).map (·.id) = s.shares.map (·.id) := by
      rw [List.map_map]
      exact List.map_congr_left fun r hr => (hcalm r hr).id
    show ((s.shares.map f).map (·.id)).Nodup
    rw [hids]
    exact h.id_nodup
  id_lt r' hr' := by
    obtain ⟨r, hr, rfl⟩ := List.mem_map.1 hr'
    rw [(hcalm r hr).id]
    exact h.id_lt r hr
  nonblank r' hr' := by
    obtain ⟨r, hr, rfl⟩ := List.mem_map.1 hr'
    rw [(hcalm r hr).scope]
    exact h.nonblank r hr
  txs j tx hj := by
    have hne : j ≠ i := by
      rintro rfl
      simp [State.endTx] at hj
    have hj' : s.txs j = some tx := by
      simpa [State.endTx, Function.update_of_ne hne] using hj
    refine (h.txs j tx hj').map (f := f) rfl le_rfl (fun id hid => ?_) hcalm fun r hr hmine => ?_
    · simp [State.endTx, hid, hne]
    · by_contra hchanged
      rw [hlocked r hr hchanged] at hmine
      exact hne (Option.some.inj hmine).symm
  created_unique j k row row' hj hk hid := by
    have hold : ∀ l row, (s.endTx i).txs l = some (.created row) →
        s.txs l = some (.created row) := by
      intro l row hl
      have hne : l ≠ i := by
        rintro rfl
        simp [State.endTx] at hl
      simpa [State.endTx, Function.update_of_ne hne] using hl
    exact h.created_unique j k row row' (hold j row hj) (hold k row' hk) hid
  gone id hid := by
    rcases hgone id hid with hold | hnew
    · obtain ⟨r, hr, rfl, hinactive⟩ := h.gone id hold
      exact ⟨f r, List.mem_map.2 ⟨r, hr, rfl⟩, (hcalm r hr).id, (hcalm r hr).inactive hinactive⟩
    · exact hnew
  closes := hcloses

/-- Nothing is committed. -/
lemma Inv.endTx (h : Inv s) : Inv (s.endTx i) := by
  have hrows := h.commitRows (i := i) (f := id) s.vault (fun r _ => calm_id r)
    (fun _ _ hne => absurd rfl hne) (fun _ hid => .inl hid) h.closes
  rwa [List.map_id] at hrows

/-- A transaction goes on, and nothing is committed; the row it inserts, if any, is new. -/
lemma Inv.goOn (h : Inv s) (hshares : s'.shares = s.shares) (hlog : s'.log = s.log)
    (hnext : s.nextId ≤ s'.nextId) (htxs : ∀ j, j ≠ i → s'.txs j = s.txs j)
    (hlocks : ∀ j, j ≠ i → ∀ id, s.rowLocks id = some j → s'.rowLocks id = some j)
    (hmine : ∀ tx, s'.txs i = some tx → TxOk s' i tx)
    (hnew : ∀ row, s'.txs i = some (.created row) → row.id = s.nextId) : Inv s' where
  id_nodup := by
    rw [hshares]
    exact h.id_nodup
  id_lt r hr := by
    rw [hshares] at hr
    exact (h.id_lt r hr).trans_le hnext
  nonblank := by
    rw [hshares]
    exact h.nonblank
  txs j tx hj := by
    by_cases hji : j = i
    · subst hji
      exact hmine tx hj
    · rw [htxs j hji] at hj
      exact (h.txs j tx hj).same hshares hnext (hlocks j hji)
  created_unique j k row row' hj hk hid := by
    by_cases hji : j = i
    · subst hji
      by_contra hkj
      rw [htxs k (Ne.symm hkj)] at hk
      have hlt := (h.txs k _ hk).1
      rw [← hid, hnew row hj] at hlt
      exact lt_irrefl _ hlt
    · rw [htxs j hji] at hj
      by_cases hki : k = i
      · subst hki
        have hlt := (h.txs j _ hj).1
        rw [hid, hnew row' hk] at hlt
        exact absurd hlt (lt_irrefl _)
      · rw [htxs k hki] at hk
        exact h.created_unique j k row row' hj hk hid
  gone := by
    rw [hshares, hlog]
    exact h.gone
  closes := by
    rw [hlog]
    exact h.closes

/-- A transaction goes on to a stage that inserts nothing. -/
lemma Inv.setTx (h : Inv s) {tx : Tx} (htx : TxOk s i tx) (hnew : ∀ row, tx ≠ .created row) :
    Inv (s.setTx i tx) := by
  have hself : (s.setTx i tx).txs i = some tx := Function.update_self ..
  refine h.goOn (i := i) rfl rfl le_rfl (fun j hj => Function.update_of_ne hj ..)
    (fun _ _ _ hid => hid) (fun tx' htx' => ?_) fun row hrow => ?_
  · obtain rfl : tx = tx' := Option.some.inj (hself.symm.trans htx')
    exact htx.same rfl le_rfl fun _ hid => hid
  · exact absurd (Option.some.inj (hself.symm.trans hrow)) (hnew row)

/-- It takes a free row lock with that. -/
lemma Inv.setTx_lockRow (h : Inv s) {tx : Tx} (hfree : s.rowLocks id = none)
    (htx : TxOk (s.lockRow i id) i tx) (hnew : ∀ row, tx ≠ .created row) :
    Inv ((s.setTx i tx).lockRow i id) := by
  have hself : ((s.setTx i tx).lockRow i id).txs i = some tx := Function.update_self ..
  refine h.goOn (i := i) rfl rfl le_rfl (fun j hj => Function.update_of_ne hj ..)
    (fun j hj id' hid' => ?_) (fun tx' htx' => ?_) fun row hrow => ?_
  · have hne : id' ≠ id := by
      rintro rfl
      rw [hfree] at hid'
      simp at hid'
    exact (Function.update_of_ne hne ..).trans hid'
  · obtain rfl : tx = tx' := Option.some.inj (hself.symm.trans htx')
    exact htx.same rfl le_rfl fun _ hid => hid
  · exact absurd (Option.some.inj (hself.symm.trans hrow)) (hnew row)

/-- The advisory lock, the clock and the store of the credentials do not matter. -/
lemma Inv.frame (h : Inv s) (lock : Option ℕ) (clock : ℕ) (vault : Store) :
    Inv { s with rotationLock := lock, clock, vault } where
  id_nodup := h.id_nodup
  id_lt := h.id_lt
  nonblank := h.nonblank
  txs j tx hj := (h.txs j tx hj).same rfl le_rfl fun _ hid => hid
  created_unique := h.created_unique
  gone := h.gone
  closes := h.closes

/-! ### Rows -/

lemma mem_of_row (h : s.row id = some r) :
    r ∈ s.shares ∧ r.id = id :=
  ⟨List.mem_of_find?_eq_some h, by simpa using List.find?_some h⟩

lemma exists_of_any_row {p : CredentialShare → Bool} (h : (s.row id).any p = true) :
    ∃ r ∈ s.shares, r.id = id ∧ p r = true := by
  cases hrow : s.row id with
  | none =>
    rw [hrow] at h
    simp at h
  | some r =>
    rw [hrow] at h
    obtain ⟨hr, hid⟩ := mem_of_row hrow
    exact ⟨r, hr, hid, h⟩

lemma Inv.row_eq (h : Inv s) (hr : r ∈ s.shares) : s.row r.id = some r := by
  cases hrow : s.row r.id with
  | none =>
    have hne := List.find?_eq_none.1 hrow r hr
    simp at hne
  | some r' =>
    obtain ⟨hr', hid⟩ := mem_of_row hrow
    rw [List.inj_on_of_nodup_map h.id_nodup hr' hr hid]

/-- The update sees every share with a key that the rotation concerns. -/
lemma supersedeWhere_of_concerns (hkey : r.scope.fieldKey ≠ some "") (h : Concerns scope r) :
    supersedeWhere scope r = true := by
  obtain ⟨horg, hcred, hout, htouch⟩ := h
  have hseen : ScopeSeen scope.targetFields r.scope := by
    intro targets htargets
    refine ⟨fun keys hkeys => ?_, fun hblank => absurd hblank hkey⟩
    have heffective : effectiveAttributeKeysForShare r.scope = some keys := by
      cases keys with
      | nil => exact absurd hkeys r.scope.not_empty
      | cons k ks => rw [effectiveAttributeKeysForShare, hkeys]
    exact htouch keys targets heffective htargets
  have hfield : supersedeFieldScope scope.targetFields r.fieldKey = true :=
    ((supersedeFieldScope_iff_touches _ _).2 hseen).2 htouch
  rw [supersedeWhere, hfield]
  simp [horg, hcred, hout]

/-! ### Steps -/

lemma insertShare_inv {row : CredentialShare} (h : Inv s) (hkey : row.scope.fieldKey ≠ some "")
    (hs : insertShare s i row = some s') : Inv s' := by
  rw [insertShare] at hs
  split_ifs at hs with hfresh
  obtain ⟨-, hid, -⟩ := hfresh
  rw [← Option.some.inj hs]
  have hself : ({ s.setTx i (.created row) with nextId := s.nextId + 1 } : State).txs i =
      some (.created row) := Function.update_self ..
  refine h.goOn (i := i) rfl rfl (Nat.le_succ _) (fun j hj => Function.update_of_ne hj ..)
    (fun _ _ _ hid => hid) (fun tx htx => ?_) fun row' hrow' => ?_
  · obtain rfl : .created row = tx := Option.some.inj (hself.symm.trans htx)
    refine ⟨by rw [hid]; exact Nat.lt_succ_self _, fun hmem => ?_, hkey⟩
    obtain ⟨r, hr, hrid⟩ := List.mem_map.1 hmem
    exact (h.id_lt r hr).ne (hrid.trans hid)
  · obtain rfl : row = row' := Tx.created.inj (Option.some.inj (hself.symm.trans hrow'))
    exact hid

lemma readShare_inv {rt : Runtime} (h : Inv s) (hs : readShare rt s i id = some s') :
    Inv s' := by
  rw [readShare.eq_def] at hs
  split at hs
  · simp at hs
  · split at hs
    · rwa [← Option.some.inj hs]
    · split_ifs at hs
      · rwa [← Option.some.inj hs]
      · split at hs
        · rwa [← Option.some.inj hs]
        · rwa [← Option.some.inj hs]
        · rw [← Option.some.inj hs]
          exact h.setTx trivial (by simp)

lemma claim_inv (h : Inv s) (hs : claim s i = some s') : Inv s' := by
  rw [claim.eq_def] at hs
  split at hs
  · next share bounded _ =>
    split_ifs at hs with hbusy hactive hsingle
    · rw [← Option.some.inj hs]
      obtain ⟨r, hr, hid, hstatus⟩ := exists_of_any_row hactive
      exact h.setTx_lockRow (by simpa using hbusy) ⟨Function.update_self .., r, hr, hid,
        calm_of_active (by simpa using hstatus), fun _ => by simpa using hstatus⟩ (by simp)
    · rw [← Option.some.inj hs]
      obtain ⟨r, hr, hid, hstatus⟩ := exists_of_any_row hactive
      exact h.setTx_lockRow (by simpa using hbusy) ⟨Function.update_self .., r, hr, hid,
        calm_of_active (by simpa using hstatus), fun _ => by simpa using hstatus⟩ (by simp)
    · rw [← Option.some.inj hs]
      exact h.endTx
  · simp at hs

lemma update_inv {edit : ShareEdit} (h : Inv s) (hs : update s i id edit = some s') :
    Inv s' := by
  rw [update] at hs
  split_ifs at hs with hfree hguard
  · rw [← Option.some.inj hs]
    obtain ⟨r, hr, hid, hedit⟩ := exists_of_any_row hguard
    exact h.setTx_lockRow hfree.2.2 ⟨Function.update_self .., r, hr, hid,
      calm_of_guard (by simpa using hedit), fun hne => absurd rfl hne⟩ (by simp)
  · rwa [← Option.some.inj hs]

lemma promote_inv {params : RotationParams} {ack : Acknowledgement} (h : Inv s)
    (hs : promote s i params ack = some s') : Inv s' := by
  rw [promote.eq_def] at hs
  split at hs
  · simp at hs
  · split at hs
    · next rotation _ _ _ vault _ =>
      rw [← Option.some.inj hs]
      have hset : Inv (s.setTx i (.promoted params rotation vault)) := h.setTx trivial (by simp)
      exact hset.frame _ _ _
    · rwa [← Option.some.inj hs]

/-- What the update is about to meet. -/
lemma supersede_inv (h : Inv s) (hs : supersede s i = some s') : Inv s' := by
  rw [supersede.eq_def] at hs
  split at hs
  · rw [← Option.some.inj hs]
    refine h.setTx ⟨by simp, fun r hr hconcerns => .inl ?_⟩ (by simp)
    exact List.mem_map.2 ⟨r, List.mem_filter.2
      ⟨hr, supersedeWhere_of_concerns (h.nonblank r hr) hconcerns⟩, rfl⟩
  · simp at hs

/-- A row that no longer meets the condition is not concerned any more. -/
lemma supersedeRow_inv (h : Inv s) (hs : supersedeRow s i = some s') : Inv s' := by
  rw [supersedeRow.eq_def] at hs
  split at hs
  · next scope vault now id todo done hcall =>
    obtain ⟨hdone, hcovers⟩ := h.txs i _ hcall
    split_ifs at hs with hbusy hwhere
    · rw [← Option.some.inj hs]
      have hfree : s.rowLocks id = none := by simpa using hbusy
      refine h.setTx_lockRow hfree ⟨fun id' hid' => ?_, fun r hr hconcerns => ?_⟩ (by simp)
      · rcases List.mem_append.1 hid' with hold | hnew
        · by_cases hsame : id' = id
          · rw [hsame]
            exact Function.update_self ..
          · exact (Function.update_of_ne hsame ..).trans (hdone id' hold)
        · rw [List.mem_singleton.1 hnew]
          exact Function.update_self ..
      · rcases hcovers r hr hconcerns with htodo | hmem
        · rcases List.mem_cons.1 htodo with hhead | htail
          · exact .inr (List.mem_append_right _ (List.mem_singleton.2 hhead))
          · exact .inl htail
        · exact .inr (List.mem_append_left _ hmem)
    · rw [← Option.some.inj hs]
      refine h.setTx ⟨hdone, fun r hr hconcerns => ?_⟩ (by simp)
      rcases hcovers r hr hconcerns with htodo | hmem
      · rcases List.mem_cons.1 htodo with hhead | htail
        · refine absurd ?_ hwhere
          rw [← hhead, h.row_eq hr]
          exact supersedeWhere_of_concerns (h.nonblank r hr) hconcerns
        · exact .inl htail
      · exact .inr hmem
  · simp at hs

lemma breakGlass_inv {input : BreakGlassInput} {rowLock : Bool} (h : Inv s)
    (hs : breakGlass s i input rowLock = some s') : Inv s' := by
  rw [breakGlass.eq_def] at hs
  split at hs
  · simp at hs
  · split at hs
    · next vault _ =>
      rw [← Option.some.inj hs]
      have hset : Inv (s.setTx i (.broken ⟨input.orgId, input.credentialId, none⟩ vault)) :=
        h.setTx trivial (by simp)
      exact hset.frame _ _ _
    · rwa [← Option.some.inj hs]

/-! ### Commits -/

lemma Closes.revealed {bounded : SerializeBoundedResult} (h : Closes log) (hid : ¬Rotated log id) :
    Closes (.revealed id bounded :: log) where
  closed scope before after vault vault' hmem :=
    h.closed scope before after vault vault' (by simpa using hmem)
  unseen := by
    refine List.pairwise_cons.2 ⟨?_, h.unseen⟩
    rintro earlier hmem scope before after vault vault' rfl share hshare hconcerns bounded' heq
    cases heq
    exact hid ⟨scope, before, after, vault, vault', hmem, share, hshare, hconcerns, rfl⟩

lemma Closes.rotated {before after : List CredentialShare} {vault vault' : Store} (h : Closes log)
    (hclosed : ∀ share ∈ before, Concerns scope share →
      ∃ row ∈ after, row.id = share.id ∧ row.status = .superseded) :
    Closes (.rotated scope before after vault vault' :: log) where
  closed scope' before' after' v v' hmem share hshare hconcerns := by
    rcases List.mem_cons.1 hmem with hhead | htail
    · cases hhead
      exact hclosed share hshare hconcerns
    · exact h.closed scope' before' after' v v' htail share hshare hconcerns
  unseen := List.pairwise_cons.2 ⟨by simp, h.unseen⟩

lemma rotated_cons_revealed {id' : ℕ} {bounded : SerializeBoundedResult}
    (h : Rotated (.revealed id' bounded :: log) id) : Rotated log id := by
  obtain ⟨scope, before, after, vault, vault', hmem, hshare⟩ := h
  exact ⟨scope, before, after, vault, vault', by simpa using hmem, hshare⟩

lemma rotated_cons_rotated {before after : List CredentialShare} {vault vault' : Store}
    (h : Rotated (.rotated scope before after vault vault' :: log) id) :
    Rotated log id ∨ ∃ share ∈ before, Concerns scope share ∧ share.id = id := by
  obtain ⟨scope', before', after', v, v', hmem, hshare⟩ := h
  rcases List.mem_cons.1 hmem with hhead | htail
  · cases hhead
    exact .inr hshare
  · exact .inl ⟨scope', before', after', v, v', htail, hshare⟩

lemma Inv.commitCreated (h : Inv s) {row : CredentialShare} (hcall : s.txs i = some (.created row))
    (hunmet : ∀ j scope vault now todo done,
      s.txs j = some (.superseding scope vault now todo done) → ¬Concerns scope row) :
    Inv { s.endTx i with shares := s.shares ++ [row] } := by
  obtain ⟨hlt, hnew, hkey⟩ := h.txs i _ hcall
  have hend : Inv (s.endTx i) := h.endTx
  have hother : ∀ j tx, (s.endTx i).txs j = some tx → j ≠ i ∧ s.txs j = some tx := by
    intro j tx hj
    have hne : j ≠ i := by
      rintro rfl
      simp [State.endTx] at hj
    exact ⟨hne, by simpa [State.endTx, Function.update_of_ne hne] using hj⟩
  constructor
  case id_nodup =>
    show ((s.shares ++ [row]).map (·.id)).Nodup
    rw [List.map_append, List.nodup_append]
    refine ⟨h.id_nodup, by simp, fun a ha b hb => ?_⟩
    obtain rfl : b = row.id := by simpa using hb
    exact fun heq => hnew (heq ▸ ha)
  case id_lt =>
    intro r hr
    rcases List.mem_append.1 hr with hold | hmem
    · exact h.id_lt r hold
    · rw [List.mem_singleton.1 hmem]
      exact hlt
  case nonblank =>
    intro r hr
    rcases List.mem_append.1 hr with hold | hmem
    · exact h.nonblank r hold
    · rw [List.mem_singleton.1 hmem]
      exact hkey
  case txs =>
    intro j tx hj
    obtain ⟨hne, hj'⟩ := hother j tx hj
    have hok := hend.txs j tx hj
    cases tx with
    | created row' =>
      refine ⟨hok.1, ?_, hok.2.2⟩
      show row'.id ∉ (s.shares ++ [row]).map (·.id)
      rw [List.map_append, List.mem_append]
      rintro (hold | hmem)
      · exact hok.2.1 hold
      · exact hne (h.created_unique j i row' row hj' hcall (by simpa using hmem))
    | updated id edit shown =>
      obtain ⟨hlock, r, hr, hedit⟩ := hok
      exact ⟨hlock, r, List.mem_append_left _ hr, hedit⟩
    | superseding scope vault now todo done =>
      refine ⟨hok.1, fun r hr hconcerns => ?_⟩
      rcases List.mem_append.1 hr with hold | hmem
      · exact hok.2 r hold hconcerns
      · rw [List.mem_singleton.1 hmem] at hconcerns
        exact absurd hconcerns (hunmet j scope vault now todo done hj')
    | _ => exact trivial
  case created_unique => exact hend.created_unique
  case gone =>
    intro id hid
    obtain ⟨r, hr, hrow⟩ := h.gone id hid
    exact ⟨r, List.mem_append_left _ hr, hrow⟩
  case closes => exact h.closes

lemma Inv.commitUpdated (h : Inv s) {edit : ShareEdit} {shown : Option SerializeBoundedResult}
    (hcall : s.txs i = some (.updated id edit shown))
    (hgone : ∀ id, Rotated log id → Rotated s.log id) (hcloses : Closes log) :
    Inv { s.endTx i with shares := editRow id edit s.shares, log } := by
  obtain ⟨hlock, r₀, hr₀, rfl, hcalm, -⟩ := h.txs i _ hcall
  refine h.commitRows (i := i) s.vault (fun r hr => calm_ite fun hp => ?_) (fun r hr hne => ?_)
    (fun id hid => .inl (hgone id hid)) hcloses
  · rw [List.inj_on_of_nodup_map h.id_nodup hr hr₀ (by simpa using hp)]
    exact hcalm
  · by_cases hp : r.id = r₀.id
    · rw [hp]
      exact hlock
    · exact absurd (if_neg (by simpa using hp)) hne

lemma commit_inv (h : Inv s) (hsound : Sound s (.commit i)) (hs : commit s i = some s') :
    Inv s' := by
  rw [commit.eq_def] at hs
  split at hs
  · next row hcall =>
    rw [← Option.some.inj hs]
    exact h.commitCreated hcall (hsound.1 row hcall)
  · next hcall =>
    rw [← Option.some.inj hs]
    exact h.commitUpdated hcall (fun _ hid => hid) h.closes
  · next id edit bounded hcall =>
    rw [← Option.some.inj hs]
    obtain ⟨-, r, hr, hid, -, hactive⟩ := h.txs i _ hcall
    -- a share that a rotation has closed is not active, so its claim has failed
    have hopen : ¬Rotated s.log id := by
      intro hrotated
      obtain ⟨r', hr', hid', hinactive⟩ := h.gone id hrotated
      rw [List.inj_on_of_nodup_map h.id_nodup hr' hr (hid'.trans hid.symm)] at hinactive
      exact hinactive (hactive (by simp))
    exact h.commitUpdated hcall (fun _ => rotated_cons_revealed) (h.closes.revealed hopen)
  · next scope vault now done hcall =>
    rw [← Option.some.inj hs]
    obtain ⟨hdone, hcovers⟩ := h.txs i _ hcall
    have hclosed : ∀ share ∈ s.shares, Concerns scope share →
        ∃ row ∈ closeRows now done s.shares, row.id = share.id ∧ row.status = .superseded := by
      intro share hshare hconcerns
      have hmem : share.id ∈ done := by simpa using hcovers share hshare hconcerns
      exact ⟨share.superseded now, Db.mem_updateWhere.2 ⟨share, hshare, by simp [hmem]⟩, rfl, rfl⟩
    refine h.commitRows (i := i) vault (fun r _ => calm_ite fun _ => calm_superseded now r)
      (fun r _ hne => ?_) (fun id hid => ?_) (h.closes.rotated hclosed)
    · by_cases hmem : r.id ∈ done
      · exact hdone r.id hmem
      · exact absurd (if_neg (by simpa using hmem)) hne
    · rcases rotated_cons_rotated hid with hold | ⟨share, hshare, hconcerns, rfl⟩
      · exact .inl hold
      · obtain ⟨row, hrow, hid, hstatus⟩ := hclosed share hshare hconcerns
        exact .inr ⟨row, hrow, hid, by simp [hstatus]⟩
  · next scope vault hcall =>
    rw [← Option.some.inj hs]
    have hnone := hsound.2 scope vault hcall
    have hcloses : Closes (.rotated scope s.shares s.shares s.vault vault :: s.log) :=
      h.closes.rotated fun share hshare hconcerns => absurd hconcerns (hnone share hshare)
    have hrows := h.commitRows (i := i) (f := id) vault (fun r _ => calm_id r)
      (fun _ _ hne => absurd rfl hne) (fun id hid => ?_) hcloses
    · rwa [List.map_id] at hrows
    · rcases rotated_cons_rotated hid with hold | ⟨share, hshare, hconcerns, -⟩
      · exact .inl hold
      · exact absurd hconcerns (hnone share hshare)
  · simp at hs

lemma rollback_inv (h : Inv s) (hs : rollback s i = some s') : Inv s' := by
  rw [rollback.eq_def] at hs
  split at hs
  · simp at hs
  · rw [← Option.some.inj hs]
    exact h.endTx

end Moves

lemma step_inv {rt : Runtime} {vault : Store} {s s' : State} {a : Label} (h : Inv s)
    (hsound : Sound s a) (hs : (rotatingSystem rt vault).step s a = some s') : Inv s' := by
  have hstep : step rt s a = some s' := hs
  cases a with
  | insertShare i row => exact insertShare_inv h hsound hstep
  | readShare i id => exact readShare_inv h hstep
  | claim i => exact claim_inv h hstep
  | update i id edit => exact update_inv h hstep
  | promote i params ack => exact promote_inv h hstep
  | supersede i => exact supersede_inv h hstep
  | supersedeRow i => exact supersedeRow_inv h hstep
  | breakGlass i input rowLock => exact breakGlass_inv h hstep
  | commit i => exact commit_inv h hsound hstep
  | rollback i => exact rollback_inv h hstep
  | credentials vault =>
    rw [step] at hstep
    split_ifs at hstep
    rw [← Option.some.inj hstep]
    exact h.frame _ _ _
  | tick n =>
    rw [← Option.some.inj hstep]
    exact h.frame _ _ _

lemma init_inv (rt : Runtime) (vault : Store) : Inv (rotatingSystem rt vault).init := by
  constructor <;> simp [rotatingSystem, Rotated]
  constructor <;> simp

/-- **No share outlives a rotation**: in every run of sound steps each rotation closes the shares
it concerns in its own commit, and no later reveal shows one of them. -/
theorem closes_of_sound {rt : Runtime} {vault : Store} {s : State}
    (h : (rotatingSystem rt vault).Reaches Sound s) : Closes s.log :=
  (h.invariant (init_inv rt vault) fun _ _ _ hinv hsound hs => step_inv hinv hsound hs).closes

/-! ### Samples -/

/-- An active share of the password of credential `1`. -/
def openShare : CredentialShare := { passwordShare with id := 0 }

/-- A secret whose rotation is staged, with its new version. -/
def stagedVault : Store :=
  { secretStore (loginFields "password") with
    versions := [secretVersion (loginFields "password"),
      { secretVersion [⟨"password", "n3w", true, none⟩] with
        id := 3, versionNumber := 2, promotedAt := none }]
    rotations := [{ id := 4, orgId := 1, projectId := 9, credentialId := 1, newVersionId := 3,
                    previousVersionId := 2, status := .staged, version := 1, initiatedBy := none,
                    initiatedAt := 1, completedAt := none, promotedAt := none, retiredAt := none,
                    notes := none, targetFields := none, createdAt := 1, updatedAt := 1 }]
    nextId := 5 }

/-- The request to promote it. -/
def promoteStaged (i : ℕ) : Label := .promote i ⟨1, 9, 1, 4⟩ ⟨true, false⟩

/-- The store behind the promotion. -/
def promotedVault : Store := (promoteRotation stagedVault 5 true ⟨1, 9, 1, 4⟩ ⟨true, false⟩).2

/-- An emergency value for the secret. -/
def emergencyInput : BreakGlassInput := ⟨1, 9, 1, 7, "fresh", "leaked", 60, 30⟩

/-- The store behind break-glass. -/
def brokenVault : Store :=
  match breakGlassRotation (secretStore (loginFields "password")) 5 true true emergencyInput with
  | .ok (_, vault) => vault
  | .error _ => Store.empty

/-- The share is being created. -/
def inserted : State :=
  { (rotatingSystem .ascii stagedVault).init.setTx 0 (.created openShare) with
    clock := 5, nextId := 1 }

/-- The share has been created. -/
def shared : State := { inserted.endTx 0 with shares := [openShare] }

lemma shared_reached : (rotatingSystem .ascii stagedVault).Reaches Sound shared := by
  have htick : (rotatingSystem .ascii stagedVault).Reaches Sound
      { (rotatingSystem .ascii stagedVault).init with clock := 5 } :=
    Run.System.Reaches.step (a := .tick 5) .refl trivial rfl
  have hinsert : (rotatingSystem .ascii stagedVault).Reaches Sound inserted :=
    htick.step (a := .insertShare 0 openShare) (by simp [Sound, openShare, passwordShare]) rfl
  refine hinsert.step (a := .commit 0) ⟨fun _ _ j scope vault now todo done hj => ?_, ?_⟩ rfl
  · by_cases hzero : j = 0
    · simp [inserted, State.setTx, hzero] at hj
    · simp [inserted, State.setTx, hzero, rotatingSystem] at hj
  · intro scope vault hcall
    simp [inserted, State.setTx] at hcall

/-- The rotation of a shared secret is promoted. -/
def promoteShared : List Label := [promoteStaged 1, .supersede 1, .supersedeRow 1]

/-- The update of a promotion has met the share, and is to commit. -/
def State.Superseded (s : State) (i : ℕ) : Prop :=
  s.txs i = some (.superseding ⟨1, 1, none⟩ promotedVault 5 [] [0])

instance (s : State) (i : ℕ) : Decidable (s.Superseded i) :=
  inferInstanceAs (Decidable (s.txs i = _))

/-- A promotion closes a share. -/
theorem closes_of_sound_promoted : ∃ s, (rotatingSystem .ascii stagedVault).Reaches Sound s ∧
    s.log = [.rotated ⟨1, 1, none⟩ [openShare] [openShare.superseded 5] stagedVault promotedVault] ∧
    Closes s.log := by
  obtain ⟨s, hexec, hcall, hshares, hvault, hlog⟩ := Run.System.exists_of_exec
    (rotatingSystem .ascii stagedVault) (fun _ _ => True) shared promoteShared
    (fun s => s.Superseded 1 ∧ s.shares = [openShare] ∧ s.vault = stagedVault ∧ s.log = [])
    (by decide +kernel)
  have hreach : (rotatingSystem .ascii stagedVault).Reaches Sound s :=
    shared_reached.steps (Run.System.steps_of_exec_of_forall
      (by simp [promoteShared, promoteStaged, Sound]) hexec)
  have hcall' : s.txs 1 = some (.superseding ⟨1, 1, none⟩ promotedVault 5 [] [0]) := hcall
  have hsound : Sound s (.commit 1) :=
    ⟨fun row hrow => by simp [hcall'] at hrow, fun scope vault hbroken => by
      simp [hcall'] at hbroken⟩
  have hstep : ∃ s', (rotatingSystem .ascii stagedVault).step s (.commit 1) = some s' ∧
      s'.log = [.rotated ⟨1, 1, none⟩ [openShare] [openShare.superseded 5] stagedVault
        promotedVault] := by
    refine ⟨_, show commit s 1 = some _ by rw [commit.eq_def, hcall'], ?_⟩
    rw [hshares, hvault, hlog]
    rfl
  obtain ⟨s', hs', hlog'⟩ := hstep
  have hreach' := hreach.step hsound hs'
  exact ⟨s', hreach', hlog', closes_of_sound hreach'⟩

/-- The share is created behind the start of the update of a promotion, and then revealed. -/
def promotedMeanwhile : List Label :=
  [.tick 5, promoteStaged 0, .supersede 0, .insertShare 1 openShare, .commit 1, .commit 0,
    .readShare 2 0, .claim 2, .commit 2]

/-- The share is created, and then the secret is broken out. -/
def brokenAfter : List Label :=
  [.tick 5, .insertShare 0 openShare, .commit 0, .breakGlass 1 emergencyInput true, .commit 1]

/-- Break-glass leaves a share open; and a share that is created while a promotion updates the
shares stays open and shows the new value. -/
theorem share_outlives_rotation :
    (∃ s, (rotatingSystem .ascii (secretStore (loginFields "password"))).Reaches
        (fun _ _ => True) s ∧
      s.log = [.rotated ⟨1, 1, none⟩ [openShare] [openShare]
        (secretStore (loginFields "password")) brokenVault] ∧
      (selectCurrentVersionMeta brokenVault 1).any (fun v => v.versionNumber = 2) = true) ∧
      (∃ s, (rotatingSystem .ascii stagedVault).Reaches (fun _ _ => True) s ∧
        s.log = [.revealed 0 (.value "n3w"),
          .rotated ⟨1, 1, none⟩ [openShare] [openShare] stagedVault promotedVault] ∧
        (selectCurrentVersionMeta promotedVault 1).any (fun v => v.versionNumber = 2) = true) ∧
      ¬∀ vault s, (rotatingSystem .ascii vault).Reaches (fun _ _ => True) s → Closes s.log := by
  obtain ⟨s₁, hexec₁, hlog₁⟩ := Run.System.exists_of_exec
    (rotatingSystem .ascii (secretStore (loginFields "password"))) (fun _ _ => True)
    (rotatingSystem .ascii (secretStore (loginFields "password"))).init brokenAfter
    (fun s => s.log = [.rotated ⟨1, 1, none⟩ [openShare] [openShare]
      (secretStore (loginFields "password")) brokenVault]) (by decide +kernel)
  obtain ⟨s₂, hexec₂, hlog₂⟩ := Run.System.exists_of_exec (rotatingSystem .ascii stagedVault)
    (fun _ _ => True) (rotatingSystem .ascii stagedVault).init promotedMeanwhile
    (fun s => s.log = [.revealed 0 (.value "n3w"),
      .rotated ⟨1, 1, none⟩ [openShare] [openShare] stagedVault promotedVault]) (by decide +kernel)
  have hreach₁ := Run.System.steps_of_exec hexec₁
  refine ⟨⟨s₁, hreach₁, hlog₁, by decide +kernel⟩,
    ⟨s₂, Run.System.steps_of_exec hexec₂, hlog₂, by decide +kernel⟩, fun hall => ?_⟩
  have hcloses := hall _ s₁ hreach₁
  rw [hlog₁] at hcloses
  obtain ⟨row, hrow, -, hstatus⟩ := hcloses.closed _ _ _ _ _ (List.mem_singleton_self _) openShare
    (List.mem_singleton_self _) ⟨rfl, rfl, rfl, by simp [Touches]⟩
  rw [List.mem_singleton.1 hrow] at hstatus
  exact absurd hstatus (by decide)

end ProjectVault.Shares.Rotating
