import ProjectVault.Shares.Lifecycle

/-!
The cap on the pending external shares of one set of fields.
-/

namespace ProjectVault.Shares

open Js Db

variable {rt : Runtime} {collation : Collation} {ok : ShareRequest → Prop} {w : ShareWorld}

/-! ### The fields a share names -/

/-- The set of fields a share is bounded by. -/
def namedKeys (s : CredentialShare) : Option (Finset String) :=
  (effectiveAttributeKeysForShare s.scope).map List.toFinset

/-- The pending external shares of a set of fields. -/
def isPendingFor (credentialId : ℕ) (keys : Option (Finset String)) (now : ℕ)
    (s : CredentialShare) : Bool :=
  s.credentialId = credentialId && s.recipientType = .external && s.status = .active &&
    now < s.expiresAt && namedKeys s = keys

/-- Different keys of the list do not compare equal. -/
def TieFree (collation : Collation) (keys : List String) : Prop :=
  ∀ a ∈ keys, ∀ b ∈ keys, collation.rel a b → collation.rel b a → a = b

/-- The fields of a request have one list only: a field key that is not blank, or keys
that do not compare equal. -/
structure Distinguishes (rt : Runtime) (collation : Collation) (request : ShareRequest) : Prop where
  named : ∀ key, request.fieldKey = some key → key ≠ "" → normalizeFieldKey rt key ≠ ""
  tieFree : TieFree collation ((request.attributeKeys.getD []).map (normalizeFieldKey rt))

/-- A list of keys that is determined by its set. -/
structure Canonical (collation : Collation) (keys : List String) : Prop where
  nodup : keys.Nodup
  sorted : keys.Pairwise collation.rel
  tieFree : TieFree collation keys

lemma canonical_singleton (key : String) : Canonical collation [key] where
  nodup := List.nodup_singleton key
  sorted := List.pairwise_singleton _ key
  tieFree a ha b hb _ _ := by
    rw [List.mem_singleton] at ha hb
    rw [ha, hb]

lemma Canonical.eq_of_toFinset_eq {keys keys' : List String} (h : Canonical collation keys)
    (h' : Canonical collation keys') (heq : keys.toFinset = keys'.toFinset) : keys = keys' := by
  have hperm : keys.Perm keys' := List.perm_of_nodup_nodup_toFinset_eq h.nodup h'.nodup heq
  refine hperm.eq_of_pairwise ?_ h.sorted h'.sorted
  intro a b ha hb hab hba
  exact h.tieFree a ha b (hperm.mem_iff.2 hb) hab hba

lemma validateAttributeKeys_sorted {s : Store} {credentialId : ℕ} {keys : Option (List String)}
    {stored : List String}
    (h : validateAttributeKeys rt collation s credentialId keys = .ok (some stored)) :
    stored.Pairwise collation.rel := by
  unfold validateAttributeKeys at h
  split at h
  · simp at h
  · simp at h
  · rename_i key keys
    cases hcollect : collectAttributeKeys rt (declaredFieldKeys rt s credentialId) []
      (key :: keys) with
    | error e => simp [hcollect, bind, Except.bind] at h
    | ok normalized =>
      simp only [hcollect, bind, Except.bind, pure, Except.pure] at h
      split_ifs at h
      simp only [Except.ok.injEq, Option.some.injEq] at h
      rw [← h]
      exact List.pairwise_insertionSort collation.rel normalized

lemma Distinguishes.canonical {request : ShareRequest} (h : Distinguishes rt collation request)
    {s : Store} {credentialId : ℕ} {stored : List String}
    (hstored : validateAttributeKeys rt collation s credentialId request.attributeKeys =
      .ok (some stored)) : Canonical collation stored := by
  obtain ⟨hnodup, -, hmem⟩ := validateAttributeKeys_ok hstored
  refine ⟨hnodup, validateAttributeKeys_sorted hstored, fun a ha b hb hab hba => ?_⟩
  exact h.tieFree a ((hmem a).1 ha) b ((hmem b).1 hb) hab hba

lemma Distinguishes.fieldKey_ne {request : ShareRequest} (h : Distinguishes rt collation request)
    {s : Store} {credentialId : ℕ} {stored : Option String}
    (hstored : validateFieldKey rt s credentialId request.fieldKey = .ok stored) :
    stored ≠ some "" := by
  rintro rfl
  unfold validateFieldKey at hstored
  split at hstored
  · simp at hstored
  · rename_i key hkey
    split_ifs at hstored with hblank hdecl
    · simp at hstored
    · have hnorm := Option.some.inj (Except.ok.inj hstored)
      exact h.named key hkey hblank hnorm

/-! ### Buckets -/

lemma effectiveKeys_eq_bucketKeys (scope : ShareScope) :
    effectiveAttributeKeysForShare scope = bucketKeys scope.fieldKey scope.attributeKeys := by
  obtain ⟨field, keys, hboth, hempty⟩ := scope
  cases keys with
  | none => cases field <;> rfl
  | some keys =>
    cases field with
    | some key => exact absurd ⟨rfl, rfl⟩ hboth
    | none =>
      cases keys with
      | nil => exact absurd rfl hempty
      | cons key keys => rfl

/-- A share is in its bucket unless its field key is blank. -/
lemma fieldCondition_bucketKeys {s : CredentialShare} (hfield : s.fieldKey ≠ some "") :
    fieldCondition (bucketKeys s.fieldKey s.attributeKeys) s = true := by
  have hboth := s.scope.not_both
  have hempty := s.scope.not_empty
  change ¬ (s.fieldKey.isSome = true ∧ s.attributeKeys.isSome = true) at hboth
  change s.attributeKeys ≠ some [] at hempty
  cases hf : s.fieldKey with
  | some key =>
    have hkey : key ≠ "" := fun heq => hfield (by rw [hf, heq])
    simp [bucketKeys, fieldCondition, hkey, hf]
  | none =>
    cases ha : s.attributeKeys with
    | none => simp [bucketKeys, fieldCondition, hf, ha]
    | some keys =>
      cases keys with
      | nil => exact absurd ha hempty
      | cons key keys =>
        simp only [bucketKeys, fieldCondition]
        split_ifs <;> simp [ha]

/-- An external share of a request that has one list only. -/
structure CredentialShare.HasList (rt : Runtime) (collation : Collation) (s : CredentialShare) :
    Prop where
  fieldKey : s.fieldKey ≠ some ""
  canonical : ∀ keys, s.attributeKeys = some keys → Canonical collation keys

lemma CredentialShare.HasList.bucket {s : CredentialShare} (h : s.HasList rt collation)
    {keys : List String} (hkeys : bucketKeys s.fieldKey s.attributeKeys = some keys) :
    Canonical collation keys := by
  cases hf : s.fieldKey with
  | none =>
    rw [hf] at hkeys
    exact h.canonical keys hkeys
  | some key =>
    have hkey : key ≠ "" := fun heq => h.fieldKey (by rw [hf, heq])
    rw [hf, bucketKeys, if_neg hkey] at hkeys
    cases hkeys
    exact canonical_singleton key

/-- Such shares are in one bucket when they name the same set. -/
lemma bucketKeys_eq_of_namedKeys_eq {s s' : CredentialShare} (h : s.HasList rt collation)
    (h' : s'.HasList rt collation) (heq : namedKeys s = namedKeys s') :
    bucketKeys s.fieldKey s.attributeKeys = bucketKeys s'.fieldKey s'.attributeKeys := by
  rw [namedKeys, namedKeys, effectiveKeys_eq_bucketKeys, effectiveKeys_eq_bucketKeys] at heq
  change (bucketKeys s.fieldKey s.attributeKeys).map _ =
    (bucketKeys s'.fieldKey s'.attributeKeys).map _ at heq
  cases hb : bucketKeys s.fieldKey s.attributeKeys with
  | none =>
    rw [hb] at heq
    exact (Option.map_eq_none_iff.1 heq.symm).symm
  | some keys =>
    cases hb' : bucketKeys s'.fieldKey s'.attributeKeys with
    | none => simp [hb, hb'] at heq
    | some keys' =>
      rw [hb, hb'] at heq
      rw [(h.bucket hb).eq_of_toFinset_eq (h'.bucket hb') (Option.some.inj heq)]

/-! ### The cap of a bucket -/

lemma isPending_anti {cred now now' : ℕ} {keys : Option (List String)} {s : CredentialShare}
    (hle : now ≤ now') (h : isPending cred keys now' s = true) : isPending cred keys now s = true := by
  simp only [isPending, Bool.and_eq_true, decide_eq_true_eq] at h ⊢
  exact ⟨h.1, hle.trans_lt h.2⟩

namespace History

/-- **The cap of a bucket**, as the code counts it. -/
lemma countP_isPending_le (h : History rt collation ok w) (cred : ℕ) {keys : Option (List String)}
    (hkeys : keys ≠ some []) :
    w.db.shares.countP (isPending cred keys w.clock) ≤ maxPendingExternalSharesPerField := by
  induction h with
  | start vault seq clock => simp [noShares]
  | @later w n t _ _ ht ih =>
    refine le_trans (List.countP_mono_left fun r _ hr => ?_) ih
    exact isPending_anti ht hr
  | @ended w ev held script new h hbefore hmove ih =>
    have hrows : ev.after.shares = ev.before.shares.map (shareEdits.play script) ++ new :=
      hmove.changed.rows
    have hold : (ev.before.shares.map (shareEdits.play script)).countP
        (isPending cred keys w.clock) ≤ ev.before.shares.countP (isPending cred keys w.clock) := by
      rw [List.countP_map]
      refine List.countP_mono_left fun r hmem hr => ?_
      exact isPending_play (hmove.changed.applied r hmem) hr
    change ev.after.shares.countP (isPending cred keys w.clock) ≤ _
    rw [hrows, List.countP_append]
    rw [← hbefore] at ih
    by_cases hnew : ∃ r ∈ new, isPending cred keys w.clock r = true
    · -- the transaction has counted fewer shares than the cap, and adds one
      obtain ⟨r, hr, hpending⟩ := hnew
      simp only [isPending, Bool.and_eq_true, decide_eq_true_eq] at hpending
      obtain ⟨request, hcapped⟩ := hmove.capped r hr hpending.1.1.1.2
      obtain ⟨start, hstart, hcount⟩ := hcapped.counted
      rw [hpending.1.1.1.1, bucketKeys_of_fieldCondition hkeys hpending.1.1.2] at hcount
      have hmono : ev.before.shares.countP (isPending cred keys w.clock) ≤
          ev.before.shares.countP (isPending cred keys start) :=
        List.countP_mono_left fun r _ hr => isPending_anti hstart hr
      have hone : new.countP (isPending cred keys w.clock) ≤ 1 :=
        List.countP_le_length.trans hmove.alone
      omega
    · have hzero : new.countP (isPending cred keys w.clock) = 0 :=
        List.countP_eq_zero.2 fun r hr hpending => hnew ⟨r, hr, hpending⟩
      omega

lemma hasList (h : History rt collation (Distinguishes rt collation) w) :
    ∀ r ∈ w.db.shares, r.recipientType = .external → r.HasList rt collation := by
  refine h.rows (I := fun _ r => r.recipientType = .external → r.HasList rt collation) ?_ ?_ ?_
  · exact fun w n t r hI => hI
  · intro w ev held script new r _ _ _ _ hI hext
    have hterms := terms_run (script r.id) r
    have htype := congrArg CredentialShare.recipientType hterms
    change (shareEdits.run (script r.id) r).recipientType = r.recipientType at htype
    have hscope := congrArg CredentialShare.scope hterms
    change (shareEdits.run (script r.id) r).scope = r.scope at hscope
    obtain ⟨hfield, hcanonical⟩ := hI (htype ▸ hext)
    exact ⟨by rw [CredentialShare.fieldKey, hscope]; exact hfield,
      by rw [CredentialShare.attributeKeys, hscope]; exact hcanonical⟩
  · intro w ev held script new r _ _ hmove hr hext
    obtain ⟨request, hcapped⟩ := hmove.capped r hr hext
    obtain ⟨s, hfield⟩ := hcapped.fieldKey
    obtain ⟨s', hattr⟩ := hcapped.attributeKeys
    exact ⟨hcapped.allowed.fieldKey_ne hfield,
      fun keys hkeys => hcapped.allowed.canonical (hkeys ▸ hattr)⟩

/-- **The cap of a set of fields.** -/
lemma countP_isPendingFor_le (h : History rt collation (Distinguishes rt collation) w) (cred : ℕ)
    (keys : Option (Finset String)) :
    w.db.shares.countP (isPendingFor cred keys w.clock) ≤ maxPendingExternalSharesPerField := by
  by_cases hnone : ∃ r ∈ w.db.shares, isPendingFor cred keys w.clock r = true
  · obtain ⟨r, hr, hpending⟩ := hnone
    simp only [isPendingFor, Bool.and_eq_true, decide_eq_true_eq] at hpending
    obtain ⟨⟨⟨⟨-, hext⟩, -⟩, -⟩, hnamed⟩ := hpending
    -- all of them are in the bucket of this one
    refine le_trans (List.countP_mono_left fun r' hr' hpending' => ?_)
      (h.countP_isPending_le cred (bucketKeys_ne_nil r.scope))
    simp only [isPendingFor, Bool.and_eq_true, decide_eq_true_eq] at hpending'
    obtain ⟨⟨⟨⟨hcred', hext'⟩, hactive'⟩, hlive'⟩, hnamed'⟩ := hpending'
    have hlist' := h.hasList r' hr' hext'
    have hbucket : bucketKeys r'.fieldKey r'.attributeKeys =
        bucketKeys r.fieldKey r.attributeKeys :=
      bucketKeys_eq_of_namedKeys_eq hlist' (h.hasList r hr hext) (hnamed'.trans hnamed.symm)
    have hcond := fieldCondition_bucketKeys hlist'.fieldKey
    rw [hbucket] at hcond
    change isPending cred (bucketKeys r.fieldKey r.attributeKeys) w.clock r' = true
    simp [isPending, hcred', hext', hactive', hlive', hcond]
  · have hzero : w.db.shares.countP (isPendingFor cred keys w.clock) = 0 :=
      List.countP_eq_zero.2 fun r hr hpending => hnone ⟨r, hr, hpending⟩
    omega

end History

/-- The requests for external shares have one list only. -/
def ListedOnce (rt : Runtime) (collation : Collation)
    (_ : State ShareDb ShareLock ShareAnswer) : Label ShareCall → Prop
  | .opens _ (.createExternal request _ _) => Distinguishes rt collation request
  | _ => True

/-- A secret of two fields. -/
def pairVault : Store := secretStore [⟨"a", "1", true, none⟩, ⟨"b", "2", true, none⟩]

/-- A request to share both fields until `100`. -/
def pairRequest (keys : List String) : ShareRequest := ⟨1, 9, 1, 1, none, some keys, 100⟩

/-- Requests for external shares, one after another. -/
def requestsInTurn (requests : List ShareRequest) : List (Label ShareCall) :=
  (requests.map fun request => [.opens 0 (.createExternal request false none)] ++
    List.replicate 11 (.runs 0 false) ++ [.closes 0]).flatten

/-- Five requests name the fields in one order, and a sixth in the other. -/
def swappedRequests : List (Label ShareCall) :=
  requestsInTurn (List.replicate 5 (pairRequest ["a", "b"]) ++ [pairRequest ["b", "a"]])

lemma listedOnce_requestsInTurn {requests : List ShareRequest}
    (h : ∀ request ∈ requests, Distinguishes rt collation request) :
    ∀ a ∈ requestsInTurn requests, ∀ s, ListedOnce rt collation s a := by
  intro a ha s
  obtain ⟨labels, hlabels, hmem⟩ := List.mem_flatten.1 ha
  obtain ⟨request, hrequest, rfl⟩ := List.mem_map.1 hlabels
  rw [List.mem_append, List.mem_append, List.mem_singleton, List.mem_singleton] at hmem
  rcases hmem with (rfl | hmem) | rfl
  · exact h request hrequest
  · rw [List.eq_of_mem_replicate hmem]
    trivial
  · trivial

/-- A request for one of the two fields, in each of the two ways. -/
def singleRequest (byField : Bool) : ShareRequest :=
  if byField then { pairRequest [] with fieldKey := some " A", attributeKeys := none }
  else pairRequest ["a"]

lemma distinguishes_singleRequest (byField : Bool) :
    Distinguishes .ascii .byLength (singleRequest byField) := by
  cases byField with
  | true =>
    refine ⟨fun key hkey _ => ?_, by simp [singleRequest, TieFree]⟩
    cases hkey
    decide
  | false => exact ⟨by simp [singleRequest, pairRequest], by simp [singleRequest, pairRequest, TieFree]⟩

end ProjectVault.Shares
