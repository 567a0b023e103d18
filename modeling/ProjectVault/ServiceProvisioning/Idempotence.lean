import ProjectVault.ServiceProvisioning.Keys

/-!
What a repeated provisioning call answers.

The replay reads any membership and any identity of the organization, so its answer is the first
one for as long as there are no others.
-/

namespace ProjectVault.ServiceProvisioning

/-- What is promised for organizations: one for each request id, and one answer, which names the
owner that was created with it and an identity of hers. -/
structure Idempotent (s : State) : Prop where
  one_organization : ∀ r,
    (s.organizations.filter fun org => org.serviceProvisioningRequestId = some r).length ≤ 1
  same_answer : ∀ r t t', .organization r t ∈ s.outcomes → .organization r t' ∈ s.outcomes → t = t'
  answer_created : ∀ r t, .organization r t ∈ s.outcomes → (r, t) ∈ s.provisioned ∧
    ∃ subject, ⟨t.externalIdentityId, t.organizationId, t.userId, subject⟩ ∈ s.externalIdentities

/-- The subject has one identity in the organization, and its user is an active member. -/
def ActiveSubject (s : State) (orgId : ℕ) (subject : String) : Prop :=
  ∃ x, s.externalIdentities.filter (fun x => x.key = (orgId, subject)) = [x] ∧
    ∃ m ∈ s.orgMemberships, m.orgId = orgId ∧ m.userId = x.userId ∧ m.status = .active

/-- What is promised for members: between two states, each call that ends on an existing managed
organization leaves its subject active. -/
def MembersEndActive (s s' : State) : Prop :=
  ∀ i c orgId subject, s.calls i = some c → c.member? = some (orgId, subject) →
    s'.calls i = none →
    (∃ org ∈ s.organizations, org.id = orgId ∧ org.centralizemeOrganizationId ≠ none) →
    ActiveSubject s' orgId subject

/-- A replay reads the owner while the organization has no other member, and the identity while it
has no other; a member is not gone when a replay reads the membership, and is neither removed, nor
deactivated if read as active, until that replay commits; the database fails no member call. -/
def Sound (s : State) : Label → Prop
  | .findOwner i _ => ∀ input orgId, s.calls i = some (.findOwner input orgId) →
      ∀ t, (input.requestId, t) ∈ s.provisioned →
        ∀ m ∈ s.orgMemberships, m.orgId = t.organizationId → m.userId = t.userId
  | .findIdentity i _ => ∀ input orgId userId,
      s.calls i = some (.findIdentity input orgId userId) →
      ∀ t, (input.requestId, t) ∈ s.provisioned →
        ∀ x ∈ s.externalIdentities, x.orgId = t.organizationId → x.id = t.externalIdentityId
  | .findMembership i => ∀ orgId input x, s.calls i = some (.findMembership orgId input x) →
      ∃ m ∈ s.orgMemberships, m.isOf orgId x.userId = true
  | .deactivate orgId userId => ∀ i input x,
      s.calls i = some (.memberFound orgId input x .active) → x.userId ≠ userId
  | .removeUserFromOrgMemberships orgId userId => ∀ i input x status,
      s.calls i = some (.memberFound orgId input x status) → x.userId ≠ userId
  | .fail i => ∀ c, s.calls i = some c → c.member? = none
  | _ => True

/-! ### The invariant of sound runs -/

/-- What a call has read is still so. -/
def CallAnswered (s : State) : Call → Prop
  | .findIdentity input orgId userId =>
    ∃ t, (input.requestId, t) ∈ s.provisioned ∧ t.organizationId = orgId ∧ t.userId = userId
  | .memberFound orgId _ x status =>
    ∃ m ∈ s.orgMemberships, m.isOf orgId x.userId = true ∧
      (status = .active → m.status = .active)
  | _ => True

structure Answered (s : State) : Prop where
  outcomes : ∀ r t, .organization r t ∈ s.outcomes → (r, t) ∈ s.provisioned
  calls : ∀ i c, s.calls i = some c → CallAnswered s c

lemma OrgMembership.isOf_iff {orgId userId : ℕ} {m : OrgMembership} :
    m.isOf orgId userId = true ↔ m.orgId = orgId ∧ m.userId = userId := by
  simp [OrgMembership.isOf]

section Moves

variable {s s' : State} {i : ℕ}

lemma Answered.setCall (h : Answered s) {c : Call} (hc : CallAnswered s c) :
    Answered (s.setCall i c) where
  outcomes := h.outcomes
  calls j d hd := by
    have hsame : CallAnswered (s.setCall i c) d ↔ CallAnswered s d := by cases d <;> rfl
    rw [hsame]
    by_cases hj : j = i
    · rw [hj, State.setCall_calls, Function.update_self, Option.some.injEq] at hd
      rwa [← hd]
    · rw [State.setCall_calls, Function.update_of_ne hj] at hd
      exact h.calls j d hd

lemma Answered.endCall (h : Answered s) {outcome : Outcome}
    (hout : ∀ r t, outcome = .organization r t → (r, t) ∈ s.provisioned) :
    Answered (s.endCall i outcome) where
  outcomes r t hmem := by
    rcases List.mem_append.1 hmem with hold | hnew
    · exact h.outcomes r t hold
    · exact hout r t (List.mem_singleton.1 hnew).symm
  calls j d hd := by
    have hsame : CallAnswered (s.endCall i outcome) d ↔ CallAnswered s d := by cases d <;> rfl
    rw [hsame]
    by_cases hj : j = i
    · rw [hj, State.endCall_calls, Function.update_self] at hd
      simp at hd
    · rw [State.endCall_calls, Function.update_of_ne hj] at hd
      exact h.calls j d hd

/-- Rows are added; keys, ids and other tables do not matter. -/
lemma Answered.extend (h : Answered s) (hcalls : s'.calls = s.calls)
    (houtcomes : s'.outcomes = s.outcomes) (hprovisioned : s.provisioned ⊆ s'.provisioned)
    (hmemberships : s.orgMemberships ⊆ s'.orgMemberships) : Answered s' where
  outcomes r t hmem := hprovisioned (h.outcomes r t (houtcomes ▸ hmem))
  calls j d hd := by
    rw [hcalls] at hd
    have hd' := h.calls j d hd
    cases d with
    | findIdentity input orgId userId =>
      obtain ⟨t, ht, hread⟩ := hd'
      exact ⟨t, hprovisioned ht, hread⟩
    | memberFound orgId input x status =>
      obtain ⟨m, hm, hread⟩ := hd'
      exact ⟨m, hmemberships hm, hread⟩
    | _ => exact trivial

/-- A status is set; what was read as active is so if it is set to active or is not the member's. -/
lemma Answered.setStatus (h : Answered s) {orgId userId : ℕ} {status : MembershipStatus}
    (hread : status = .deactivated → ∀ i input x,
      s.calls i = some (.memberFound orgId input x .active) → x.userId ≠ userId) :
    Answered (setStatus s orgId userId status) where
  outcomes := h.outcomes
  calls j d hd := by
    have hd' := h.calls j d hd
    cases d with
    | memberFound orgId' input x status' =>
      obtain ⟨m, hm, hof, hactive⟩ := hd'
      refine ⟨_, List.mem_map.2 ⟨m, hm, rfl⟩, ?_⟩
      split_ifs with hset
      · refine ⟨hof, fun hstatus => ?_⟩
        cases status with
        | active => rfl
        | deactivated =>
          obtain ⟨rfl, huser⟩ := OrgMembership.isOf_iff.1 hof
          obtain ⟨rfl, huser'⟩ := OrgMembership.isOf_iff.1 hset
          rw [hstatus] at hd
          exact absurd (huser.symm.trans huser') (hread rfl j input x hd)
      · exact ⟨hof, hactive⟩
    | _ => exact hd'

lemma Answered.remove (h : Answered s) {orgId userId : ℕ}
    (hread : ∀ i input x status,
      s.calls i = some (.memberFound orgId input x status) → x.userId ≠ userId) :
    Answered (removeUserFromOrgMemberships s orgId userId) where
  outcomes := h.outcomes
  calls j d hd := by
    have hd' := h.calls j d hd
    cases d with
    | memberFound orgId' input x status =>
      obtain ⟨m, hm, hof, hactive⟩ := hd'
      refine ⟨m, List.mem_filter.2 ⟨hm, ?_⟩, hof, hactive⟩
      rw [Bool.not_eq_true', Bool.eq_false_iff]
      intro hset
      obtain ⟨rfl, huser⟩ := OrgMembership.isOf_iff.1 hof
      obtain ⟨rfl, huser'⟩ := OrgMembership.isOf_iff.1 hset
      exact hread j input x status hd (huser.symm.trans huser')
    | _ => exact hd'

/-! ### Steps -/

lemma Answered.threw (h : Answered s) (message : String) :
    Answered (s.endCall i (.threw message)) :=
  h.endCall (by simp)

lemma startOrganization_answered {input : ProvisionServiceOrganizationRequest} (h : Answered s)
    (hs : startOrganization s i input = some s') : Answered s' := by
  rw [startOrganization.eq_def] at hs
  split at hs
  · simp at hs
  · rw [← Option.some.inj hs]
    exact h.setCall trivial

lemma startMember_answered {orgId : ℕ} {input : ProvisionServiceOrgMemberRequest} (h : Answered s)
    (hs : startMember s i orgId input = some s') : Answered s' := by
  rw [startMember.eq_def] at hs
  split at hs
  · simp at hs
  · split at hs
    · rw [← Option.some.inj hs]
      exact h.setCall trivial
    · rw [← Option.some.inj hs]
      exact h.endCall (by simp)

lemma findOrganization_answered (h : Answered s) (hs : findOrganization s i = some s') :
    Answered s' := by
  rw [findOrganization.eq_def] at hs
  split at hs
  · split at hs
    · rw [← Option.some.inj hs]
      exact h.setCall trivial
    · split_ifs at hs
      · rw [← Option.some.inj hs]
        exact h.threw _
      · rw [← Option.some.inj hs]
        exact h.setCall trivial
  · simp at hs

/-- The membership a replay reads is the created owner's. -/
lemma findOwner_answered {row : Option OrgMembership} (hk : Keyed s) (h : Answered s)
    (hsound : Sound s (.findOwner i row)) (hs : findOwner s i row = some s') : Answered s' := by
  rw [findOwner.eq_def] at hs
  split at hs
  · next input orgId hcall =>
    obtain ⟨t, ht, horg⟩ := hk.calls i _ hcall
    split at hs
    · next m =>
      split_ifs at hs with hrow
      rw [← Option.some.inj hs]
      refine h.setCall ⟨t, ht, horg, ?_⟩
      exact (hsound input orgId hcall t ht m hrow.1 (hrow.2.trans horg.symm)).symm
    · split_ifs at hs
      rw [← Option.some.inj hs]
      exact h.threw _
  · simp at hs

/-- The identity a replay reads is the created one. -/
lemma findIdentity_answered {row : Option ExternalIdentity} (h : Answered s)
    (hsound : Sound s (.findIdentity i row)) (hs : findIdentity s i row = some s') :
    Answered s' := by
  rw [findIdentity.eq_def] at hs
  split at hs
  · next input orgId userId hcall =>
    obtain ⟨t, ht, horg, huser⟩ := h.calls i _ hcall
    split at hs
    · next x =>
      split_ifs at hs with hrow
      rw [← Option.some.inj hs]
      have hid : x.id = t.externalIdentityId :=
        hsound input orgId userId hcall t ht x hrow.1 (hrow.2.trans horg.symm)
      refine h.endCall fun r t' heq => ?_
      cases heq
      rwa [← horg, ← huser, hid]
    · split_ifs at hs
      rw [← Option.some.inj hs]
      exact h.threw _
  · simp at hs

lemma insertOrganization_answered (h : Answered s) (hs : insertOrganization s i = some s') :
    Answered s' := by
  rw [insertOrganization.eq_def] at hs
  split at hs
  · next input _ =>
    split_ifs at hs
    · rw [← Option.some.inj hs]
      exact h.setCall trivial
    · rw [← Option.some.inj hs]
      have hkey : Answered { s with
          requestKeys := Function.update s.requestKeys input.requestId (some i) } :=
        h.extend rfl rfl (List.Subset.refl _) (List.Subset.refl _)
      exact hkey.setCall trivial
  · simp at hs

lemma commitOrganization_answered (h : Answered s) (hs : commitOrganization s i = some s') :
    Answered s' := by
  rw [commitOrganization.eq_def] at hs
  split at hs
  · next input _ =>
    rw [← Option.some.inj hs]
    have hrows : Answered { s with
        nextId := s.nextId + 3
        organizations := s.organizations ++
          [⟨s.nextId, some input.requestId, input.centralizemeOrganizationId⟩]
        orgMemberships := s.orgMemberships ++ [⟨s.nextId, s.nextId + 1, .owner, .active⟩]
        externalIdentities := s.externalIdentities ++
          [⟨s.nextId + 2, s.nextId, s.nextId + 1, input.workosUserId⟩]
        requestKeys := Function.update s.requestKeys input.requestId none
        provisioned := s.provisioned ++
          [(input.requestId, ⟨s.nextId, s.nextId + 1, s.nextId + 2⟩)] } :=
      h.extend rfl rfl (List.subset_append_left _ _) (List.subset_append_left _ _)
    refine hrows.endCall fun r t heq => ?_
    cases heq
    exact List.mem_append_right _ (List.mem_singleton_self _)
  · simp at hs

lemma findOrgLink_answered (h : Answered s) (hs : findOrgLink s i = some s') : Answered s' := by
  rw [findOrgLink.eq_def] at hs
  split at hs
  · split at hs
    · rw [← Option.some.inj hs]
      exact h.endCall (by simp)
    · split_ifs at hs
      · rw [← Option.some.inj hs]
        exact h.endCall (by simp)
      · rw [← Option.some.inj hs]
        exact h.setCall trivial
  · simp at hs

lemma insertMember_answered (h : Answered s) (hs : insertMember s i = some s') :
    Answered s' := by
  rw [insertMember.eq_def] at hs
  split at hs
  · next orgId input _ _ =>
    split_ifs at hs
    · rw [← Option.some.inj hs]
      exact h.setCall trivial
    · rw [← Option.some.inj hs]
      have hkey : Answered { s with
          identityKeys := Function.update s.identityKeys (orgId, input.workosUserId) (some i) } :=
        h.extend rfl rfl (List.Subset.refl _) (List.Subset.refl _)
      exact hkey.setCall trivial
  · simp at hs

lemma commitMember_answered (h : Answered s) (hs : commitMember s i = some s') :
    Answered s' := by
  rw [commitMember.eq_def] at hs
  split at hs
  · rw [← Option.some.inj hs]
    exact (h.endCall (by simp)).extend rfl rfl (List.Subset.refl _)
      (List.subset_append_left _ _)
  · simp at hs

lemma findMemberIdentity_answered (h : Answered s) (hs : findMemberIdentity s i = some s') :
    Answered s' := by
  rw [findMemberIdentity.eq_def] at hs
  split at hs
  · split at hs
    · rw [← Option.some.inj hs]
      exact h.setCall trivial
    · rw [← Option.some.inj hs]
      exact h.threw _
  · simp at hs

lemma findMembership_answered (h : Answered s) (hs : findMembership s i = some s') :
    Answered s' := by
  rw [findMembership.eq_def] at hs
  split at hs
  · split at hs
    · next hfind =>
      rw [← Option.some.inj hs]
      exact h.setCall ⟨_, List.mem_of_find?_eq_some hfind, List.find?_some hfind, id⟩
    · rw [← Option.some.inj hs]
      exact h.threw _
  · simp at hs

lemma commitReplay_answered (h : Answered s) (hs : commitReplay s i = some s') :
    Answered s' := by
  rw [commitReplay.eq_def] at hs
  split at hs
  · rw [← Option.some.inj hs]
    split_ifs
    · exact (h.setStatus (by simp)).endCall (by simp)
    · exact h.endCall (by simp)
  · simp at hs

lemma fail_answered (h : Answered s) (hs : fail s i = some s') : Answered s' := by
  rw [fail.eq_def] at hs
  split at hs
  · simp at hs
  · rw [← Option.some.inj hs]
    exact (h.threw _).extend rfl rfl (List.Subset.refl _) (List.Subset.refl _)
  · rw [← Option.some.inj hs]
    exact (h.threw _).extend rfl rfl (List.Subset.refl _) (List.Subset.refl _)
  · rw [← Option.some.inj hs]
    exact h.threw _

end Moves

/-- A sound step keeps what calls have read. -/
lemma answered_step {s s' : State} {a : Label} (hk : Keyed s) (h : Answered s)
    (hsound : Sound s a) (hs : provisioningSystem.step s a = some s') : Answered s' := by
  cases a with
  | provisionServiceOrganization i input => exact startOrganization_answered h hs
  | provisionServiceOrgMember i orgId input => exact startMember_answered h hs
  | findOrganization i => exact findOrganization_answered h hs
  | findOwner i row => exact findOwner_answered hk h hsound hs
  | findIdentity i row => exact findIdentity_answered h hsound hs
  | insertOrganization i => exact insertOrganization_answered h hs
  | commitOrganization i => exact commitOrganization_answered h hs
  | findOrgLink i => exact findOrgLink_answered h hs
  | insertMember i => exact insertMember_answered h hs
  | commitMember i => exact commitMember_answered h hs
  | findMemberIdentity i => exact findMemberIdentity_answered h hs
  | findMembership i => exact findMembership_answered h hs
  | commitReplay i => exact commitReplay_answered h hs
  | fail i => exact fail_answered h hs
  | register centralizemeOrganizationId =>
    rw [← Option.some.inj hs]
    exact h.extend rfl rfl (List.Subset.refl _) (List.subset_append_left _ _)
  | deactivate orgId userId =>
    rw [← Option.some.inj hs]
    exact h.setStatus fun _ i input x hcall => hsound i input x hcall
  | removeUserFromOrgMemberships orgId userId =>
    rw [← Option.some.inj hs]
    exact h.remove hsound

lemma answered_of_reaches {s : State} (h : provisioningSystem.Reaches Sound s) : Answered s := by
  refine (h.invariant (P := fun s => Keyed s ∧ Answered s) ⟨keyed_init, ?_⟩
    fun _ _ _ hinv hsound hs => ⟨keyed_step hinv.1 hs,
      answered_step hinv.1 hinv.2 hsound hs⟩).2
  constructor <;> simp [provisioningSystem]

lemma Answered.idempotent {s : State} (hk : Keyed s) (h : Answered s) : Idempotent s where
  one_organization := hk.length_filter_le
  same_answer r t t' ht ht' := hk.provisioned_unique (h.outcomes r t ht) (h.outcomes r t' ht')
  answer_created r t ht := ⟨h.outcomes r t ht, hk.identity_created _ (h.outcomes r t ht)⟩

/-! ### The end of a member call -/

section Ends

variable {s s' : State} {i orgId : ℕ} {subject : String}
variable {x : ExternalIdentity} {input : ProvisionServiceOrgMemberRequest}

/-- An identity is the only one of its subject. -/
lemma Tables.filter_key_eq (h : Tables s) (hx : x ∈ s.externalIdentities) :
    s.externalIdentities.filter (fun y => y.key = x.key) = [x] := by
  rw [← List.perm_singleton, List.perm_ext_iff_of_nodup
    (h.identity_nodup.of_map.filter _) (List.nodup_singleton x)]
  intro y
  rw [List.mem_filter, List.mem_singleton, decide_eq_true_iff]
  constructor
  · rintro ⟨hy, hkey⟩
    exact h.identity_unique hy hx hkey
  · rintro rfl
    exact ⟨hx, rfl⟩

lemma Tables.activeSubject (h : Tables s) (hx : x ∈ s.externalIdentities)
    (hkey : x.key = (orgId, subject)) {m : OrgMembership} (hm : m ∈ s.orgMemberships)
    (hof : m.isOf orgId x.userId = true) (hactive : m.status = .active) :
    ActiveSubject s orgId subject := by
  obtain ⟨horg, huser⟩ := OrgMembership.isOf_iff.1 hof
  exact ⟨x, hkey ▸ h.filter_key_eq hx, m, hm, horg, huser, hactive⟩

/-- The call whose statement a step is. -/
def Label.call? : Label → Option ℕ
  | .provisionServiceOrganization i _ => some i
  | .provisionServiceOrgMember i _ _ => some i
  | .findOrganization i => some i
  | .findOwner i _ => some i
  | .findIdentity i _ => some i
  | .insertOrganization i => some i
  | .commitOrganization i => some i
  | .findOrgLink i => some i
  | .insertMember i => some i
  | .commitMember i => some i
  | .findMemberIdentity i => some i
  | .findMembership i => some i
  | .commitReplay i => some i
  | .fail i => some i
  | .register _ => none
  | .deactivate _ _ => none
  | .removeUserFromOrgMemberships _ _ => none

/-- A step leaves the other calls where they are. -/
lemma calls_of_ne {a : Label} (hs : step s a = some s') (hne : a.call? ≠ some i) :
    s'.calls i = s.calls i := by
  have hupdate : ∀ j o, s'.calls = Function.update s.calls j o → j ≠ i →
      s'.calls i = s.calls i := by
    intro j o hcalls hji
    rw [hcalls, Function.update_of_ne hji.symm]
  have hj : ∀ j, a.call? = some j → j ≠ i := fun j hcall hji => hne (hji ▸ hcall)
  cases a with
  | insertOrganization j =>
    have hs' : insertOrganization s j = some s' := hs
    rw [insertOrganization.eq_def] at hs'
    split at hs'
    · split_ifs at hs' <;> rw [← Option.some.inj hs'] <;>
        exact Function.update_of_ne (hj j rfl).symm _ _
    · simp at hs'
  | insertMember j =>
    have hs' : insertMember s j = some s' := hs
    rw [insertMember.eq_def] at hs'
    split at hs'
    · split_ifs at hs' <;> rw [← Option.some.inj hs'] <;>
        exact Function.update_of_ne (hj j rfl).symm _ _
    · simp at hs'
  | _ =>
    grind +funCC [step, Label.call?, startOrganization, startMember, findOrganization, findOwner,
      findIdentity, commitOrganization, findOrgLink, commitMember, findMemberIdentity,
      findMembership, commitReplay, fail, register, setStatus, removeUserFromOrgMemberships,
      State.setCall, State.endCall]

/-- The lookup of an organization finds one that is there. -/
lemma Tables.find?_id (h : Tables s) {org : Organization} (horg : org ∈ s.organizations) :
    s.organizations.find? (fun o => o.id = org.id) = some org := by
  cases hfind : s.organizations.find? (fun o => o.id = org.id) with
  | none =>
    have hne := List.find?_eq_none.1 hfind org horg
    simp at hne
  | some o =>
    have hid := List.find?_some hfind
    rw [decide_eq_true_iff] at hid
    rw [List.inj_on_of_nodup_map h.id_nodup (List.mem_of_find?_eq_some hfind) horg hid]

/-- `insertNewOrgMember` ends a call on a managed organization only by its commit. -/
lemma findOrgLink_goesOn (hk : Keyed s) {org : Organization} (horg : org ∈ s.organizations)
    (hcm : org.centralizemeOrganizationId ≠ none) {role : OrgRole}
    (hcall : s.calls i = some (.findOrgLink org.id input role)) (hs : findOrgLink s i = some s') :
    s'.calls i ≠ none := by
  rw [findOrgLink.eq_def, hcall] at hs
  dsimp only at hs
  rw [hk.find?_id horg] at hs
  dsimp only at hs
  rw [if_neg hcm] at hs
  rw [← Option.some.inj hs, State.setCall_calls, Function.update_self]
  simp

lemma insertMember_goesOn (hs : insertMember s i = some s') : s'.calls i ≠ none := by
  rw [insertMember.eq_def] at hs
  split at hs
  · split_ifs at hs
    · rw [← Option.some.inj hs, State.setCall_calls, Function.update_self]
      simp
    · rw [← Option.some.inj hs]
      show Function.update s.calls i _ i ≠ none
      rw [Function.update_self]
      simp
  · simp at hs

lemma commitMember_active (hk : Keyed s') {role : OrgRole}
    (hcall : s.calls i = some (.memberInserted orgId input role)) (hs : commitMember s i = some s')
    : ActiveSubject s' orgId input.workosUserId := by
  rw [commitMember.eq_def, hcall] at hs
  dsimp only at hs
  rw [← Option.some.inj hs] at hk ⊢
  exact hk.activeSubject (List.mem_append_right _ (List.mem_singleton_self _)) rfl
    (List.mem_append_right _ (List.mem_singleton_self _)) (by simp [OrgMembership.isOf]) rfl

lemma findMemberIdentity_goesOn (hk : Keyed s)
    (hcall : s.calls i = some (.findMemberIdentity orgId input))
    (hs : findMemberIdentity s i = some s') : s'.calls i ≠ none := by
  obtain ⟨x, hx, hkey⟩ := hk.calls i _ hcall
  rw [findMemberIdentity.eq_def, hcall] at hs
  dsimp only at hs
  split at hs
  · rw [← Option.some.inj hs, State.setCall_calls, Function.update_self]
    simp
  · next hfind =>
    have hne := List.find?_eq_none.1 hfind x hx
    simp [hkey] at hne

/-- A membership that is there when the replay reads it is found. -/
lemma findMembership_goesOn (hcall : s.calls i = some (.findMembership orgId input x))
    (hsound : Sound s (.findMembership i)) (hs : findMembership s i = some s') :
    s'.calls i ≠ none := by
  obtain ⟨m, hm, hof⟩ := hsound orgId input x hcall
  rw [findMembership.eq_def, hcall] at hs
  dsimp only at hs
  split at hs
  · rw [← Option.some.inj hs, State.setCall_calls, Function.update_self]
    simp
  · next hfind => exact absurd hof (List.find?_eq_none.1 hfind m hm)

/-- A replay reactivates what it has read as deactivated. -/
lemma commitReplay_active (hk : Keyed s) (h : Answered s) {status : MembershipStatus}
    (hcall : s.calls i = some (.memberFound orgId input x status)) (hs : commitReplay s i = some s')
    : ActiveSubject s' orgId input.workosUserId := by
  have hk' : Keyed s' := commitReplay_keyed hk hs
  obtain ⟨hx, hkey⟩ := hk.calls i _ hcall
  obtain ⟨m, hm, hof, hactive⟩ := h.calls i _ hcall
  rw [commitReplay.eq_def, hcall] at hs
  dsimp only at hs
  rw [← Option.some.inj hs] at hk' ⊢
  cases status with
  | active => exact hk'.activeSubject hx hkey hm hof (hactive rfl)
  | deactivated =>
    have hmem : { m with status := .active } ∈ s.orgMemberships.map fun m =>
        if m.isOf orgId x.userId then { m with status := .active } else m :=
      List.mem_map.2 ⟨m, hm, by rw [if_pos hof]⟩
    exact hk'.activeSubject hx hkey hmem hof rfl

/-- A sound step that ends a member call on a managed organization leaves its subject active. -/
lemma membersEndActive_step {a : Label} (hk : Keyed s) (h : Answered s) (hsound : Sound s a)
    (hs : provisioningSystem.step s a = some s') : MembersEndActive s s' := by
  rintro i c orgId subject hcall hmember hend ⟨org, horg, hid, hcm⟩
  have hmine : a.call? = some i := by
    by_contra hne
    rw [calls_of_ne hs hne, hcall] at hend
    simp at hend
  have hstep : step s a = some s' := hs
  cases a with
  | findOrgLink j =>
    obtain rfl : j = i := Option.some.inj hmine
    cases c with
    | findOrgLink orgId' input role =>
      obtain ⟨rfl, rfl⟩ : orgId' = orgId ∧ input.workosUserId = subject := by
        simpa [Call.member?] using hmember
      subst hid
      exact absurd hend (findOrgLink_goesOn hk horg hcm hcall hstep)
    | _ => grind [step, findOrgLink]
  | insertMember j =>
    obtain rfl : j = i := Option.some.inj hmine
    exact absurd hend (insertMember_goesOn hstep)
  | commitMember j =>
    obtain rfl : j = i := Option.some.inj hmine
    cases c with
    | memberInserted orgId' input role =>
      obtain ⟨rfl, rfl⟩ : orgId' = orgId ∧ input.workosUserId = subject := by
        simpa [Call.member?] using hmember
      exact commitMember_active (keyed_step hk hs) hcall hstep
    | _ => grind [step, commitMember]
  | findMemberIdentity j =>
    obtain rfl : j = i := Option.some.inj hmine
    cases c with
    | findMemberIdentity orgId' input =>
      exact absurd hend (findMemberIdentity_goesOn hk hcall hstep)
    | _ => grind [step, findMemberIdentity]
  | findMembership j =>
    obtain rfl : j = i := Option.some.inj hmine
    cases c with
    | findMembership orgId' input x =>
      exact absurd hend (findMembership_goesOn hcall hsound hstep)
    | _ => grind [step, findMembership]
  | commitReplay j =>
    obtain rfl : j = i := Option.some.inj hmine
    cases c with
    | memberFound orgId' input x status =>
      obtain ⟨rfl, rfl⟩ : orgId' = orgId ∧ input.workosUserId = subject := by
        simpa [Call.member?] using hmember
      exact commitReplay_active hk h hcall hstep
    | _ => grind [step, commitReplay]
  | fail j =>
    obtain rfl : j = i := Option.some.inj hmine
    rw [hsound c hcall] at hmember
    simp at hmember
  | register _ => simp [Label.call?] at hmine
  | deactivate _ _ => simp [Label.call?] at hmine
  | removeUserFromOrgMemberships _ _ => simp [Label.call?] at hmine
  | _ =>
    -- the call is none of the member calls this statement belongs to
    cases hmine
    grind [step, Call.member?, startOrganization, startMember, findOrganization, findOwner,
      findIdentity, insertOrganization, commitOrganization]

end Ends

/-- In every run of sound steps provisioning is idempotent, and every member call ends with an
active member. -/
theorem idempotent_of_sound {s : State} (h : provisioningSystem.Reaches Sound s) :
    Idempotent s ∧ ∀ a s', Sound s a → provisioningSystem.step s a = some s' →
      MembersEndActive s s' :=
  ⟨(answered_of_reaches h).idempotent (keyed_of_reaches h), fun _ _ hsound hs =>
    membersEndActive_step (keyed_of_reaches h) (answered_of_reaches h) hsound hs⟩

def acmeRequest : ProvisionServiceOrganizationRequest := ⟨"request", "ada", some "acme"⟩

def benRequest : ProvisionServiceOrgMemberRequest := ⟨"ben", none⟩

/-- An organization is provisioned, and a member is about to be. -/
def provisionAcme : List Label :=
  [.provisionServiceOrganization 0 acmeRequest, .findOrganization 0, .insertOrganization 0,
    .commitOrganization 0, .provisionServiceOrgMember 1 0 benRequest, .findOrgLink 1,
    .insertMember 1]

/-- A member is provisioned for the first time. -/
theorem idempotent_of_sound_acme : ∃ s, provisioningSystem.Reaches Sound s ∧
    s.outcomes = [.organization "request" ⟨0, 1, 2⟩] ∧
    s.calls 1 = some (.memberInserted 0 benRequest .member) ∧
    Idempotent s ∧ ∀ a s', Sound s a → provisioningSystem.step s a = some s' →
      MembersEndActive s s' := by
  obtain ⟨s, hexec, houtcomes, hcall⟩ := provisioningSystem.exists_of_exec (fun _ _ => True)
    provisioningSystem.init provisionAcme
    (fun s => s.outcomes = [.organization "request" ⟨0, 1, 2⟩] ∧
      s.calls 1 = some (.memberInserted 0 benRequest .member)) (by decide +kernel)
  have hreach : provisioningSystem.Reaches Sound s :=
    Run.System.steps_of_exec_of_forall (by simp [provisionAcme, Sound]) hexec
  exact ⟨s, hreach, houtcomes, hcall, idempotent_of_sound hreach⟩

/-! ### Runs that do not answer alike -/

/-- The request is repeated when the organization has a second member, whose row is read. -/
def replayAfterMember : List Label :=
  provisionAcme ++ [.commitMember 1, .provisionServiceOrganization 2 acmeRequest,
    .findOrganization 2, .findOwner 2 (some ⟨0, 3, .member, .active⟩),
    .findIdentity 2 (some ⟨2, 0, 1, "ada"⟩)]

/-- The member is removed, and provisioned again. -/
def replayAfterRemoval : List Label :=
  provisionAcme ++ [.commitMember 1, .removeUserFromOrgMemberships 0 3,
    .provisionServiceOrgMember 2 0 benRequest, .findOrgLink 2, .insertMember 2,
    .findMemberIdentity 2]

/-- One request has two answers, the second with a user the identity is not of; and a removed member
cannot be provisioned again. -/
theorem provisioning_not_idempotent :
    (∃ s, provisioningSystem.Reaches (fun _ _ => True) s ∧
      .organization "request" ⟨0, 1, 2⟩ ∈ s.outcomes ∧
      .organization "request" ⟨0, 3, 2⟩ ∈ s.outcomes) ∧
      (∃ s s', provisioningSystem.Reaches (fun _ _ => True) s ∧
        provisioningSystem.step s (.findMembership 2) = some s' ∧
        s'.outcomes.getLast? = some (.threw noMemberRowMessage) ∧ ¬MembersEndActive s s') ∧
      ¬∀ s, provisioningSystem.Reaches (fun _ _ => True) s → Idempotent s ∧
        ∀ a s', provisioningSystem.step s a = some s' → MembersEndActive s s' := by
  obtain ⟨s₁, hexec₁, hfirst, hsecond⟩ := provisioningSystem.exists_of_exec (fun _ _ => True)
    provisioningSystem.init replayAfterMember
    (fun s => .organization "request" ⟨0, 1, 2⟩ ∈ s.outcomes ∧
      .organization "request" ⟨0, 3, 2⟩ ∈ s.outcomes) (by decide +kernel)
  have hreach₁ := Run.System.steps_of_exec hexec₁
  obtain ⟨s₂, hexec₂, hcall, horgs, hmembers, hidentities⟩ :=
    provisioningSystem.exists_of_exec (fun _ _ => True) provisioningSystem.init replayAfterRemoval
      (fun s => s.calls 2 = some (.findMembership 0 benRequest ⟨4, 0, 3, "ben"⟩) ∧
        s.organizations = [⟨0, some "request", some "acme"⟩] ∧
        s.orgMemberships = [⟨0, 1, .owner, .active⟩] ∧
        s.externalIdentities = [⟨2, 0, 1, "ada"⟩, ⟨4, 0, 3, "ben"⟩]) (by decide +kernel)
  have hstep : provisioningSystem.step s₂ (.findMembership 2) =
      some (s₂.endCall 2 (.threw noMemberRowMessage)) := by
    show findMembership s₂ 2 = _
    rw [findMembership.eq_def, hcall, hmembers]
    rfl
  have hinactive : ¬MembersEndActive s₂ (s₂.endCall 2 (.threw noMemberRowMessage)) := by
    intro hall
    obtain ⟨x, hx, m, hm, -, huser, -⟩ := hall 2 _ 0 "ben" hcall rfl (by simp)
      ⟨_, by rw [horgs]; exact List.mem_singleton_self _, rfl, by simp⟩
    have hm' : m ∈ s₂.orgMemberships := hm
    have hx' : s₂.externalIdentities.filter (fun x => x.key = (0, "ben")) = [x] := hx
    rw [hmembers, List.mem_singleton] at hm'
    rw [hidentities] at hx'
    have hfilter : [(⟨2, 0, 1, "ada"⟩ : ExternalIdentity), ⟨4, 0, 3, "ben"⟩].filter
        (fun x => x.key = (0, "ben")) = [⟨4, 0, 3, "ben"⟩] := by decide +kernel
    rw [hfilter] at hx'
    rw [← List.singleton_injective hx', hm'] at huser
    simp at huser
  refine ⟨⟨s₁, hreach₁, hfirst, hsecond⟩, ⟨s₂, _, Run.System.steps_of_exec hexec₂, hstep, ?_,
    hinactive⟩, fun hall => ?_⟩
  · simp [State.endCall]
  · exact absurd ((hall s₁ hreach₁).1.same_answer _ _ _ hfirst hsecond) (by decide)

end ProjectVault.ServiceProvisioning
