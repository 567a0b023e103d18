import ProjectVault.ServiceProvisioning.System

/-!
What the unique indexes give in every run of provisioning, whatever happens between its calls.
-/

namespace ProjectVault.ServiceProvisioning

/-- The unique indexes hold; every organization with a request id has been provisioned for it, with
an identity that is still there. -/
structure Tables (s : State) : Prop where
  id_nodup : (s.organizations.map (·.id)).Nodup
  id_lt : ∀ org ∈ s.organizations, org.id < s.nextId
  identity_nodup : (s.externalIdentities.map (·.key)).Nodup
  identity_lt : ∀ x ∈ s.externalIdentities, x.orgId < s.nextId
  request_nodup : (s.provisioned.map (·.1)).Nodup
  provisioned_eq : s.provisioned.map (fun p => (p.1, p.2.organizationId)) =
    s.organizations.filterMap fun org => org.serviceProvisioningRequestId.map fun r => (r, org.id)
  identity_created : ∀ p ∈ s.provisioned, ∃ subject,
    ⟨p.2.externalIdentityId, p.2.organizationId, p.2.userId, subject⟩ ∈ s.externalIdentities

/-- What call number `i` may rely on. -/
def CallKeyed (s : State) (i : ℕ) : Call → Prop
  | .findOwner input orgId =>
    ∃ t, (input.requestId, t) ∈ s.provisioned ∧ t.organizationId = orgId
  | .findIdentity input orgId _ =>
    ∃ t, (input.requestId, t) ∈ s.provisioned ∧ t.organizationId = orgId
  | .organizationInserted input =>
    s.requestKeys input.requestId = some i ∧ input.requestId ∉ s.provisioned.map (·.1)
  | .insertMember orgId _ _ => orgId < s.nextId
  | .memberInserted orgId input _ =>
    orgId < s.nextId ∧ s.identityKeys (orgId, input.workosUserId) = some i ∧
      (orgId, input.workosUserId) ∉ s.externalIdentities.map (·.key)
  | .findMemberIdentity orgId input =>
    ∃ x ∈ s.externalIdentities, x.key = (orgId, input.workosUserId)
  | .findMembership orgId input x =>
    x ∈ s.externalIdentities ∧ x.key = (orgId, input.workosUserId)
  | .memberFound orgId input x _ =>
    x ∈ s.externalIdentities ∧ x.key = (orgId, input.workosUserId)
  | _ => True

structure Keyed (s : State) : Prop extends Tables s where
  calls : ∀ i c, s.calls i = some c → CallKeyed s i c

namespace Tables

variable {s : State}

lemma exists_provisioned (h : Tables s) {org : Organization} (horg : org ∈ s.organizations)
    {r : String} (hr : org.serviceProvisioningRequestId = some r) :
    ∃ t, (r, t) ∈ s.provisioned ∧ t.organizationId = org.id := by
  have hmem : (r, org.id) ∈ s.provisioned.map fun p => (p.1, p.2.organizationId) := by
    rw [h.provisioned_eq, List.mem_filterMap]
    exact ⟨org, horg, by rw [hr]; rfl⟩
  obtain ⟨p, hp, heq⟩ := List.mem_map.1 hmem
  obtain ⟨rfl, hid⟩ := Prod.mk.inj heq
  exact ⟨p.2, hp, hid⟩

lemma exists_organization (h : Tables s) {r : String} {t : ProvisionServiceOrganizationResult}
    (ht : (r, t) ∈ s.provisioned) :
    ∃ org ∈ s.organizations, org.id = t.organizationId ∧
      org.serviceProvisioningRequestId = some r := by
  have hmem : (r, t.organizationId) ∈ s.organizations.filterMap fun org =>
      org.serviceProvisioningRequestId.map fun r => (r, org.id) := by
    rw [← h.provisioned_eq]
    exact List.mem_map.2 ⟨_, ht, rfl⟩
  obtain ⟨org, horg, heq⟩ := List.mem_filterMap.1 hmem
  obtain ⟨r', hr', heq⟩ := Option.map_eq_some_iff.1 heq
  obtain ⟨rfl, hid⟩ := Prod.mk.inj heq
  exact ⟨org, horg, hid, hr'⟩

/-- One answer for each request. -/
lemma provisioned_unique (h : Tables s) {r : String} {t t' : ProvisionServiceOrganizationResult}
    (ht : (r, t) ∈ s.provisioned) (ht' : (r, t') ∈ s.provisioned) : t = t' :=
  congrArg Prod.snd (List.inj_on_of_nodup_map h.request_nodup ht ht' rfl)

/-- One identity for each subject. -/
lemma identity_unique (h : Tables s) {x y : ExternalIdentity} (hx : x ∈ s.externalIdentities)
    (hy : y ∈ s.externalIdentities) (hkey : x.key = y.key) : x = y :=
  List.inj_on_of_nodup_map h.identity_nodup hx hy hkey

/-- **One organization** for each request id. -/
lemma length_filter_le (h : Tables s) (r : String) :
    (s.organizations.filter fun org => org.serviceProvisioningRequestId = some r).length ≤ 1 := by
  have hrequests : (s.organizations.filterMap (·.serviceProvisioningRequestId)).Nodup := by
    have hfst := congrArg (List.map Prod.fst) h.provisioned_eq
    rw [List.map_map, List.map_filterMap] at hfst
    have hnodup := h.request_nodup
    rw [show s.provisioned.map (·.1) = _ from hfst] at hnodup
    simpa [Function.comp_def] using hnodup
  calc (s.organizations.filter fun org => org.serviceProvisioningRequestId = some r).length
      = (s.organizations.filterMap (·.serviceProvisioningRequestId)).count r := by
        rw [List.count_filterMap, List.countP_eq_length_filter]
        congr 1
        exact List.filter_congr fun org _ => (beq_eq_decide _ _).symm
    _ ≤ 1 := List.nodup_iff_count_le_one.1 hrequests r

end Tables

/-! ### New rows -/

section Snoc

variable {α β : Type*} {l : List α} {x : α}

lemma nodup_map_snoc {f : α → β} (h : (l.map f).Nodup) (hx : f x ∉ l.map f) :
    ((l ++ [x]).map f).Nodup := by
  rw [List.map_append, List.map_singleton, ← List.concat_eq_append]
  exact h.concat hx

lemma lt_of_mem_snoc {f : α → ℕ} {n m : ℕ} (h : ∀ y ∈ l, f y < n) (hle : n ≤ m) (hx : f x < m) :
    ∀ y ∈ l ++ [x], f y < m := by
  intro y hy
  rcases List.mem_append.1 hy with hold | hnew
  · exact (h y hold).trans_le hle
  · rwa [List.mem_singleton.1 hnew]

end Snoc

lemma Tables.nextId_notMem {s : State} (h : Tables s) :
    s.nextId ∉ s.organizations.map (·.id) := by
  intro hmem
  obtain ⟨org, horg, heq⟩ := List.mem_map.1 hmem
  exact (h.id_lt org horg).ne heq

/-! ### Moves -/

section Moves

variable {s s' : State} {i : ℕ}

lemma callKeyed_setCall {c : Call} {j : ℕ} {d : Call} :
    CallKeyed (s.setCall i c) j d ↔ CallKeyed s j d := by
  cases d <;> rfl

lemma callKeyed_endCall {outcome : Outcome} {j : ℕ} {d : Call} :
    CallKeyed (s.endCall i outcome) j d ↔ CallKeyed s j d := by
  cases d <;> rfl

/-- A call goes on to a statement it may be at. -/
lemma Keyed.setCall (h : Keyed s) {c : Call} (hc : CallKeyed s i c) : Keyed (s.setCall i c) where
  toTables := ⟨h.id_nodup, h.id_lt, h.identity_nodup, h.identity_lt, h.request_nodup,
    h.provisioned_eq, h.identity_created⟩
  calls j d hd := by
    rw [callKeyed_setCall]
    by_cases hj : j = i
    · rw [hj, State.setCall_calls, Function.update_self, Option.some.injEq] at hd
      rw [hj, ← hd]
      exact hc
    · rw [State.setCall_calls, Function.update_of_ne hj] at hd
      exact h.calls j d hd

lemma Keyed.endCall (h : Keyed s) (outcome : Outcome) : Keyed (s.endCall i outcome) where
  toTables := ⟨h.id_nodup, h.id_lt, h.identity_nodup, h.identity_lt, h.request_nodup,
    h.provisioned_eq, h.identity_created⟩
  calls j d hd := by
    rw [callKeyed_endCall]
    by_cases hj : j = i
    · rw [hj, State.endCall_calls, Function.update_self] at hd
      simp at hd
    · rw [State.endCall_calls, Function.update_of_ne hj] at hd
      exact h.calls j d hd

/-- Memberships belong to no index. -/
lemma Keyed.setMemberships (h : Keyed s) (ms : List OrgMembership) :
    Keyed { s with orgMemberships := ms } where
  toTables := ⟨h.id_nodup, h.id_lt, h.identity_nodup, h.identity_lt, h.request_nodup,
    h.provisioned_eq, h.identity_created⟩
  calls j d hd := by
    have hd' := h.calls j d hd
    cases d <;> exact hd'

/-- No call that is in progress has the key of a request. -/
def RequestFree (s : State) (r : String) : Prop :=
  ∀ j input, s.calls j = some (.organizationInserted input) → input.requestId ≠ r

def SubjectFree (s : State) (key : ℕ × String) : Prop :=
  ∀ j orgId input role, s.calls j = some (.memberInserted orgId input role) →
    (orgId, input.workosUserId) ≠ key

/-- The key of a request that no call in progress has changes hands. -/
lemma Keyed.setRequestKey (h : Keyed s) {r : String} (hfree : RequestFree s r) (o : Option ℕ) :
    Keyed { s with requestKeys := Function.update s.requestKeys r o } where
  toTables := ⟨h.id_nodup, h.id_lt, h.identity_nodup, h.identity_lt, h.request_nodup,
    h.provisioned_eq, h.identity_created⟩
  calls j d hd := by
    have hd' := h.calls j d hd
    cases d with
    | organizationInserted input =>
      refine ⟨?_, hd'.2⟩
      show Function.update s.requestKeys r o input.requestId = some j
      rw [Function.update_of_ne (hfree j input hd)]
      exact hd'.1
    | _ => exact hd'

lemma Keyed.setIdentityKey (h : Keyed s) {key : ℕ × String} (hfree : SubjectFree s key)
    (o : Option ℕ) : Keyed { s with identityKeys := Function.update s.identityKeys key o } where
  toTables := ⟨h.id_nodup, h.id_lt, h.identity_nodup, h.identity_lt, h.request_nodup,
    h.provisioned_eq, h.identity_created⟩
  calls j d hd := by
    have hd' := h.calls j d hd
    cases d with
    | memberInserted orgId input role =>
      refine ⟨hd'.1, ?_, hd'.2.2⟩
      show Function.update s.identityKeys key o (orgId, input.workosUserId) = some j
      rw [Function.update_of_ne (hfree j orgId input role hd)]
      exact hd'.2.1
    | _ => exact hd'

lemma Keyed.requestFree_endCall (h : Keyed s) {input : ProvisionServiceOrganizationRequest}
    (hcall : s.calls i = some (.organizationInserted input)) (outcome : Outcome) :
    RequestFree (s.endCall i outcome) input.requestId := by
  intro j input' hj hsame
  have hne : j ≠ i := by
    rintro rfl
    simp at hj
  rw [State.endCall_calls, Function.update_of_ne hne] at hj
  have hmine := (h.calls i _ hcall).1
  have hyours := (h.calls j _ hj).1
  rw [hsame, hmine] at hyours
  exact hne (Option.some.inj hyours).symm

lemma Keyed.subjectFree_endCall (h : Keyed s) {orgId : ℕ}
    {input : ProvisionServiceOrgMemberRequest} {role : OrgRole}
    (hcall : s.calls i = some (.memberInserted orgId input role)) (outcome : Outcome) :
    SubjectFree (s.endCall i outcome) (orgId, input.workosUserId) := by
  intro j orgId' input' role' hj hsame
  have hne : j ≠ i := by
    rintro rfl
    simp at hj
  rw [State.endCall_calls, Function.update_of_ne hne] at hj
  have hmine := (h.calls i _ hcall).2.1
  have hyours := (h.calls j _ hj).2.1
  rw [hsame, hmine] at hyours
  exact hne (Option.some.inj hyours).symm

/-- The rows of an organization that nobody provisioned. -/
lemma Keyed.register (h : Keyed s) (centralizemeOrganizationId : Option String) :
    Keyed (register s centralizemeOrganizationId) where
  id_nodup := nodup_map_snoc h.id_nodup h.nextId_notMem
  id_lt := lt_of_mem_snoc h.id_lt (Nat.le_add_right _ 2) (show s.nextId < s.nextId + 2 by omega)
  identity_nodup := h.identity_nodup
  identity_lt x hx := (h.identity_lt x hx).trans (by simp [ServiceProvisioning.register])
  request_nodup := h.request_nodup
  provisioned_eq := by
    rw [ServiceProvisioning.register, List.filterMap_append, ← h.provisioned_eq]
    exact (List.append_nil _).symm
  identity_created := h.identity_created
  calls j d hd := by
    have hd' := h.calls j d hd
    have hlt : s.nextId ≤ s.nextId + 2 := Nat.le_add_right _ _
    cases d with
    | insertMember orgId input role => exact lt_of_lt_of_le (b := s.nextId) hd' hlt
    | memberInserted orgId input role => exact ⟨lt_of_lt_of_le (b := s.nextId) hd'.1 hlt, hd'.2⟩
    | _ => exact hd'

/-- The rows of a provisioned organization, for a request that has none. -/
lemma Keyed.addOrganization (h : Keyed s) {r subject : String}
    {centralizemeOrganizationId : Option String} (hnew : r ∉ s.provisioned.map (·.1))
    (hfree : RequestFree s r) :
    Keyed { s with
      nextId := s.nextId + 3
      organizations := s.organizations ++ [⟨s.nextId, some r, centralizemeOrganizationId⟩]
      orgMemberships := s.orgMemberships ++ [⟨s.nextId, s.nextId + 1, .owner, .active⟩]
      externalIdentities := s.externalIdentities ++
        [⟨s.nextId + 2, s.nextId, s.nextId + 1, subject⟩]
      provisioned := s.provisioned ++ [(r, ⟨s.nextId, s.nextId + 1, s.nextId + 2⟩)] } where
  id_nodup := nodup_map_snoc h.id_nodup h.nextId_notMem
  id_lt := lt_of_mem_snoc h.id_lt (Nat.le_add_right _ 3) (show s.nextId < s.nextId + 3 by omega)
  identity_nodup := by
    refine nodup_map_snoc h.identity_nodup fun hmem => ?_
    obtain ⟨x, hx, heq⟩ := List.mem_map.1 hmem
    exact (h.identity_lt x hx).ne (congrArg Prod.fst heq)
  identity_lt :=
    lt_of_mem_snoc h.identity_lt (Nat.le_add_right _ 3) (show s.nextId < s.nextId + 3 by omega)
  request_nodup := nodup_map_snoc h.request_nodup hnew
  provisioned_eq := by
    rw [List.map_append, List.filterMap_append, h.provisioned_eq]
    rfl
  identity_created p hp := by
    rcases List.mem_append.1 hp with hold | hmem
    · obtain ⟨subject', hmem⟩ := h.identity_created p hold
      exact ⟨subject', List.mem_append_left _ hmem⟩
    · rw [List.mem_singleton.1 hmem]
      exact ⟨subject, List.mem_append_right _ (List.mem_singleton_self _)⟩
  calls j d hd := by
    have hd' := h.calls j d hd
    have hlt : s.nextId ≤ s.nextId + 3 := Nat.le_add_right _ _
    cases d with
    | findOwner input orgId =>
      obtain ⟨t, ht, hid⟩ := hd'
      exact ⟨t, List.mem_append_left _ ht, hid⟩
    | findIdentity input orgId userId =>
      obtain ⟨t, ht, hid⟩ := hd'
      exact ⟨t, List.mem_append_left _ ht, hid⟩
    | organizationInserted input =>
      refine ⟨hd'.1, ?_⟩
      rw [List.map_append, List.mem_append]
      rintro (hold | hmem)
      · exact hd'.2 hold
      · exact hfree j input hd (by simpa using hmem)
    | insertMember orgId input role => exact lt_of_lt_of_le (b := s.nextId) hd' hlt
    | memberInserted orgId input role =>
      refine ⟨lt_of_lt_of_le (b := s.nextId) hd'.1 hlt, hd'.2.1, ?_⟩
      rw [List.map_append, List.mem_append]
      rintro (hold | hmem)
      · exact hd'.2.2 hold
      · have hkey : (orgId, input.workosUserId) = (s.nextId, subject) := by
          simpa [ExternalIdentity.key] using hmem
        exact hd'.1.ne (congrArg Prod.fst hkey)
    | findMemberIdentity orgId input =>
      obtain ⟨x, hx, hkey⟩ := hd'
      exact ⟨x, List.mem_append_left _ hx, hkey⟩
    | findMembership orgId input x => exact ⟨List.mem_append_left _ hd'.1, hd'.2⟩
    | memberFound orgId input x status => exact ⟨List.mem_append_left _ hd'.1, hd'.2⟩
    | _ => exact trivial

/-- The rows of a provisioned member, for a subject that has none. -/
lemma Keyed.addMember (h : Keyed s) {orgId : ℕ} {subject : String} {role : OrgRole}
    (hlt : orgId < s.nextId) (hnew : (orgId, subject) ∉ s.externalIdentities.map (·.key))
    (hfree : SubjectFree s (orgId, subject)) :
    Keyed { s with
      nextId := s.nextId + 2
      orgMemberships := s.orgMemberships ++ [⟨orgId, s.nextId, role, .active⟩]
      externalIdentities := s.externalIdentities ++
        [⟨s.nextId + 1, orgId, s.nextId, subject⟩] } where
  id_nodup := h.id_nodup
  id_lt org horg := (h.id_lt org horg).trans (by simp)
  identity_nodup := nodup_map_snoc h.identity_nodup hnew
  identity_lt :=
    lt_of_mem_snoc h.identity_lt (Nat.le_add_right _ 2) (show orgId < s.nextId + 2 by omega)
  request_nodup := h.request_nodup
  provisioned_eq := h.provisioned_eq
  identity_created p hp := by
    obtain ⟨subject', hmem⟩ := h.identity_created p hp
    exact ⟨subject', List.mem_append_left _ hmem⟩
  calls j d hd := by
    have hd' := h.calls j d hd
    have hle : s.nextId ≤ s.nextId + 2 := Nat.le_add_right _ _
    cases d with
    | insertMember orgId' input role' => exact lt_of_lt_of_le (b := s.nextId) hd' hle
    | memberInserted orgId' input role' =>
      refine ⟨lt_of_lt_of_le (b := s.nextId) hd'.1 hle, hd'.2.1, ?_⟩
      rw [List.map_append, List.mem_append]
      rintro (hold | hmem)
      · exact hd'.2.2 hold
      · exact hfree j orgId' input role' hd (by simpa [ExternalIdentity.key] using hmem)
    | findMemberIdentity orgId' input =>
      obtain ⟨x, hx, hkey⟩ := hd'
      exact ⟨x, List.mem_append_left _ hx, hkey⟩
    | findMembership orgId' input x => exact ⟨List.mem_append_left _ hd'.1, hd'.2⟩
    | memberFound orgId' input x status => exact ⟨List.mem_append_left _ hd'.1, hd'.2⟩
    | _ => exact hd'

/-! ### Steps -/

lemma startOrganization_keyed {input : ProvisionServiceOrganizationRequest} (h : Keyed s)
    (hs : startOrganization s i input = some s') : Keyed s' := by
  rw [startOrganization.eq_def] at hs
  split at hs
  · simp at hs
  · rw [← Option.some.inj hs]
    exact h.setCall trivial

lemma startMember_keyed {orgId : ℕ} {input : ProvisionServiceOrgMemberRequest} (h : Keyed s)
    (hs : startMember s i orgId input = some s') : Keyed s' := by
  rw [startMember.eq_def] at hs
  split at hs
  · simp at hs
  · split at hs
    · rw [← Option.some.inj hs]
      exact h.setCall trivial
    · rw [← Option.some.inj hs]
      exact h.endCall _

lemma findOrganization_keyed (h : Keyed s) (hs : findOrganization s i = some s') : Keyed s' := by
  rw [findOrganization.eq_def] at hs
  split at hs
  · split at hs
    · next input _ _ _ org hfind =>
      rw [← Option.some.inj hs]
      exact h.setCall (h.exists_provisioned (List.mem_of_find?_eq_some hfind)
        (by simpa using List.find?_some hfind))
    · split_ifs at hs
      · rw [← Option.some.inj hs]
        exact h.endCall _
      · rw [← Option.some.inj hs]
        exact h.setCall trivial
  · simp at hs

lemma findOwner_keyed {row : Option OrgMembership} (h : Keyed s)
    (hs : findOwner s i row = some s') : Keyed s' := by
  rw [findOwner.eq_def] at hs
  split at hs
  · next hcall =>
    have hkeyed := h.calls i _ hcall
    split at hs
    · split_ifs at hs
      rw [← Option.some.inj hs]
      exact h.setCall hkeyed
    · split_ifs at hs
      rw [← Option.some.inj hs]
      exact h.endCall _
  · simp at hs

lemma findIdentity_keyed {row : Option ExternalIdentity} (h : Keyed s)
    (hs : findIdentity s i row = some s') : Keyed s' := by
  rw [findIdentity.eq_def] at hs
  split at hs
  · split at hs
    · split_ifs at hs
      rw [← Option.some.inj hs]
      exact h.endCall _
    · split_ifs at hs
      rw [← Option.some.inj hs]
      exact h.endCall _
  · simp at hs

lemma insertOrganization_keyed (h : Keyed s) (hs : insertOrganization s i = some s') :
    Keyed s' := by
  rw [insertOrganization.eq_def] at hs
  split at hs
  · next input hcall =>
    split_ifs at hs with hcommitted hfree
    · rw [← Option.some.inj hs]
      exact h.setCall trivial
    · rw [← Option.some.inj hs]
      have hnone : RequestFree s input.requestId := by
        intro j input' hj hsame
        have hkey := (h.calls j _ hj).1
        rw [hsame, hfree] at hkey
        simp at hkey
      refine (h.setRequestKey hnone (some i)).setCall ⟨Function.update_self .., fun hmem => ?_⟩
      obtain ⟨p, hp, hreq⟩ := List.mem_map.1 hmem
      obtain ⟨org, horg, -, hr⟩ := h.exists_organization hp
      exact hcommitted ⟨org, horg, hr.trans (congrArg some hreq)⟩
  · simp at hs

lemma commitOrganization_keyed (h : Keyed s) (hs : commitOrganization s i = some s') :
    Keyed s' := by
  rw [commitOrganization.eq_def] at hs
  split at hs
  · next input hcall =>
    rw [← Option.some.inj hs]
    have hfree := h.requestFree_endCall hcall
      (.organization input.requestId ⟨s.nextId, s.nextId + 1, s.nextId + 2⟩)
    exact ((h.endCall _).setRequestKey hfree none).addOrganization (h.calls i _ hcall).2 hfree
  · simp at hs

lemma findOrgLink_keyed (h : Keyed s) (hs : findOrgLink s i = some s') : Keyed s' := by
  rw [findOrgLink.eq_def] at hs
  split at hs
  · split at hs
    · rw [← Option.some.inj hs]
      exact h.endCall _
    · next hfind =>
      split_ifs at hs
      · rw [← Option.some.inj hs]
        exact h.endCall _
      · rw [← Option.some.inj hs]
        have hlt := h.id_lt _ (List.mem_of_find?_eq_some hfind)
        have hid := List.find?_some hfind
        rw [decide_eq_true_iff] at hid
        exact h.setCall (show _ < s.nextId from hid ▸ hlt)
  · simp at hs

lemma insertMember_keyed (h : Keyed s) (hs : insertMember s i = some s') : Keyed s' := by
  rw [insertMember.eq_def] at hs
  split at hs
  · next orgId input role hcall =>
    split_ifs at hs with hcommitted hfree
    · rw [← Option.some.inj hs]
      exact h.setCall hcommitted
    · rw [← Option.some.inj hs]
      have hnone : SubjectFree s (orgId, input.workosUserId) := by
        intro j orgId' input' role' hj hsame
        have hkey := (h.calls j _ hj).2.1
        rw [hsame, hfree] at hkey
        simp at hkey
      refine (h.setIdentityKey hnone (some i)).setCall
        ⟨h.calls i _ hcall, Function.update_self .., fun hmem => ?_⟩
      exact hcommitted (by simpa using hmem)
  · simp at hs

lemma commitMember_keyed (h : Keyed s) (hs : commitMember s i = some s') : Keyed s' := by
  rw [commitMember.eq_def] at hs
  split at hs
  · next orgId input role hcall =>
    rw [← Option.some.inj hs]
    have hfree := h.subjectFree_endCall hcall (.member ⟨s.nextId, s.nextId + 1, true⟩)
    obtain ⟨hlt, -, hnew⟩ := h.calls i _ hcall
    exact ((h.endCall _).setIdentityKey hfree none).addMember hlt hnew hfree
  · simp at hs

lemma findMemberIdentity_keyed (h : Keyed s) (hs : findMemberIdentity s i = some s') :
    Keyed s' := by
  rw [findMemberIdentity.eq_def] at hs
  split at hs
  · split at hs
    · next hfind =>
      rw [← Option.some.inj hs]
      exact h.setCall ⟨List.mem_of_find?_eq_some hfind, by simpa using List.find?_some hfind⟩
    · rw [← Option.some.inj hs]
      exact h.endCall _
  · simp at hs

lemma findMembership_keyed (h : Keyed s) (hs : findMembership s i = some s') : Keyed s' := by
  rw [findMembership.eq_def] at hs
  split at hs
  · next hcall =>
    have hkeyed := h.calls i _ hcall
    split at hs
    · rw [← Option.some.inj hs]
      exact h.setCall hkeyed
    · rw [← Option.some.inj hs]
      exact h.endCall _
  · simp at hs

lemma commitReplay_keyed (h : Keyed s) (hs : commitReplay s i = some s') : Keyed s' := by
  rw [commitReplay.eq_def] at hs
  split at hs
  · rw [← Option.some.inj hs]
    split_ifs
    · exact (h.setMemberships _).endCall _
    · exact h.endCall _
  · simp at hs

lemma fail_keyed (h : Keyed s) (hs : fail s i = some s') : Keyed s' := by
  rw [fail.eq_def] at hs
  split at hs
  · simp at hs
  · next hcall =>
    rw [← Option.some.inj hs]
    exact (h.endCall _).setRequestKey (h.requestFree_endCall hcall _) none
  · next hcall =>
    rw [← Option.some.inj hs]
    exact (h.endCall _).setIdentityKey (h.subjectFree_endCall hcall _) none
  · rw [← Option.some.inj hs]
    exact h.endCall _

end Moves

/-- Every step keeps the indexes and what the calls rely on. -/
lemma keyed_step {s s' : State} {a : Label} (h : Keyed s)
    (hs : provisioningSystem.step s a = some s') : Keyed s' := by
  cases a with
  | provisionServiceOrganization i input => exact startOrganization_keyed h hs
  | provisionServiceOrgMember i orgId input => exact startMember_keyed h hs
  | findOrganization i => exact findOrganization_keyed h hs
  | findOwner i row => exact findOwner_keyed h hs
  | findIdentity i row => exact findIdentity_keyed h hs
  | insertOrganization i => exact insertOrganization_keyed h hs
  | commitOrganization i => exact commitOrganization_keyed h hs
  | findOrgLink i => exact findOrgLink_keyed h hs
  | insertMember i => exact insertMember_keyed h hs
  | commitMember i => exact commitMember_keyed h hs
  | findMemberIdentity i => exact findMemberIdentity_keyed h hs
  | findMembership i => exact findMembership_keyed h hs
  | commitReplay i => exact commitReplay_keyed h hs
  | fail i => exact fail_keyed h hs
  | register centralizemeOrganizationId =>
    rw [← Option.some.inj hs]
    exact h.register centralizemeOrganizationId
  | deactivate orgId userId =>
    rw [← Option.some.inj hs]
    exact h.setMemberships _
  | removeUserFromOrgMemberships orgId userId =>
    rw [← Option.some.inj hs]
    exact h.setMemberships _

lemma keyed_init : Keyed provisioningSystem.init where
  toTables := by constructor <;> simp [provisioningSystem]
  calls := by simp [provisioningSystem]

lemma keyed_of_reaches {ok : State → Label → Prop} {s : State}
    (h : provisioningSystem.Reaches ok s) : Keyed s :=
  h.invariant keyed_init fun _ _ _ hinv _ hs => keyed_step hinv hs

end ProjectVault.ServiceProvisioning
