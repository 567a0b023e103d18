import ProjectVault.Js.Parse
import ProjectVault.Audit.Entry

/-!
What a writer hashes and what the verifier hashes again.
-/

namespace ProjectVault.Audit

open Js Db

/-- The digest of `evaluateAuditRow`. -/
def AuditLogEntry.rebuilt (row : AuditLogEntry) : HmacFields where
  orgId := row.orgId
  actorTokenId := row.actorTokenId
  actorType := row.actorType
  eventType := row.eventType
  resourceId := row.resourceId
  resourceType := row.resourceType
  payload := row.payload
  keyVersion := row.keyVersion
  previousEntryHmac := row.previousEntryHmac.getD genesisSentinel

/-! ### Sorted members -/

section Orders

variable (env : AuditEnv)

instance : Std.Total env.keyLe :=
  ⟨fun a b => by
    have := env.collation
    have hswap : env.localeCompare b.1 a.1 = (env.localeCompare a.1 b.1).swap :=
      Std.OrientedCmp.eq_swap
    unfold AuditEnv.keyLe
    rw [hswap]
    cases env.localeCompare a.1 b.1 <;> simp⟩

instance : IsTrans (String × Json) env.keyLe :=
  ⟨fun a b c hab hbc => by
    have := env.collation
    unfold AuditEnv.keyLe at hab hbc ⊢
    exact Ordering.isLE_iff_ne_gt.1 (Std.TransCmp.isLE_trans (Ordering.isLE_iff_ne_gt.2 hab)
      (Ordering.isLE_iff_ne_gt.2 hbc))⟩

instance : Std.Total jsonbLe := ⟨fun _ _ => le_total _ _⟩

instance : IsTrans (String × Json) jsonbLe := ⟨fun _ _ _ h h' => le_trans h h'⟩

lemma key_eq_of_jsonbLe {a b : String × Json} (hab : jsonbLe a b) (hba : jsonbLe b a) :
    a.1 = b.1 := by
  have h := le_antisymm hab hba
  have hchars : a.1.toList.map Char.toNat = b.1.toList.map Char.toNat :=
    congrArg Prod.snd (toLex.injective h)
  have hinj : Function.Injective Char.toNat := fun c d hcd => Char.toNat_inj.1 hcd
  exact String.toList_inj.1 (List.map_injective_iff.2 hinj hchars)

lemma sortMembers_eq_map (ms : List (String × Json)) :
    sortMembers env ms = ms.map fun m => (m.1, sortKeys env m.2) := by
  induction ms with
  | nil => rfl
  | cons m ms ih =>
    obtain ⟨k, v⟩ := m
    simp [sortMembers, ih]

lemma storedMembers_eq_map (ms : List (String × Json)) :
    storedMembers ms = ms.map fun m => (m.1, storedJson m.2) := by
  induction ms with
  | nil => rfl
  | cons m ms ih =>
    obtain ⟨k, v⟩ := m
    simp [storedMembers, ih]

/-- Sorting by keys does not look at the values. -/
lemma map_insertionSort_of_key {r : String × Json → String × Json → Prop} [DecidableRel r]
    (hr : ∀ a b a' b' : String × Json, a.1 = a'.1 → b.1 = b'.1 → (r a b ↔ r a' b'))
    (f : Json → Json) (ms : List (String × Json)) :
    (ms.insertionSort r).map (fun m => (m.1, f m.2)) =
      (ms.map fun m => (m.1, f m.2)).insertionSort r :=
  List.map_insertionSort r r _ _ fun _ _ _ _ => hr _ _ _ _ rfl rfl

lemma map_ownPropertyOrder (f : Json → Json) (ms : List (String × Json)) :
    (ownPropertyOrder ms).map (fun m => (m.1, f m.2)) =
      ownPropertyOrder (ms.map fun m => (m.1, f m.2)) := by
  have hsort := List.map_insertionSort indexLe indexLe (fun m : String × Json => (m.1, f m.2))
    (ms.filter fun m => !named m) fun _ _ _ _ => Iff.rfl
  rw [ownPropertyOrder_eq, ownPropertyOrder_eq, List.map_append, List.filter_map, List.filter_map,
    hsort]
  rfl

/-! ### Settled payloads -/

mutual

/-- In every object of the value, the keys that `localeCompare` cannot tell apart
already stand in the order of the `jsonb` column; array indices are enumerated in
their own order whatever the sort. -/
def Settled : Json → Prop
  | .arr xs => SettledElems xs
  | .obj ms =>
    (ms.Pairwise fun a b => named a = true → named b = true →
      env.localeCompare a.1 b.1 = .eq → jsonbLe a b) ∧ SettledMembers ms
  | _ => True

/-- The elements of an array. -/
def SettledElems : List Json → Prop
  | [] => True
  | x :: xs => Settled x ∧ SettledElems xs

/-- The members of an object. -/
def SettledMembers : List (String × Json) → Prop
  | [] => True
  | (_, v) :: ms => Settled v ∧ SettledMembers ms

end

lemma tie_iff (a b : String × Json) :
    env.keyLe a b ∧ env.keyLe b a ↔ env.localeCompare a.1 b.1 = .eq := by
  have := env.collation
  have hswap : env.localeCompare b.1 a.1 = (env.localeCompare a.1 b.1).swap :=
    Std.OrientedCmp.eq_swap
  unfold AuditEnv.keyLe
  rw [hswap]
  cases env.localeCompare a.1 b.1 <;> simp

/-- What the members of an object sort to after the column has rearranged them. -/
lemma ownPropertyOrder_stored_eq_iff {ms : List (String × Json)}
    (hnodup : (ms.map Prod.fst).Nodup) :
    ownPropertyOrder ((ownPropertyOrder (ms.insertionSort jsonbLe)).insertionSort env.keyLe) =
        ownPropertyOrder (ms.insertionSort env.keyLe) ↔
      ms.Pairwise fun a b => named a = true → named b = true →
        env.localeCompare a.1 b.1 = .eq → jsonbLe a b := by
  have hperm : ms.Perm (ownPropertyOrder (ms.insertionSort jsonbLe)) :=
    ((perm_ownPropertyOrder _).trans (List.perm_insertionSort _ _)).symm
  have hmem : ∀ {a}, a ∈ ms ↔ a ∈ ownPropertyOrder (ms.insertionSort jsonbLe) :=
    hperm.mem_iff
  -- the named members stand in the order of the column
  have hcolumn : ∀ a b, named a = true → named b = true → a ∈ ms → b ∈ ms → a ≠ b →
      (List.Sublist [a, b] (ownPropertyOrder (ms.insertionSort jsonbLe)) ↔ jsonbLe a b) := by
    intro a b ha hb hma hmb hne
    have hle : ∀ x y, named x = true → named y = true →
        List.Sublist [x, y] (ownPropertyOrder (ms.insertionSort jsonbLe)) → jsonbLe x y := by
      intro x y hx hy hsub
      have hfilter := pair_sublist_filter hx hy hsub
      rw [filter_named_ownPropertyOrder] at hfilter
      exact List.pairwise_iff_forall_sublist.1 (List.pairwise_insertionSort jsonbLe ms)
        (hfilter.trans List.filter_sublist)
    refine ⟨hle a b ha hb, fun hab => ?_⟩
    cases pair_sublist_or (hmem.1 hma) (hmem.1 hmb) hne with
    | inl h => exact h
    | inr h =>
      have hkey := key_eq_of_jsonbLe hab (hle b a hb ha h)
      exact absurd (List.inj_on_of_nodup_map hnodup hma hmb hkey) hne
  rw [eq_comm, ownPropertyOrder_insertionSort_eq_iff env.keyLe hperm hnodup,
    List.pairwise_iff_forall_sublist]
  have hne : ∀ {a b}, List.Sublist [a, b] ms → a ≠ b := by
    rintro a b hsub rfl
    exact not_pair_sublist_swap hnodup.of_map hsub hsub
  constructor
  · intro h a b hsub ha hb htie
    obtain ⟨hab, hba⟩ := (tie_iff env a b).2 htie
    exact (hcolumn a b ha hb (hsub.subset (by simp)) (hsub.subset (by simp)) (hne hsub)).1
      (h a b ha hb hab hba hsub)
  · intro h a b ha hb hab hba hsub
    exact (hcolumn a b ha hb (hsub.subset (by simp)) (hsub.subset (by simp)) (hne hsub)).2
      (h hsub ha hb ((tie_iff env a b).1 ⟨hab, hba⟩))

/-- Both sides of the sort of an object's members. -/
lemma sortKeys_storedJson_obj (ms : List (String × Json)) :
    sortKeys env (storedJson (.obj ms)) =
      .obj (ownPropertyOrder ((ownPropertyOrder
        ((ms.map fun m => (m.1, sortKeys env (storedJson m.2))).insertionSort jsonbLe)).insertionSort
          env.keyLe)) := by
  have hjsonb : ∀ a b a' b' : String × Json, a.1 = a'.1 → b.1 = b'.1 →
      (jsonbLe a b ↔ jsonbLe a' b') := by
    intro a b a' b' ha hb
    simp only [jsonbLe, ha, hb]
  rw [storedJson, sortKeys, sortMembers_eq_map, storedMembers_eq_map, map_ownPropertyOrder,
    map_insertionSort_of_key hjsonb, List.map_map]
  rfl

lemma perm_sorted (r : String × Json → String × Json → Prop) [DecidableRel r]
    (ms : List (String × Json)) : (ownPropertyOrder (ms.insertionSort r)).Perm ms :=
  (perm_ownPropertyOrder _).trans (List.perm_insertionSort r ms)

/-- Members with distinct keys are determined by the set of them. -/
lemma map_eq_map_of_perm {f g : Json → Json} {ms : List (String × Json)}
    (hnodup : (ms.map Prod.fst).Nodup)
    (hperm : (ms.map fun m => (m.1, f m.2)).Perm (ms.map fun m => (m.1, g m.2))) :
    (ms.map fun m => (m.1, f m.2)) = ms.map fun m => (m.1, g m.2) := by
  rw [List.map_inj_left]
  intro m hm
  obtain ⟨m', hm', heq⟩ := List.mem_map.1 (hperm.subset (List.mem_map_of_mem hm))
  obtain ⟨hkey, hval⟩ := Prod.mk.inj heq
  have hsame : m' = m := List.inj_on_of_nodup_map hnodup hm' hm hkey
  rw [← hval, hsame]

/-- The sort of an object's members, given that of their values. -/
lemma sortKeys_storedJson_obj_iff {ms : List (String × Json)} (hnodup : (ms.map Prod.fst).Nodup)
    (hmembers : ((ms.map fun m => (m.1, sortKeys env (storedJson m.2))) =
      (ms.map fun m => (m.1, sortKeys env m.2)) ↔ SettledMembers env ms)) :
    sortKeys env (storedJson (.obj ms)) = sortKeys env (.obj ms) ↔ Settled env (.obj ms) := by
  have hnodup' : ((ms.map fun m => (m.1, sortKeys env m.2)).map Prod.fst).Nodup := by
    simpa [Function.comp_def] using hnodup
  have hties := ownPropertyOrder_stored_eq_iff env hnodup'
  rw [List.pairwise_map] at hties
  rw [sortKeys_storedJson_obj, sortKeys, sortMembers_eq_map, Settled, Json.obj.injEq, ← hmembers]
  constructor
  · intro heq
    have hstored := (perm_sorted env.keyLe _).trans
      (perm_sorted jsonbLe (ms.map fun m => (m.1, sortKeys env (storedJson m.2))))
    have hsame := map_eq_map_of_perm (f := fun j => sortKeys env (storedJson j))
      (g := sortKeys env) hnodup
      (hstored.symm.trans ((List.Perm.of_eq heq).trans (perm_sorted env.keyLe _)))
    rw [hsame] at heq
    exact ⟨hties.1 heq, hsame⟩
  · rintro ⟨hpair, hsame⟩
    rw [hsame]
    exact hties.2 hpair

mutual

/-- A value sorts to the same text before and after the column if and only if it is
settled. -/
lemma sortKeys_storedJson_iff : ∀ j : Json, j.Distinct →
    (sortKeys env (storedJson j) = sortKeys env j ↔ Settled env j)
  | .null, _ => by simp [storedJson, sortKeys, Settled]
  | .bool _, _ => by simp [storedJson, sortKeys, Settled]
  | .num _, _ => by simp [storedJson, sortKeys, Settled]
  | .str _, _ => by simp [storedJson, sortKeys, Settled]
  | .arr xs, h => by
    have := sortElems_storedElems_iff xs h
    simpa [storedJson, sortKeys, Settled] using this
  | .obj ms, h => by
    exact sortKeys_storedJson_obj_iff env h.1 (sortMembers_storedMembers_iff ms h.2)

lemma sortElems_storedElems_iff : ∀ xs : List Json, Json.DistinctElems xs →
    (sortElems env (storedElems xs) = sortElems env xs ↔ SettledElems env xs)
  | [], _ => by simp [storedElems, sortElems, SettledElems]
  | x :: xs, h => by
    have hx := sortKeys_storedJson_iff x h.1
    have hxs := sortElems_storedElems_iff xs h.2
    simp [storedElems, sortElems, SettledElems, hx, hxs]

lemma sortMembers_storedMembers_iff : ∀ ms : List (String × Json), Json.DistinctMembers ms →
    ((ms.map fun m => (m.1, sortKeys env (storedJson m.2))) =
      (ms.map fun m => (m.1, sortKeys env m.2)) ↔ SettledMembers env ms)
  | [], _ => by simp [SettledMembers]
  | (k, v) :: ms, h => by
    have hv := sortKeys_storedJson_iff v h.1
    have hms := sortMembers_storedMembers_iff ms h.2
    rw [List.map_cons, List.map_cons, List.cons.injEq, hms, SettledMembers]
    simp [hv]

end

end Orders

/-! ### Digests -/

section Digests

variable {env : AuditEnv} {f f' : HmacFields}

/-- Objects whose sorted texts agree have the same members under every key. -/
lemma perm_filter_of_stringify_eq {ms ms' : List (String × Json)}
    (h : stringify (sortKeys env (.obj ms)) = stringify (sortKeys env (.obj ms')))
    (key : String) :
    ((sortMembers env ms).filter fun m => m.1 = key).Perm
      ((sortMembers env ms').filter fun m => m.1 = key) := by
  have hsorted := stringify_injective h
  rw [sortKeys, sortKeys, Json.obj.injEq] at hsorted
  have hperm := (perm_sorted env.keyLe (sortMembers env ms)).symm.trans
    ((List.Perm.of_eq hsorted).trans (perm_sorted env.keyLe (sortMembers env ms')))
  exact hperm.filter _

lemma filter_payload (env : AuditEnv) (f : HmacFields) :
    ((sortMembers env f.members).filter fun m => m.1 = "payload") =
      [("payload", sortKeys env (.obj f.payload))] := by
  rw [sortMembers_eq_map]
  cases hid : f.resourceId <;> cases htype : f.resourceType <;>
    simp [HmacFields.members, optionalMember, hid, htype]

lemma filter_resourceId (env : AuditEnv) (f : HmacFields) :
    ((sortMembers env f.members).filter fun m => m.1 = "resourceId") =
      optionalMember "resourceId" f.resourceId := by
  rw [sortMembers_eq_map]
  cases hid : f.resourceId <;> cases htype : f.resourceType <;>
    simp [HmacFields.members, optionalMember, hid, htype, sortKeys]

/-- Digests with one canonical text name the same resource. -/
lemma resourceId_eq_of_canonical_eq (h : canonical env f = canonical env f') :
    f.resourceId = f'.resourceId := by
  have hperm := perm_filter_of_stringify_eq h "resourceId"
  rw [filter_resourceId, filter_resourceId] at hperm
  cases hf : f.resourceId <;> cases hf' : f'.resourceId <;>
    simp [optionalMember, hf, hf'] at hperm ⊢
  exact hperm

/-- Digests with one canonical text continue the same entry. -/
lemma previousEntryHmac_eq_of_canonical_eq (h : canonical env f = canonical env f') :
    f.previousEntryHmac = f'.previousEntryHmac := by
  have hfilter : ∀ g : HmacFields,
      ((sortMembers env g.members).filter fun m => m.1 = "previousEntryHmac") =
        [("previousEntryHmac", .str g.previousEntryHmac)] := by
    intro g
    rw [sortMembers_eq_map]
    cases hid : g.resourceId <;> cases htype : g.resourceType <;>
      simp [HmacFields.members, optionalMember, hid, htype, sortKeys]
  have hperm := perm_filter_of_stringify_eq h "previousEntryHmac"
  rw [hfilter, hfilter] at hperm
  simpa using hperm

/-- Digests that agree in everything but the payload have one canonical text if and
only if their payloads sort alike and they name the same resource. -/
lemma canonical_eq_iff (horg : f.orgId = f'.orgId) (hactor : f.actorTokenId = f'.actorTokenId)
    (hatype : f.actorType = f'.actorType) (hevent : f.eventType = f'.eventType)
    (hrtype : f.resourceType = f'.resourceType) (hversion : f.keyVersion = f'.keyVersion)
    (hprev : f.previousEntryHmac = f'.previousEntryHmac) :
    canonical env f = canonical env f' ↔
      f.resourceId = f'.resourceId ∧
        sortKeys env (.obj f.payload) = sortKeys env (.obj f'.payload) := by
  constructor
  · intro h
    refine ⟨resourceId_eq_of_canonical_eq h, ?_⟩
    have hperm := perm_filter_of_stringify_eq h "payload"
    rw [filter_payload, filter_payload] at hperm
    simpa using hperm
  · rintro ⟨hres, hpayload⟩
    have hmembers : sortMembers env f.members = sortMembers env f'.members := by
      simp only [sortMembers_eq_map, HmacFields.members, horg, hactor, hatype, hevent, hres, hrtype,
        hversion, hprev, List.map_append, List.map_cons, List.map_nil, hpayload]
    rw [canonical, canonical, sortKeys, sortKeys, hmembers]

end Digests

/-! ### Writers -/

/-- The payload a call stores. -/
def AuditCall.payload : AuditCall → List (String × Json)
  | .human fields => fields.payload.members
  | .machine fields => fields.fullPayload
  | .system fields => fields.payload.members
  | .systemRow input => input.payload.members
  | .versionPurged candidate => candidate.payload

/-- The resource a call stores. -/
def AuditCall.resourceId : AuditCall → Option UuidText
  | .human fields => fields.resourceId
  | .machine fields => fields.resourceId
  | .system fields => fields.resourceId
  | .systemRow input => input.resourceId
  | .versionPurged candidate => some candidate.credentialId

/-- The calls whose digest is that of the row they store: `writeSystemAuditRow` names no
resource, a resource is given in the form its column gives back, and the payload is
settled. -/
structure AuditCall.Covered (env : AuditEnv) (call : AuditCall) : Prop where
  systemRow : ∀ input, call = .systemRow input → input.resourceId = none
  resourceId : ∀ u, call.resourceId = some u → u.stored = u.text
  payload : Settled env (.obj call.payload)

lemma distinct_setMember {payload : List (String × Json)} {key : String} {value : Json}
    (h : (Json.obj payload).Distinct) (hvalue : value.Distinct) :
    (Json.obj (setMember payload key value)).Distinct := by
  obtain ⟨hnodup, hmembers⟩ := h
  rw [Json.distinctMembers_iff] at hmembers
  rw [Json.Distinct, Json.distinctMembers_iff]
  unfold setMember
  split_ifs with hany
  · have hkeys : (payload.map fun m => if m.1 = key then (key, value) else m).map Prod.fst =
        payload.map Prod.fst := by
      rw [List.map_map, List.map_inj_left]
      intro m _
      by_cases hm : m.1 = key <;> simp [hm]
    refine ⟨by rwa [hkeys], ?_⟩
    intro m hm
    obtain ⟨m', hm', rfl⟩ := List.mem_map.1 hm
    by_cases hkey : m'.1 = key
    · simpa [hkey] using hvalue
    · simpa [hkey] using hmembers m' hm'
  · have hfresh : key ∉ payload.map Prod.fst := by simpa using hany
    have hperm := perm_ownPropertyOrder (payload ++ [(key, value)])
    constructor
    · rw [(hperm.map Prod.fst).nodup_iff, List.map_append, List.nodup_append]
      refine ⟨hnodup, by simp, ?_⟩
      intro a ha b hb heq
      rw [heq, show b = key by simpa using hb] at ha
      exact hfresh ha
    · intro m hm
      have hm' := hperm.mem_iff.1 hm
      cases List.mem_append.1 hm' with
      | inl hold => exact hmembers m hold
      | inr hnew =>
        rw [List.mem_singleton.1 hnew]
        exact hvalue

lemma AuditCall.payload_distinct (call : AuditCall) : (Json.obj call.payload).Distinct := by
  cases call with
  | human fields => exact fields.payload.distinct
  | machine fields =>
    refine distinct_setMember (distinct_setMember fields.payload.distinct ?_) ?_
    · simp [Json.Distinct]
    · cases fields.keyId <;> simp [Json.Distinct]
  | system fields => exact fields.payload.distinct
  | systemRow input => exact input.payload.distinct
  | versionPurged candidate =>
    simp [AuditCall.payload, VersionPurgedFields.payload, Json.Distinct, Json.DistinctMembers]

lemma AuditCall.resourceId_rebuilt_iff (env : AuditEnv) (call : AuditCall)
    (prev : Option String) (c : Ctx AuditDb) :
    (call.storedRow env prev c).rebuilt.resourceId =
        (call.toWrite.digest env.keyVersion prev).resourceId ↔
      (∀ input, call = .systemRow input → input.resourceId = none) ∧
        ∀ u, call.resourceId = some u → u.stored = u.text := by
  have hstored : (call.storedRow env prev c).rebuilt.resourceId =
      call.resourceId.map UuidText.stored := by
    cases call <;> rfl
  rw [hstored]
  cases call with
  | systemRow input =>
    have hdigest : ((AuditCall.systemRow input).toWrite.digest env.keyVersion prev).resourceId =
      none := rfl
    rw [hdigest]
    cases hid : input.resourceId <;> simp [AuditCall.resourceId, hid]
  | human fields =>
    have hdigest : ((AuditCall.human fields).toWrite.digest env.keyVersion prev).resourceId =
      fields.resourceId.map UuidText.text := rfl
    rw [hdigest]
    cases hid : fields.resourceId <;> simp [AuditCall.resourceId, hid]
  | machine fields =>
    have hdigest : ((AuditCall.machine fields).toWrite.digest env.keyVersion prev).resourceId =
      fields.resourceId.map UuidText.text := rfl
    rw [hdigest]
    cases hid : fields.resourceId <;> simp [AuditCall.resourceId, hid]
  | system fields =>
    have hdigest : ((AuditCall.system fields).toWrite.digest env.keyVersion prev).resourceId =
      fields.resourceId.map UuidText.text := rfl
    rw [hdigest]
    cases hid : fields.resourceId <;> simp [AuditCall.resourceId, hid]
  | versionPurged candidate =>
    have hdigest : ((AuditCall.versionPurged candidate).toWrite.digest env.keyVersion
      prev).resourceId = some candidate.credentialId.text := rfl
    rw [hdigest]
    simp [AuditCall.resourceId]

/-- The canonical texts agree if and only if the resource and the sorted payload do. -/
lemma AuditCall.canonical_rebuilt_eq_iff (env : AuditEnv) (call : AuditCall)
    (prev : Option String) (c : Ctx AuditDb) :
    canonical env (call.storedRow env prev c).rebuilt =
        canonical env (call.toWrite.digest env.keyVersion prev) ↔
      (call.storedRow env prev c).rebuilt.resourceId =
          (call.toWrite.digest env.keyVersion prev).resourceId ∧
        sortKeys env (storedJson (.obj call.payload)) = sortKeys env (.obj call.payload) := by
  have hpay : (call.storedRow env prev c).rebuilt.payload = storedPayload call.payload ∧
      (call.toWrite.digest env.keyVersion prev).payload = call.payload := by
    cases call <;> exact ⟨rfl, rfl⟩
  rw [canonical_eq_iff (by cases call <;> rfl) (by cases call <;> rfl) (by cases call <;> rfl)
    (by cases call <;> rfl) (by cases call <;> rfl) (by cases call <;> rfl)
    (by cases call <;> rfl), hpay.1, hpay.2]
  rfl

lemma AuditCall.Covered.canonical_rebuilt {env : AuditEnv} {call : AuditCall}
    (h : call.Covered env) (prev : Option String) (c : Ctx AuditDb) :
    canonical env (call.storedRow env prev c).rebuilt =
      canonical env (call.toWrite.digest env.keyVersion prev) := by
  refine (call.canonical_rebuilt_eq_iff env prev c).2 ⟨?_, ?_⟩
  · exact (call.resourceId_rebuilt_iff env prev c).2 ⟨h.systemRow, h.resourceId⟩
  · exact (sortKeys_storedJson_iff env _ call.payload_distinct).2 h.payload

/-- The identifier of an alert. -/
def alertUuid : UuidText := ⟨"6f1c2d34-0a1b-4c5d-8e9f-001122334455", by decide +kernel⟩

/-- The audit row of a monitoring alert (`processDueEndpoint`). -/
def alertCall : AuditCall :=
  .systemRow
    { orgId := "o", eventType := "service.down", resourceId := some alertUuid,
      payload := ⟨[("serviceEndpointId", .str "e"), ("alertId", .str alertUuid.text)],
        by simp [Json.Distinct, Json.DistinctMembers]⟩ }

end ProjectVault.Audit
