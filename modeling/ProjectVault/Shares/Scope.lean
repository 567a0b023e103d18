import ProjectVault.Credentials.BoundedShare
import ProjectVault.Js.Order
import ProjectVault.Shares.Schema

/-!
Which fields a share may be bounded by, at its creation and at its reveal
(`credential-shares/service.ts`).
-/

namespace ProjectVault.Shares

open Js

/-! ### Validation -/

/-- `MAX_ATTRIBUTE_KEYS`. -/
def maxAttributeKeys : ℕ := 50

/-- `declaredFieldKeys`. -/
def declaredFieldKeys (rt : Runtime) (s : Store) (credentialId : ℕ) : List String :=
  (attributeKeys s credentialId).map (normalizeFieldKey rt)

/-- The refusals of `validateFieldKey` and `validateAttributeKeys`. -/
inductive ScopeError where
  | unknownFieldKey (field : String)
  | tooManyAttributeKeys
  deriving DecidableEq

/-- `validateFieldKey`; an empty key is no key. -/
def validateFieldKey (rt : Runtime) (s : Store) (credentialId : ℕ) (fieldKey : Option String) :
    Except ScopeError (Option String) :=
  match fieldKey with
  | none => .ok none
  | some key =>
    if key = "" then .ok none
    else if normalizeFieldKey rt key ∉ declaredFieldKeys rt s credentialId then
      .error (.unknownFieldKey key)
    else .ok (some (normalizeFieldKey rt key))

/-- The loop of `validateAttributeKeys`, with the keys collected so far. -/
def collectAttributeKeys (rt : Runtime) (declared : List String) :
    List String → List String → Except ScopeError (List String)
  | normalized, [] => .ok normalized
  | normalized, key :: keys =>
    if normalizeFieldKey rt key ∉ declared then .error (.unknownFieldKey key)
    else if normalizeFieldKey rt key ∈ normalized then
      collectAttributeKeys rt declared normalized keys
    else collectAttributeKeys rt declared (normalized ++ [normalizeFieldKey rt key]) keys

/-- `validateAttributeKeys`. -/
def validateAttributeKeys (rt : Runtime) (collation : Collation) (s : Store) (credentialId : ℕ)
    (keys : Option (List String)) : Except ScopeError (Option (List String)) :=
  match keys with
  | none => .ok none
  | some [] => .ok none
  | some (key :: keys) => do
      let normalized ← collectAttributeKeys rt (declaredFieldKeys rt s credentialId) [] (key :: keys)
      if normalized.length > maxAttributeKeys then throw .tooManyAttributeKeys
      return some (collation.sort normalized)

/-- The scope a request asks for: a field key, or a list of keys. -/
inductive ScopeRequest where
  | fieldKey (key : Option String)
  | attributeKeys (keys : Option (List String))

/-- The request is accepted, and the share gets the scope. -/
def Accepts (rt : Runtime) (collation : Collation) (s : Store) (credentialId : ℕ)
    (request : ScopeRequest) (scope : ShareScope) : Prop :=
  match request with
  | .fieldKey key => validateFieldKey rt s credentialId key = .ok scope.fieldKey ∧
      scope.attributeKeys = none
  | .attributeKeys keys => validateAttributeKeys rt collation s credentialId keys =
      .ok scope.attributeKeys ∧ scope.fieldKey = none

/-! ### What a request names -/

lemma collectAttributeKeys_ok {rt : Runtime} {declared : List String} {keys : List String} :
    ∀ {normalized res : List String}, collectAttributeKeys rt declared normalized keys = .ok res →
      normalized.Nodup → (∀ k ∈ normalized, k ∈ declared) →
      res.Nodup ∧ (∀ k ∈ res, k ∈ declared) ∧
        ∀ k, k ∈ res ↔ k ∈ normalized ∨ k ∈ keys.map (normalizeFieldKey rt) := by
  induction keys with
  | nil =>
    intro normalized res h hnodup hdecl
    cases h
    exact ⟨hnodup, hdecl, by simp⟩
  | cons key keys ih =>
    intro normalized res h hnodup hdecl
    rw [collectAttributeKeys] at h
    split_ifs at h with hmem hseen
    · obtain ⟨hres, hres', hiff⟩ := ih h hnodup hdecl
      refine ⟨hres, hres', fun k => ?_⟩
      rw [hiff, List.map_cons, List.mem_cons]
      constructor
      · rintro (hk | hk)
        · exact .inl hk
        · exact .inr (.inr hk)
      · rintro (hk | rfl | hk)
        · exact .inl hk
        · exact .inl hseen
        · exact .inr hk
    · obtain ⟨hres, hres', hiff⟩ := ih h
        (List.nodup_append.2 ⟨hnodup, List.nodup_singleton _, by
          intro a ha b hb hab
          rw [List.mem_singleton] at hb
          exact hseen (hb ▸ hab ▸ ha)⟩)
        (by
          intro k hk
          rw [List.mem_append, List.mem_singleton] at hk
          rcases hk with hk | rfl
          · exact hdecl k hk
          · exact hmem)
      refine ⟨hres, hres', fun k => ?_⟩
      rw [hiff, List.mem_append, List.mem_singleton, List.map_cons, List.mem_cons, or_assoc]

/-- What `validateAttributeKeys` stores: the normalised keys of the request without
repetitions. -/
lemma validateAttributeKeys_ok {rt : Runtime} {collation : Collation} {s : Store}
    {credentialId : ℕ} {keys : Option (List String)} {stored : List String}
    (h : validateAttributeKeys rt collation s credentialId keys = .ok (some stored)) :
    stored.Nodup ∧ (∀ k ∈ stored, k ∈ declaredFieldKeys rt s credentialId) ∧
      ∀ k, k ∈ stored ↔ k ∈ (keys.getD []).map (normalizeFieldKey rt) := by
  unfold validateAttributeKeys at h
  split at h
  · simp at h
  · simp at h
  · rename_i key keys
    cases hcollect : collectAttributeKeys rt (declaredFieldKeys rt s credentialId) []
      (key :: keys) with
    | error e =>
      simp [hcollect, bind, Except.bind] at h
    | ok normalized =>
      obtain ⟨hnodup, hdecl, hiff⟩ := collectAttributeKeys_ok hcollect List.nodup_nil (by simp)
      simp only [hcollect, bind, Except.bind, pure, Except.pure] at h
      split_ifs at h
      simp only [Except.ok.injEq, Option.some.injEq] at h
      have hperm := collation.perm_sort normalized
      rw [← h]
      refine ⟨hperm.nodup_iff.2 hnodup, fun k hk => hdecl k (hperm.mem_iff.1 hk), fun k => ?_⟩
      rw [hperm.mem_iff, hiff]
      simp

lemma validateFieldKey_ok {rt : Runtime} {s : Store} {credentialId : ℕ} {key : Option String}
    {stored : String} (h : validateFieldKey rt s credentialId key = .ok (some stored)) :
    stored ∈ declaredFieldKeys rt s credentialId := by
  unfold validateFieldKey at h
  split at h
  · simp at h
  · split_ifs at h with hkey hmem
    · simp at h
    · cases h
      exact hmem

/-- The keys an accepted request bounds its share by: declared, without repetitions. -/
lemma Accepts.keys {rt : Runtime} {collation : Collation} {s : Store} {credentialId : ℕ}
    {request : ScopeRequest} {scope : ShareScope}
    (h : Accepts rt collation s credentialId request scope) {keys : List String}
    (hkeys : effectiveAttributeKeysForShare scope = some keys) :
    keys.Nodup ∧ keys ≠ [] ∧ ∀ k ∈ keys, k ∈ declaredFieldKeys rt s credentialId := by
  cases request with
  | fieldKey key =>
    obtain ⟨hkey, hattr⟩ := h
    cases hstored : scope.fieldKey with
    | none => simp [effectiveAttributeKeysForShare, hattr, hstored] at hkeys
    | some stored =>
      rw [hstored] at hkey
      simp only [effectiveAttributeKeysForShare, hattr, hstored] at hkeys
      split_ifs at hkeys
      cases hkeys
      refine ⟨List.nodup_singleton _, by simp, fun k hk => ?_⟩
      rw [List.mem_singleton] at hk
      exact hk ▸ validateFieldKey_ok hkey
  | attributeKeys ks =>
    obtain ⟨hks, hfield⟩ := h
    cases hstored : scope.attributeKeys with
    | none => simp [effectiveAttributeKeysForShare, hstored, hfield] at hkeys
    | some stored =>
      rw [hstored] at hks
      obtain ⟨hnodup, hdecl, -⟩ := validateAttributeKeys_ok hks
      cases stored with
      | nil => exact absurd hstored scope.not_empty
      | cons k ks =>
        simp only [effectiveAttributeKeysForShare, hstored] at hkeys
        cases hkeys
        exact ⟨hnodup, by simp, hdecl⟩

lemma declaredFieldKeys_eq {rt : Runtime} {s : Store} {credentialId : ℕ} {v : CredentialVersion}
    {fields : List Field} (h : v.Stores rt fields)
    (hv : selectCurrentVersionMeta s credentialId = some v) :
    declaredFieldKeys rt s credentialId = fields.map fun f => normalizeFieldKey rt f.key := by
  rw [declaredFieldKeys, attributeKeys, hv]
  dsimp only
  have hdesc := h.described
  generalize fieldMetaForResponse v.schemaVersion v.fieldMeta = ms at hdesc
  clear h
  induction hdesc with
  | nil => rfl
  | cons hmf _ ih => simp only [List.map_cons, hmf.1, ih]

/-! ### What a share discloses -/

/-- The fields a scope admits. -/
def sharedFields (rt : Runtime) (filter : Option (List String)) (fields : List Field) :
    List Field :=
  fields.filter fun f => isIncluded rt filter f.key f.sensitive

/-- An answer hands out exactly the given fields with their values; a single field may
come as its bare value. -/
def Discloses (result : SerializeBoundedResult) (shared : List Field) : Prop :=
  result = .fields (shared.map Field.bounded) ∨ ∃ f, shared = [f] ∧ result = .value f.value

/-- Every named field can be read, and a field named alone can be read by the key it
is named with. -/
def Revealable (rt : Runtime) (schemaVersion : ℕ) (fields : List Field)
    (filter : Option (List String)) : Prop :=
  ∀ keys, filter = some keys → ∀ f ∈ fields, normalizeFieldKey rt f.key ∈ keys →
    f.isTotp = false ∧ (keys.length = 1 → 2 ≤ schemaVersion ∧ normalizeFieldKey rt f.key = f.key)

section Discloses

variable {rt : Runtime} {v : CredentialVersion} {fields : List Field}

/-- A secret that is not a field set has at most one field. -/
lemma eq_nil_or_singleton (h : v.Stores rt fields)
    (hset : isFieldSet v.schemaVersion fields = false) : fields = [] ∨ ∃ f, fields = [f] := by
  by_cases hs : v.schemaVersion < 2
  · obtain ⟨e, -, hfields⟩ := h.legacy hs
    exact .inr ⟨_, hfields⟩
  · obtain ⟨hlen, -⟩ := length_le_one_of_not_isFieldSet (not_lt.1 hs) hset
    match fields, hlen with
    | [], _ => exact .inl rfl
    | [f], _ => exact .inr ⟨f, rfl⟩

lemma eq_of_normalize_eq (h : v.Stores rt fields) {f g : Field} (hf : f ∈ fields) (hg : g ∈ fields)
    (heq : normalizeFieldKey rt f.key = normalizeFieldKey rt g.key) : f = g :=
  List.inj_on_of_nodup_map h.distinct hf hg heq

/-- A share of the whole resource hands out the fields that are not sensitive. -/
lemma discloses_whole (h : v.Stores rt fields) :
    Discloses (boundedOf rt v.schemaVersion fields none) (sharedFields rt none fields) := by
  simp only [boundedOf, singleKey, boundedFiltered, filteredFieldsResult, namesSeveral, sharedFields,
    isIncluded]
  cases hset : isFieldSet v.schemaVersion fields with
  | true =>
    refine .inl ?_
    simp only [if_true]
    rw [withoutTotpFields, List.filter_filter]
    congr 2
    refine List.filter_congr fun f hf => ?_
    cases htotp : f.isTotp with
    | false => simp
    | true => simp [h.seeds_sensitive f hf htotp]
  | false =>
    rcases eq_nil_or_singleton h hset with rfl | ⟨f, rfl⟩
    · exact .inl rfl
    · cases hsens : f.sensitive with
      | true => exact .inl (by simp [hsens])
      | false => exact .inr ⟨f, by simp [hsens], by simp [hsens]⟩

lemma sharedFields_singleton (h : v.Stores rt fields) {f : Field} (hf : f ∈ fields) :
    sharedFields rt (some [normalizeFieldKey rt f.key]) fields = [f] := by
  have hperm : (sharedFields rt (some [normalizeFieldKey rt f.key]) fields).Perm [f] := by
    refine (List.perm_ext_iff_of_nodup ((h.distinct.of_map _).filter _)
      (List.nodup_singleton f)).2 fun g => ?_
    simp only [isIncluded, List.mem_filter, List.mem_singleton, decide_eq_true_eq]
    constructor
    · exact fun hg => eq_of_normalize_eq h hg.1 hf hg.2
    · rintro rfl
      exact ⟨hf, rfl⟩
  exact List.perm_singleton.1 hperm

/-- A share of one field is readable by its key when the key is declared as it is. -/
lemma discloses_singleKey_iff (h : v.Stores rt fields) {f : Field} (hf : f ∈ fields) :
    Discloses (boundedSingleKey v.schemaVersion fields (normalizeFieldKey rt f.key)) [f] ↔
      f.isTotp = false ∧ 2 ≤ v.schemaVersion ∧ normalizeFieldKey rt f.key = f.key := by
  rw [boundedSingleKey]
  by_cases hs : v.schemaVersion < 2
  · simp [hs, Discloses]
  · rw [if_neg hs]
    cases hfind : (withoutTotpFields fields).find? fun g => g.key = normalizeFieldKey rt f.key with
    | none =>
      simp only [Discloses, reduceCtorEq, and_false, exists_false, or_self, false_iff]
      rintro ⟨htotp, -, hkey⟩
      have hmem : f ∈ withoutTotpFields fields := List.mem_filter.2 ⟨hf, by simp [htotp]⟩
      simpa [hkey] using List.find?_eq_none.1 hfind f hmem
    | some g =>
      have hg := List.mem_of_find?_eq_some hfind
      have hgf : g ∈ fields := List.mem_of_mem_filter hg
      have hgtotp : g.isTotp = false := by simpa using (List.mem_filter.1 hg).2
      have hgkey : g.key = normalizeFieldKey rt f.key := by simpa using List.find?_some hfind
      have hself : g = f ↔ normalizeFieldKey rt f.key = f.key := by
        constructor
        · rintro rfl
          exact hgkey.symm
        · intro hkey
          refine eq_of_normalize_eq h hgf hf ?_
          rw [hgkey, hkey]
          exact hkey
      have hdis : Discloses (if isFieldSet v.schemaVersion fields = true then .fields [g.bounded]
          else .value g.value) [f] ↔ g = f := by
        constructor
        · intro hd
          cases hset : isFieldSet v.schemaVersion fields with
          | true =>
            simp only [hset, if_true, Discloses, List.map_cons, List.map_nil,
              SerializeBoundedResult.fields.injEq, List.cons.injEq, and_true, reduceCtorEq,
              and_false, exists_false, or_false] at hd
            have hkey : g.key = f.key := congrArg BoundedField.key hd
            exact eq_of_normalize_eq h hgf hf (by rw [hkey])
          | false =>
            rcases eq_nil_or_singleton h hset with rfl | ⟨x, rfl⟩
            · simp at hf
            · rw [List.mem_singleton] at hf hgf
              rw [hf, hgf]
        · rintro rfl
          cases hset : isFieldSet v.schemaVersion fields with
          | true => exact .inl rfl
          | false => exact .inr ⟨g, rfl, rfl⟩
      rw [hdis, hself]
      constructor
      · intro hkey
        exact ⟨hself.2 hkey ▸ hgtotp, not_lt.1 hs, hkey⟩
      · exact fun hall => hall.2.2

/-- As many fields are admitted as keys are named. -/
lemma length_sharedFields (h : v.Stores rt fields) {keys : List String} (hnodup : keys.Nodup)
    (hdecl : ∀ k ∈ keys, ∃ f ∈ fields, normalizeFieldKey rt f.key = k) :
    (sharedFields rt (some keys) fields).length = keys.length := by
  have hperm : ((sharedFields rt (some keys) fields).map
      fun f => normalizeFieldKey rt f.key).Perm keys := by
    refine (List.perm_ext_iff_of_nodup (h.distinct.sublist
      (List.filter_sublist.map _)) hnodup).2 fun k => ?_
    simp only [isIncluded, List.mem_map, List.mem_filter, decide_eq_true_eq]
    constructor
    · rintro ⟨f, ⟨-, hk⟩, rfl⟩
      exact hk
    · intro hk
      obtain ⟨f, hf, rfl⟩ := hdecl k hk
      exact ⟨f, ⟨hf, hk⟩, rfl⟩
  rw [← hperm.length_eq, List.length_map]

/-- A share of several fields hands them out unless one is a seed. -/
lemma discloses_filtered_iff (h : v.Stores rt fields) {keys : List String} (hnodup : keys.Nodup)
    (hdecl : ∀ k ∈ keys, ∃ f ∈ fields, normalizeFieldKey rt f.key = k) (hlen : 1 < keys.length) :
    Discloses (boundedFiltered rt v.schemaVersion fields (some keys))
        (sharedFields rt (some keys) fields) ↔
      ∀ f ∈ fields, normalizeFieldKey rt f.key ∈ keys → f.isTotp = false := by
  have hshared := length_sharedFields h hnodup hdecl
  -- several keys name several fields, so the secret is a field set
  have hset : isFieldSet v.schemaVersion fields = true := by
    by_contra hset
    have hle : (sharedFields rt (some keys) fields).length ≤ fields.length :=
      List.filter_sublist.length_le
    rcases eq_nil_or_singleton h (by simpa using hset) with rfl | ⟨f, rfl⟩
    · rw [List.length_nil] at hle
      omega
    · rw [List.length_singleton] at hle
      omega
  have hfilter : (withoutTotpFields fields).filter (fun f => isIncluded rt (some keys) f.key f.sensitive)
      = withoutTotpFields (sharedFields rt (some keys) fields) := by
    rw [withoutTotpFields, withoutTotpFields, sharedFields, List.filter_filter, List.filter_filter]
    exact List.filter_congr fun f _ => Bool.and_comm _ _
  simp only [boundedFiltered, hset, if_true, hfilter, filteredFieldsResult, List.length_map]
  have hall : (∀ f ∈ fields, normalizeFieldKey rt f.key ∈ keys → f.isTotp = false) ↔
      withoutTotpFields (sharedFields rt (some keys) fields) = sharedFields rt (some keys) fields := by
    rw [withoutTotpFields, List.filter_eq_self]
    simp only [sharedFields, isIncluded, List.mem_filter, decide_eq_true_eq, Bool.not_eq_true',
      and_imp]
  rw [hall]
  constructor
  · intro hd
    by_contra hne
    have hlt : (withoutTotpFields (sharedFields rt (some keys) fields)).length < keys.length := by
      rw [← hshared]
      refine lt_of_le_of_ne List.filter_sublist.length_le fun heq => hne ?_
      exact List.filter_sublist.eq_of_length heq
    simp [Discloses, hlt] at hd
  · intro heq
    rw [heq, if_neg (by omega)]
    exact .inl rfl

end Discloses

/-- **An accepted share is revealable** exactly when `Revealable` says so: while the
version it was validated against stays the current one, its reveal hands out the
admitted fields with their stored values. -/
theorem accepted_share_discloses_iff {rt : Runtime} {collation : Collation} {s : Store}
    {credentialId : ℕ} {v : CredentialVersion} {fields : List Field} {request : ScopeRequest}
    {scope : ShareScope} {r : Reads} (h : v.Stores rt fields)
    (hv : selectCurrentVersionMeta s credentialId = some v)
    (hacc : Accepts rt collation s credentialId request scope) (hr : r.Unchanged credentialId v) :
    (∃ result, serializeBounded rt r credentialId (effectiveAttributeKeysForShare scope) =
        .ok result ∧
      Discloses result (sharedFields rt (effectiveAttributeKeysForShare scope) fields)) ↔
      Revealable rt v.schemaVersion fields (effectiveAttributeKeysForShare scope) := by
  simp only [serializeBounded_eq h hr, Except.ok.injEq, exists_eq_left']
  cases hkeys : effectiveAttributeKeysForShare scope with
  | none => simp [Revealable, discloses_whole h]
  | some keys =>
    obtain ⟨hnodup, hne, hdecl⟩ := hacc.keys hkeys
    rw [declaredFieldKeys_eq h hv] at hdecl
    have hnamed : ∀ k ∈ keys, ∃ f ∈ fields, normalizeFieldKey rt f.key = k := fun k hk =>
      List.mem_map.1 (hdecl k hk)
    simp only [Revealable, Option.some.injEq, forall_eq']
    match keys, hne with
    | [k], _ =>
      obtain ⟨f, hf, rfl⟩ := hnamed k (by simp)
      have hblank := h.nonblank f hf
      rw [boundedOf, singleKey, if_neg hblank, sharedFields_singleton h hf]
      simp only [discloses_singleKey_iff h hf, List.mem_singleton, List.length_singleton,
        forall_const]
      constructor
      · intro hall g hg hgf
        obtain rfl := eq_of_normalize_eq h hg hf hgf
        exact hall
      · exact fun hall => hall f hf rfl
    | k :: k' :: ks, _ =>
      have hlen : 1 < (k :: k' :: ks).length := by simp
      have hseveral : singleKey (some (k :: k' :: ks)) = none := rfl
      simp only [boundedOf, hseveral, discloses_filtered_iff h hnodup hnamed hlen]
      refine forall₂_congr fun f _ => imp_congr_right fun _ => ?_
      simp

/-! ### A key declared with a capital -/

/-- The current version of a secret with the given fields. -/
def secretVersion (fields : List Field) : CredentialVersion where
  id := 2
  orgId := 1
  credentialId := 1
  encryptedValue := some (encryptValue (serializeFieldEnvelope fields))
  keyVersion := some 1
  versionNumber := 1
  rotationLockedAt := none
  purgedAt := none
  breakGlassOverlapExpiresAt := none
  abandonedAt := none
  promotedAt := some 1
  createdBy := some 7
  createdAt := 1
  schemaVersion := 2
  fieldMeta := some (buildFieldMeta ⟨fields, none⟩)

/-- The store with that secret. -/
def secretStore (fields : List Field) : Store :=
  { Store.empty with
    credentials := [{ id := 1, orgId := 1, projectId := 9, name := "login", description := none,
                      tags := [], expiresAt := none, rotationSchedule := none, cacheable := true,
                      retentionCount := 3, currentVersionId := some 2, createdBy := some 7,
                      createdAt := 1, archivedAt := none }]
    versions := [secretVersion fields], nextId := 3 }

lemma secretStore_unchanged (fields : List Field) :
    (Reads.at (secretStore fields)).Unchanged 1 (secretVersion fields) :=
  ⟨⟨9, rfl, rfl⟩, rfl, rfl⟩

/-- A field set of one field, its key declared as given. -/
def loginFields (key : String) : List Field := [⟨key, "s3cret", true, none⟩]

lemma loginFields_stored {rt : Runtime} {key : String} (hkey : normalizeFieldKey rt key ≠ "") :
    (secretVersion (loginFields key)).Stores rt (loginFields key) :=
  .of_envelope (by simp [loginFields, Field.stored, storedKind]) le_rfl rfl rfl
    (by simp [loginFields]) (by simpa [loginFields] using hkey)
    (by simp [loginFields, Field.isTotp])

/-- The scope of a share of the field `password`. -/
def passwordScope : ShareScope := ⟨some "password", none, by decide, by decide⟩

/-- The key `Password` may be named as `password`, but the share cannot be revealed. -/
theorem capital_key_not_revealed :
    let fields := loginFields "Password"
    let scope := effectiveAttributeKeysForShare passwordScope
    (secretVersion fields).Stores .ascii fields ∧
      Accepts .ascii .byLength (secretStore fields) 1 (.fieldKey (some "password"))
        passwordScope ∧
      (Reads.at (secretStore fields)).Unchanged 1 (secretVersion fields) ∧
      sharedFields .ascii scope fields = fields ∧
      serializeBounded .ascii (.at (secretStore fields)) 1 scope = .ok .notFound ∧
      ¬ Discloses .notFound fields :=
  ⟨loginFields_stored (by decide), ⟨by decide +kernel, rfl⟩, secretStore_unchanged _, by decide,
    by decide, by simp [Discloses]⟩

/-- The key `password` can. -/
theorem accepted_share_discloses_iff_login :
    let fields := loginFields "password"
    let scope := effectiveAttributeKeysForShare passwordScope
    (∃ result, serializeBounded .ascii (.at (secretStore fields)) 1 scope = .ok result ∧
      Discloses result (sharedFields .ascii scope fields)) ↔ Revealable .ascii 2 fields scope :=
  have hacc : Accepts .ascii .byLength (secretStore (loginFields "password")) 1
      (.fieldKey (some "password")) passwordScope := ⟨by decide +kernel, rfl⟩
  accepted_share_discloses_iff (loginFields_stored (by decide)) rfl hacc (secretStore_unchanged _)

end ProjectVault.Shares
