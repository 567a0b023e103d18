import ProjectVault.Credentials.Service

/-!
What a share may read of a credential (`credentials/bounded-share-adapter.ts`).
-/

namespace ProjectVault

open Js

/-- `BoundedField`. -/
structure BoundedField where
  key : String
  value : String
  sensitive : Bool
  deriving DecidableEq

/-- `SerializeBoundedResult`. -/
inductive SerializeBoundedResult where
  | notFound
  | value (value : String)
  | fields (fields : List BoundedField)
  deriving DecidableEq

/-- A field as the recipient of a share gets it. -/
def Field.bounded (f : Field) : BoundedField := ⟨f.key, f.value, f.sensitive⟩

/-- The committed stores the statements of one call see, in their order. -/
structure Reads where
  project : Store
  credential : Store
  version : Store
  abandoned : Store
  metadata : Store

/-- No transaction commits between the statements. -/
def Reads.at (s : Store) : Reads := ⟨s, s, s, s, s⟩

/-- `loadCredentialProjectId`. -/
def loadCredentialProjectId (s : Store) (resourceId : ℕ) : Option ℕ :=
  (s.credentials.find? fun c => c.id = resourceId).map Credential.projectId

/-- `attributeKeys`: the declared keys of the current version. -/
def attributeKeys (s : Store) (resourceId : ℕ) : List String :=
  match selectCurrentVersionMeta s resourceId with
  | none => []
  | some row => (fieldMetaForResponse row.schemaVersion row.fieldMeta).map FieldMeta.key

/-- `revealCurrentValue`, its three statements on stores of their own. -/
def revealCurrentValueAt (r : Reads) (ref : CredentialRef) (field : Option String) :
    Except VaultError RevealResult :=
  match findCredentialInProject r.credential ref with
  | none => .ok .notFound
  | some _ =>
    match selectCurrentVersionMeta r.version ref.credentialId with
    | none => .ok .allVersionsPurged
    | some version =>
      match version.encryptedValue with
      | none => .ok .allVersionsPurged
      | some e => revealVersion r.abandoned version e field

/-- `isIncluded`: a named key, or for the whole resource a key that is not
sensitive. -/
def isIncluded (rt : Runtime) (filter : Option (List String)) (key : String) (sensitive : Bool) :
    Bool :=
  match filter with
  | some keys => normalizeFieldKey rt key ∈ keys
  | none => !sensitive

/-- `serializeBoundedSingleKey`. -/
def serializeBoundedSingleKey (r : Reads) (ref : CredentialRef) (key : String) :
    Except VaultError SerializeBoundedResult := do
  match ← revealCurrentValueAt r ref (some key) with
  | .value value _ _ _ => return .value value
  | .fields fs _ _ _ _ => return .fields (fs.map Field.bounded)
  | _ => return .notFound

/-- `filteredFieldsResult`: a named key that is gone fails the whole share. -/
def filteredFieldsResult (filter : Option (List String)) (fields : List BoundedField) :
    SerializeBoundedResult :=
  match filter with
  | some keys => if fields.length < keys.length then .notFound else .fields fields
  | none => .fields fields

/-- More than one key is named. -/
def namesSeveral (filter : Option (List String)) : Bool :=
  match filter with
  | some keys => 1 < keys.length
  | none => false

/-- The answer for the one field of a secret, by its metadata. -/
def singleFieldResult (rt : Runtime) (filter : Option (List String)) (meta? : Option FieldMeta)
    (revealedValue : String) : SerializeBoundedResult :=
  match meta? with
  | none => filteredFieldsResult filter []
  | some m =>
    if isIncluded rt filter m.key m.sensitive = false then filteredFieldsResult filter []
    else if namesSeveral filter then .notFound
    else .value revealedValue

/-- `serializeBoundedSingleFieldValue`: the metadata is read again, and has to be
that of the version the value came from. -/
def serializeBoundedSingleFieldValue (rt : Runtime) (r : Reads) (resourceId : ℕ)
    (filter : Option (List String)) (revealedValue : String) (revealedVersionNumber : ℕ) :
    SerializeBoundedResult :=
  match selectCurrentVersionMeta r.metadata resourceId with
  | none => .notFound
  | some row =>
    if row.versionNumber ≠ revealedVersionNumber then .notFound
    else singleFieldResult rt filter
      (fieldMetaForResponse row.schemaVersion row.fieldMeta).head? revealedValue

/-- `serializeBoundedFiltered`. -/
def serializeBoundedFiltered (rt : Runtime) (r : Reads) (ref : CredentialRef)
    (filter : Option (List String)) : Except VaultError SerializeBoundedResult := do
  match ← revealCurrentValueAt r ref none with
  | .value value versionNumber _ _ =>
    return serializeBoundedSingleFieldValue rt r ref.credentialId filter value versionNumber
  | .fields fs _ _ _ _ =>
    return filteredFieldsResult filter
      ((fs.filter fun f => isIncluded rt filter f.key f.sensitive).map Field.bounded)
  | _ => return .notFound

/-- The one key of a filter; an empty key counts as none. -/
def singleKey (filter : Option (List String)) : Option String :=
  match filter with
  | some [key] => if key = "" then none else some key
  | _ => none

/-- `serializeBounded`. -/
def serializeBounded (rt : Runtime) (r : Reads) (resourceId : ℕ) (filter : Option (List String)) :
    Except VaultError SerializeBoundedResult :=
  match loadCredentialProjectId r.project resourceId with
  | none => .ok .notFound
  | some projectId =>
    match singleKey filter with
    | some key => serializeBoundedSingleKey r ⟨resourceId, projectId⟩ key
    | none => serializeBoundedFiltered rt r ⟨resourceId, projectId⟩ filter

/-! ### Stored field sets -/

/-- An entry of `field_meta` describes a field. -/
def FieldMeta.Describes (m : FieldMeta) (f : Field) : Prop :=
  m.key = f.key ∧ m.sensitive = f.sensitive ∧ m.kind = f.kind

/-- A version row holds a field set: its ciphertext decrypts to the fields, its
metadata describes them, and their keys differ and are not blank once normalised. A
one-time-password seed is sensitive. -/
structure CredentialVersion.Stores (rt : Runtime) (v : CredentialVersion) (fields : List Field) :
    Prop where
  readable : ∃ e, v.encryptedValue = some e ∧
    parseFieldsFromPlaintext v.schemaVersion (withSecret e) = .ok fields
  described : List.Forall₂ FieldMeta.Describes
    (fieldMetaForResponse v.schemaVersion v.fieldMeta) fields
  distinct : (fields.map fun f => normalizeFieldKey rt f.key).Nodup
  nonblank : ∀ f ∈ fields, normalizeFieldKey rt f.key ≠ ""
  seeds_sensitive : ∀ f ∈ fields, f.isTotp = true → f.sensitive = true

/-- A secret that is handled as a field set. -/
def isFieldSet (schemaVersion : ℕ) (fields : List Field) : Bool :=
  2 ≤ schemaVersion ∧ (fields.length > 1 ∨ (withoutTotpFields fields).length ≠ fields.length)

/-- The answer of a share of one key on a stored field set. -/
def boundedSingleKey (schemaVersion : ℕ) (fields : List Field) (key : String) :
    SerializeBoundedResult :=
  if schemaVersion < 2 then .notFound
  else match (withoutTotpFields fields).find? fun f => f.key = key with
    | none => .notFound
    | some f => if isFieldSet schemaVersion fields then .fields [f.bounded] else .value f.value

/-- The answer of any other share on a stored field set. -/
def boundedFiltered (rt : Runtime) (schemaVersion : ℕ) (fields : List Field)
    (filter : Option (List String)) : SerializeBoundedResult :=
  if isFieldSet schemaVersion fields then
    filteredFieldsResult filter (((withoutTotpFields fields).filter fun f =>
      isIncluded rt filter f.key f.sensitive).map Field.bounded)
  else match fields with
    | [] => filteredFieldsResult filter []
    | f :: _ =>
      if isIncluded rt filter f.key f.sensitive = false then filteredFieldsResult filter []
      else if namesSeveral filter then .notFound
      else .value f.value

/-- The answer of a share on a stored field set. -/
def boundedOf (rt : Runtime) (schemaVersion : ℕ) (fields : List Field)
    (filter : Option (List String)) : SerializeBoundedResult :=
  match singleKey filter with
  | some key => boundedSingleKey schemaVersion fields key
  | none => boundedFiltered rt schemaVersion fields filter

/-- A secret that is not a field set has at most one field, and it can be read. -/
lemma length_le_one_of_not_isFieldSet {schemaVersion : ℕ} {fields : List Field}
    (hs : 2 ≤ schemaVersion) (h : isFieldSet schemaVersion fields = false) :
    fields.length ≤ 1 ∧ withoutTotpFields fields = fields := by
  simp only [isFieldSet, hs, true_and, decide_eq_false_iff_not, not_or, not_lt, not_not] at h
  exact ⟨h.1, List.filter_sublist.eq_of_length h.2⟩

namespace CredentialVersion.Stores

variable {rt : Runtime} {v : CredentialVersion} {fields : List Field}

/-- A row whose ciphertext and metadata were made from one field set stores it. -/
lemma of_envelope {template : Option CredentialTemplate} (hstored : ∀ f ∈ fields, f.stored = f)
    (hs : 2 ≤ v.schemaVersion)
    (he : v.encryptedValue = some (encryptValue (serializeFieldEnvelope fields)))
    (hm : v.fieldMeta = some (buildFieldMeta ⟨fields, template⟩))
    (hdistinct : (fields.map fun f => normalizeFieldKey rt f.key).Nodup)
    (hblank : ∀ f ∈ fields, normalizeFieldKey rt f.key ≠ "")
    (hseeds : ∀ f ∈ fields, f.isTotp = true → f.sensitive = true) : v.Stores rt fields where
  readable := by
    refine ⟨_, he, ?_⟩
    rw [parseFieldsFromPlaintext, if_neg (not_lt.2 hs), withSecret, encryptValue,
      parseEnvelope_serializeFieldEnvelope, List.map_congr_left hstored, List.map_id']
  described := by
    simp only [fieldMetaForResponse, hm]
    rw [if_pos hs, buildFieldMeta, List.forall₂_map_left_iff, List.forall₂_same]
    exact fun f hf => ⟨rfl, rfl, congrArg Field.kind (hstored f hf)⟩
  distinct := hdistinct
  nonblank := hblank
  seeds_sensitive := hseeds

/-- A legacy row stores one field, its whole plaintext. -/
lemma legacy (h : v.Stores rt fields) (hs : v.schemaVersion < 2) :
    ∃ e, v.encryptedValue = some e ∧
      fields = [{ key := defaultFieldKey, value := withSecret e, sensitive := true, kind := none }] := by
  obtain ⟨e, he, hparse⟩ := h.readable
  rw [parseFieldsFromPlaintext, if_pos hs] at hparse
  exact ⟨e, he, (Except.ok.inj hparse).symm⟩

lemma readableFields_eq (h : v.Stores rt fields) :
    ∃ e, v.encryptedValue = some e ∧ readableFields v.schemaVersion (withSecret e) =
      .ok (withoutTotpFields fields, isFieldSet v.schemaVersion fields) := by
  obtain ⟨e, he, hparse⟩ := h.readable
  refine ⟨e, he, ?_⟩
  rw [readableFields, hparse]
  rfl

lemma unwrapRevealValue_eq (h : v.Stores rt fields)
    (hset : isFieldSet v.schemaVersion fields = false) {e : EncryptedValue}
    (he : v.encryptedValue = some e) :
    ∃ value, unwrapRevealValue v.schemaVersion (withSecret e) = .ok value ∧
      ∀ f ∈ fields, value = f.value := by
  by_cases hs : v.schemaVersion < 2
  · obtain ⟨e', he', hfields⟩ := h.legacy hs
    obtain rfl : e = e' := Option.some.inj (he.symm.trans he')
    refine ⟨withSecret e, by rw [unwrapRevealValue, if_pos hs], ?_⟩
    intro f hf
    rw [hfields, List.mem_singleton] at hf
    rw [hf]
  · obtain ⟨e', he', hparse⟩ := h.readable
    obtain rfl : e = e' := Option.some.inj (he.symm.trans he')
    rw [parseFieldsFromPlaintext, if_neg hs] at hparse
    obtain ⟨hlen, -⟩ := length_le_one_of_not_isFieldSet (not_lt.1 hs) hset
    simp only [unwrapRevealValue, if_neg hs, hparse, bind, Except.bind, pure, Except.pure]
    match fields, hlen with
    | [], _ => exact ⟨withSecret e, rfl, by simp⟩
    | [f], _ => exact ⟨f.value, rfl, by simp⟩

/-- The key of a field that can be read passes the check on the requested field. -/
lemma invalidRequestedField_eq (h : v.Stores rt fields) (hs : 2 ≤ v.schemaVersion) (key : String) :
    invalidRequestedField (some key) v.schemaVersion v.fieldMeta =
      if ∃ f ∈ withoutTotpFields fields, f.key = key then none else some key := by
  have hkeys : ((fieldMetaForResponse v.schemaVersion v.fieldMeta).filter
      fun m => m.kind ≠ some .totp).map FieldMeta.key = (withoutTotpFields fields).map Field.key := by
    have hdesc := h.described
    generalize fieldMetaForResponse v.schemaVersion v.fieldMeta = ms at hdesc
    clear h
    induction hdesc with
    | nil => rfl
    | @cons m f ms fields hmf _ ih =>
      obtain ⟨hkey, -, hkind⟩ := hmf
      simp only [withoutTotpFields] at ih ⊢
      by_cases htotp : f.isTotp = true
      · have hk : m.kind = some .totp := by simpa [Field.isTotp, hkind] using htotp
        simpa [hk, htotp] using ih
      · have hk : m.kind ≠ some .totp := by simpa [Field.isTotp, hkind] using htotp
        simp only [Bool.not_eq_true] at htotp
        simpa [hk, htotp, hkey] using ih
  rw [invalidRequestedField, if_neg (not_lt.2 hs), hkeys]
  simp only [List.mem_map]

lemma head?_meta (h : v.Stores rt fields) :
    List.Forall₂ FieldMeta.Describes
      (fieldMetaForResponse v.schemaVersion v.fieldMeta).head?.toList fields.head?.toList := by
  have hdesc := h.described
  generalize fieldMetaForResponse v.schemaVersion v.fieldMeta = ms at hdesc
  cases hdesc with
  | nil => exact .nil
  | cons hmf _ => exact .cons hmf .nil

end CredentialVersion.Stores

/-! ### The answer on a stored field set -/

/-- The version stays the current one while a call runs. -/
structure Reads.Unchanged (r : Reads) (resourceId : ℕ) (v : CredentialVersion) : Prop where
  project : ∃ p, loadCredentialProjectId r.project resourceId = some p ∧
    (findCredentialInProject r.credential ⟨resourceId, p⟩).isSome = true
  version : selectCurrentVersionMeta r.version resourceId = some v
  metadata : selectCurrentVersionMeta r.metadata resourceId = some v

section Answer

variable {rt : Runtime} {r : Reads} {resourceId : ℕ} {v : CredentialVersion} {fields : List Field}

lemma serializeBoundedSingleKey_eq (h : v.Stores rt fields) {p : ℕ}
    (hp : (findCredentialInProject r.credential ⟨resourceId, p⟩).isSome = true)
    (hv : selectCurrentVersionMeta r.version resourceId = some v) (key : String) :
    serializeBoundedSingleKey r ⟨resourceId, p⟩ key =
      .ok (boundedSingleKey v.schemaVersion fields key) := by
  obtain ⟨c, hc⟩ := Option.isSome_iff_exists.1 hp
  obtain ⟨e, he, hread⟩ := h.readableFields_eq
  simp only [serializeBoundedSingleKey, revealCurrentValueAt, hc, hv, he, revealVersion,
    boundedSingleKey]
  by_cases hs : v.schemaVersion < 2
  · simp only [invalidRequestedField, if_pos hs, bind, Except.bind, pure, Except.pure]
  · rw [if_neg hs, h.invalidRequestedField_eq (not_lt.1 hs)]
    cases hfind : (withoutTotpFields fields).find? fun f => f.key = key with
    | none =>
      have hnone : ¬ ∃ f ∈ withoutTotpFields fields, f.key = key := by
        rintro ⟨f, hf, hfk⟩
        simpa [hfk] using List.find?_eq_none.1 hfind f hf
      simp only [if_neg hnone, bind, Except.bind, pure, Except.pure]
    | some f =>
      have hf := List.mem_of_find?_eq_some hfind
      have hsome : ∃ f ∈ withoutTotpFields fields, f.key = key :=
        ⟨f, hf, by simpa using List.find?_some hfind⟩
      simp only [if_pos hsome, hread, bind, Except.bind, pure, Except.pure]
      cases hset : isFieldSet v.schemaVersion fields with
      | true => simp [hfind]
      | false =>
        obtain ⟨value, hvalue, hall⟩ := h.unwrapRevealValue_eq hset he
        simp only [hvalue, if_true, Bool.false_eq_true, if_false]
        rw [hall f (List.mem_of_mem_filter hf)]

lemma serializeBoundedFiltered_eq (h : v.Stores rt fields) {p : ℕ}
    (hp : (findCredentialInProject r.credential ⟨resourceId, p⟩).isSome = true)
    (hv : selectCurrentVersionMeta r.version resourceId = some v)
    (hm : selectCurrentVersionMeta r.metadata resourceId = some v)
    (filter : Option (List String)) :
    serializeBoundedFiltered rt r ⟨resourceId, p⟩ filter =
      .ok (boundedFiltered rt v.schemaVersion fields filter) := by
  obtain ⟨c, hc⟩ := Option.isSome_iff_exists.1 hp
  obtain ⟨e, he, hread⟩ := h.readableFields_eq
  simp only [serializeBoundedFiltered, revealCurrentValueAt, hc, hv, he, revealVersion,
    invalidRequestedField, hread, bind, Except.bind, pure, Except.pure, boundedFiltered]
  cases hset : isFieldSet v.schemaVersion fields with
  | true => simp
  | false =>
    obtain ⟨value, hvalue, hall⟩ := h.unwrapRevealValue_eq hset he
    have hhead := h.head?_meta
    simp only [hvalue, if_true, Bool.false_eq_true, if_false,
      serializeBoundedSingleFieldValue, hm, ne_eq, not_true_eq_false, singleFieldResult]
    cases fields with
    | nil =>
      cases hms : (fieldMetaForResponse v.schemaVersion v.fieldMeta).head? with
      | none => rfl
      | some m => simp [hms] at hhead
    | cons f fs =>
      cases hms : (fieldMetaForResponse v.schemaVersion v.fieldMeta).head? with
      | none => simp [hms] at hhead
      | some m =>
        simp only [hms, Option.toList_some, List.head?_cons, List.forall₂_cons,
          List.forall₂_nil_left_iff, and_true] at hhead
        obtain ⟨hkey, hsens, -⟩ := hhead
        simp only [hkey, hsens, hall f List.mem_cons_self]

/-- While the current version stays the same, a share answers from its field set. -/
theorem serializeBounded_eq (h : v.Stores rt fields) (hr : r.Unchanged resourceId v)
    (filter : Option (List String)) :
    serializeBounded rt r resourceId filter = .ok (boundedOf rt v.schemaVersion fields filter) := by
  obtain ⟨p, hp, hc⟩ := hr.project
  simp only [serializeBounded, hp, boundedOf]
  cases singleKey filter with
  | some key => exact serializeBoundedSingleKey_eq h hc hr.version key
  | none => exact serializeBoundedFiltered_eq h hc hr.version hr.metadata filter

end Answer

end ProjectVault
