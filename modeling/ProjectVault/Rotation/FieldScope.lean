import ProjectVault.Credentials.BoundedShare
import ProjectVault.Rotation.Current

/-!
What a field-scoped rotation changes (`rotation/service.ts`).
-/

namespace ProjectVault

open Js

variable {p : CredentialVersion} {body : InitiateRotationBody} {values : List (String × String)}
  {targets : List String} {preflight : Preflight} {key : String} {kv : String × String}

/-- A version as its writers leave it, with the fields it is read back as. -/
inductive CredentialVersion.WrittenAs (rt : Runtime) (v : CredentialVersion) : List Field → Prop
  | legacy {value : String} (hv : v.schemaVersion < 2)
      (he : v.encryptedValue = some (encryptValue value)) :
      WrittenAs rt v [{ key := defaultFieldKey, value, sensitive := true, kind := none }]
  | envelope {fields : List Field} {template : Option CredentialTemplate}
      (hv : 2 ≤ v.schemaVersion)
      (he : v.encryptedValue = some (encryptValue (serializeFieldEnvelope fields)))
      (hm : v.fieldMeta = some (buildFieldMeta ⟨fields, template⟩))
      (hdistinct : (fields.map fun f => normalizeFieldKey rt f.key).Nodup) :
      WrittenAs rt v (fields.map Field.stored)

/-- A request targets a field. -/
def Targeted (rt : Runtime) (targets : List String) (f : Field) : Prop :=
  ∃ target ∈ targets, normalizeFieldKey rt target = normalizeFieldKey rt f.key

/-- The value a request submits for a field: the entry of `fieldValues` whose key, and no other,
normalises to that of the field, or `newValue` when there is no `fieldValues`. -/
def Submits (rt : Runtime) (body : InitiateRotationBody) (f : Field) (value : String) : Prop :=
  match body.fieldValues with
  | none => value = body.newValue
  | some values => ∃ key, (key, value) ∈ values ∧
      normalizeFieldKey rt key = normalizeFieldKey rt f.key ∧
      ∀ kv ∈ values, normalizeFieldKey rt kv.1 = normalizeFieldKey rt f.key → kv.1 = key

/-- What becomes of a field: its key, sensitivity and kind stay, a targeted field takes the
submitted value, and a field that is not targeted or holds a one-time-password seed keeps its
value. -/
structure Field.RotatedTo (rt : Runtime) (body : InitiateRotationBody) (targets : List String)
    (f g : Field) : Prop where
  key : g.key = f.key
  sensitive : g.sensitive = f.sensitive
  kind : g.kind = f.kind
  targeted : Targeted rt targets f → Submits rt body f g.value
  untouched : ¬Targeted rt targets f → g.value = f.value
  seeds : f.isTotp = true → g.value = f.value

variable {rt : Runtime}

/-! ### Versions as written -/

namespace CredentialVersion.WrittenAs

variable {v : CredentialVersion} {fields : List Field}

lemma readable (h : v.WrittenAs rt fields) :
    ∃ e, v.encryptedValue = some e ∧
      parseFieldsFromPlaintext v.schemaVersion (withSecret e) = .ok fields := by
  cases h with
  | legacy hv he => exact ⟨_, he, by rw [parseFieldsFromPlaintext, if_pos hv]; rfl⟩
  | envelope hv he hm hdistinct =>
    refine ⟨_, he, ?_⟩
    rw [parseFieldsFromPlaintext, if_neg (not_lt.2 hv)]
    exact parseEnvelope_serializeFieldEnvelope _

lemma distinct (h : v.WrittenAs rt fields) :
    (fields.map fun f => normalizeFieldKey rt f.key).Nodup := by
  cases h with
  | legacy hv he => exact List.nodup_singleton _
  | envelope hv he hm hdistinct =>
    rw [List.map_map]
    exact hdistinct

/-- What is read back is stored as it is. -/
lemma stored (h : v.WrittenAs rt fields) {f : Field} (hf : f ∈ fields) : f.stored = f := by
  cases h with
  | legacy hv he =>
    obtain rfl := List.mem_singleton.1 hf
    rfl
  | envelope hv he hm hdistinct =>
    obtain ⟨g, -, rfl⟩ := List.mem_map.1 hf
    exact g.stored_stored

lemma fieldMeta_eq (h : v.WrittenAs rt fields) :
    ∃ template, fieldMetaForResponse v.schemaVersion v.fieldMeta =
      buildFieldMeta ⟨fields, template⟩ := by
  cases h with
  | legacy hv he =>
    refine ⟨none, ?_⟩
    cases v.fieldMeta with
    | none => rfl
    | some ms =>
      rw [fieldMetaForResponse, if_neg (not_le.2 hv)]
      rfl
  | @envelope fields template hv he hm hdistinct =>
    refine ⟨template, ?_⟩
    rw [hm, fieldMetaForResponse, if_pos hv, buildFieldMeta, buildFieldMeta, List.map_map]
    exact List.map_congr_left fun f _ => by simp [Field.stored]

lemma described (h : v.WrittenAs rt fields) :
    List.Forall₂ FieldMeta.Describes (fieldMetaForResponse v.schemaVersion v.fieldMeta)
      fields := by
  obtain ⟨template, hmeta⟩ := h.fieldMeta_eq
  rw [hmeta, buildFieldMeta, List.forall₂_map_left_iff, List.forall₂_same]
  exact fun f hf => ⟨rfl, rfl, congrArg Field.kind (h.stored hf)⟩

lemma eq_of_normalize (h : v.WrittenAs rt fields) {f g : Field} (hf : f ∈ fields)
    (hg : g ∈ fields) (hkey : normalizeFieldKey rt f.key = normalizeFieldKey rt g.key) : f = g :=
  List.inj_on_of_nodup_map h.distinct hf hg hkey

end CredentialVersion.WrittenAs

/-! ### The submitted values -/

lemma mem_mapSet {value : String} {m : List (String × String)} (h : kv ∈ mapSet key value m) :
    kv = (key, value) ∨ kv ∈ m := by
  induction m with
  | nil => exact .inl (List.mem_singleton.1 h)
  | cons x m ih =>
    obtain ⟨k, v⟩ := x
    rw [mapSet] at h
    split at h
    · next hk =>
      rcases List.mem_cons.1 h with rfl | hmem
      · exact .inl (by rw [hk])
      · exact .inr (List.mem_cons_of_mem _ hmem)
    · rcases List.mem_cons.1 h with rfl | hmem
      · exact .inr List.mem_cons_self
      · exact (ih hmem).imp id (List.mem_cons_of_mem _)

lemma mem_foldl_mapSet (values : List (String × String)) (m : List (String × String))
    (h : kv ∈ values.foldl (fun m kv => mapSet (normalizeFieldKey rt kv.1) kv.2 m) m) :
    kv ∈ m ∨ ∃ raw ∈ values, (normalizeFieldKey rt raw.1, raw.2) = kv := by
  induction values generalizing m with
  | nil => exact .inl h
  | cons x values ih =>
    rcases ih _ h with hm | ⟨raw, hraw, heq⟩
    · rcases mem_mapSet hm with rfl | hm
      · exact .inr ⟨x, List.mem_cons_self, rfl⟩
      · exact .inl hm
    · exact .inr ⟨raw, List.mem_cons_of_mem _ hraw, heq⟩

/-- Every normalised entry comes from a submitted one. -/
lemma mem_normalizeFieldValues (h : kv ∈ normalizeFieldValues rt values) :
    ∃ raw ∈ values, (normalizeFieldKey rt raw.1, raw.2) = kv := by
  rcases mem_foldl_mapSet values [] h with hnil | hraw
  · simp at hnil
  · exact hraw

lemma eq_of_findDuplicateFrom {seen : List String} (h : findDuplicateFrom rt seen values = none)
    (hkey : key ∈ seen ∨ key ∈ values.map Prod.fst) (hkv : kv ∈ values)
    (heq : normalizeFieldKey rt key = normalizeFieldKey rt kv.1) : key = kv.1 := by
  induction values generalizing seen key kv with
  | nil => simp at hkv
  | cons x values ih =>
    obtain ⟨k, v⟩ := x
    rw [findDuplicateFrom] at h
    split at h
    · simp at h
    · next hseen =>
      have hhead : ∀ k' ∈ seen, normalizeFieldKey rt k' = normalizeFieldKey rt k → k' = k := by
        intro k' hk' hn
        by_contra hne
        exact hseen (List.any_eq_true.2 ⟨k', hk', by simpa [hn] using hne⟩)
      rcases List.mem_cons.1 hkv with rfl | hkv
      · rcases hkey with hkey | hkey
        · exact hhead key hkey heq
        · rcases List.mem_cons.1 hkey with rfl | hkey
          · rfl
          · obtain ⟨kv', hkv', rfl⟩ := List.mem_map.1 hkey
            exact (ih h (.inl List.mem_cons_self) hkv' heq.symm).symm
      · refine ih h ?_ hkv heq
        rcases hkey with hkey | hkey
        · exact .inl (List.mem_cons_of_mem _ hkey)
        · rcases List.mem_cons.1 hkey with rfl | hkey
          · exact .inl List.mem_cons_self
          · exact .inr hkey

/-- Without a duplicate, submitted keys that normalise alike are alike. -/
lemma eq_of_findDuplicateNormalizedFieldValueKey
    (h : findDuplicateNormalizedFieldValueKey rt values = none) {a b : String × String}
    (ha : a ∈ values) (hb : b ∈ values) (heq : normalizeFieldKey rt a.1 = normalizeFieldKey rt b.1)
    : a.1 = b.1 :=
  eq_of_findDuplicateFrom h (.inr (List.mem_map_of_mem ha)) hb heq

lemma valueForField_mem {newValue : String} (h : key ∈ values.map Prod.fst) :
    (key, valueForField key newValue (some values)) ∈ values := by
  obtain ⟨kv, hkv, rfl⟩ := List.mem_map.1 h
  cases hfind : values.find? fun x => x.1 = kv.1 with
  | none => exact absurd (List.find?_eq_none.1 hfind kv hkv) (by simp)
  | some found =>
    have hkey : found.1 = kv.1 := by simpa using List.find?_some hfind
    rw [valueForField, Option.bind_some, hfind, ← hkey]
    exact List.mem_of_find?_eq_some hfind

/-! ### The preflight -/

/-- Accepted targets are normalised, and each names a declared field that holds no
one-time-password seed. -/
lemma validateTargetFields_some {schemaVersion : ℕ} {fieldMeta : Option (List FieldMeta)}
    {normalized : Option (List String)}
    (h : validateTargetFields rt (some targets) schemaVersion fieldMeta = .ok normalized) :
    normalized = some (targets.map (normalizeFieldKey rt)) ∧
      ∀ key ∈ targets.map (normalizeFieldKey rt),
        ∃ m ∈ fieldMetaForResponse schemaVersion fieldMeta,
          m.kind ≠ some .totp ∧ normalizeFieldKey rt m.key = key := by
  simp only [validateTargetFields] at h
  split at h
  · simp at h
  · next hfind =>
    refine ⟨(Except.ok.inj h).symm, fun key hkey => ?_⟩
    have hdeclared := List.find?_eq_none.1 hfind key hkey
    simp only [decide_not, Bool.not_eq_true', decide_eq_false_iff_not, not_not, List.mem_map,
      List.mem_filter] at hdeclared
    obtain ⟨m, ⟨hm, hkind⟩, hkey'⟩ := hdeclared
    exact ⟨m, hm, by simpa using hkind, hkey'⟩

/-- Accepted values have an entry for every target. -/
lemma validateFieldValues_nil (h : (validateFieldValues (some values) (some targets)).1 = [])
    (hkey : key ∈ targets) : key ∈ values.map Prod.fst := by
  have := List.filter_eq_nil_iff.1 h key (List.mem_eraseDups.2 hkey)
  simpa using this

/-- What a passed preflight has checked of a field-scoped request. -/
lemma resolveInitiateRotationPreflight_scoped (htargets : body.targetFields = some targets)
    (h : resolveInitiateRotationPreflight rt p body = .ok (.inr preflight)) :
    preflight.targets = some (targets.map (normalizeFieldKey rt)) ∧
      preflight.fieldValues = body.fieldValues.map (normalizeFieldValues rt) ∧
      preflight.previousPlaintext = p.encryptedValue.map withSecret ∧
      (∀ key ∈ targets.map (normalizeFieldKey rt),
        ∃ m ∈ fieldMetaForResponse p.schemaVersion p.fieldMeta,
          m.kind ≠ some .totp ∧ normalizeFieldKey rt m.key = key) ∧
      ∀ values, body.fieldValues = some values →
        findDuplicateNormalizedFieldValueKey rt values = none ∧
          ∀ key ∈ targets.map (normalizeFieldKey rt),
            key ∈ (normalizeFieldValues rt values).map Prod.fst := by
  have hplain : preflight.previousPlaintext = p.encryptedValue.map withSecret := by
    rcases resolveInitiateRotationPreflight_ok h with ⟨r, hr, -⟩ | ⟨_, hr, hplain⟩
    · simp at hr
    · rw [Sum.inr.inj hr]
      exact hplain
  rw [resolveInitiateRotationPreflight, htargets] at h
  split at h
  · simp at h
  · next normalized hvalid =>
    obtain ⟨rfl, hdeclared⟩ := validateTargetFields_some hvalid
    split at h
    · simp at h
    · next hdup =>
      dsimp only at h
      split at h
      · simp at h
      · next hnone =>
        rw [bind_eq_ok] at h
        obtain ⟨check, -, h⟩ := h
        split at h
        · simp [pure, Except.pure] at h
        · simp only [pure, Except.pure, Except.ok.injEq, Sum.inr.injEq] at h
          refine ⟨by rw [← h], by rw [← h], hplain, hdeclared, fun values hvalues => ?_⟩
          rw [hvalues] at hdup hnone
          exact ⟨hdup, fun key hkey =>
            validateFieldValues_nil (not_not.1 (not_or.1 hnone).1) hkey⟩

/-! ### The new version -/

/-- A field of a written version under an accepted request. -/
lemma rotatedTo_snapshotField {old : List Field} (h : p.WrittenAs rt old)
    (htargets : body.targetFields = some targets)
    (hpre : resolveInitiateRotationPreflight rt p body = .ok (.inr preflight)) {f : Field}
    (hf : f ∈ old) :
    f.RotatedTo rt body targets (snapshotField rt (targets.map (normalizeFieldKey rt))
      body.newValue preflight.fieldValues f) := by
  obtain ⟨-, hvalues, -, hdeclared, hentries⟩ :=
    resolveInitiateRotationPreflight_scoped htargets hpre
  have hmem : Targeted rt targets f ↔
      normalizeFieldKey rt f.key ∈ targets.map (normalizeFieldKey rt) := List.mem_map.symm
  by_cases hkey : normalizeFieldKey rt f.key ∈ targets.map (normalizeFieldKey rt)
  · rw [snapshotField, if_pos hkey]
    refine ⟨rfl, rfl, rfl, fun _ => ?_, fun hn => absurd (hmem.2 hkey) hn, fun htotp => ?_⟩
    · rw [Submits, hvalues]
      cases hbody : body.fieldValues with
      | none => rfl
      | some values =>
        obtain ⟨hdup, hentry⟩ := hentries values hbody
        obtain ⟨raw, hraw, heq⟩ := mem_normalizeFieldValues
          (valueForField_mem (hentry _ hkey))
        obtain ⟨hraw₁, hraw₂⟩ := Prod.mk.inj heq
        refine ⟨raw.1, ?_, hraw₁, fun kv hkv hkv₁ =>
          eq_of_findDuplicateNormalizedFieldValueKey hdup hkv hraw (hkv₁.trans hraw₁.symm)⟩
        rw [Option.map_some, ← hraw₂]
        exact hraw
    · -- A declared field of the same key holds no seed, and it is this field.
      obtain ⟨m, hm, hkind, hmkey⟩ := hdeclared _ hkey
      obtain ⟨g, hg, hdesc⟩ := exists_of_forall₂ h.described hm
      obtain rfl := h.eq_of_normalize hg hf (by rw [← hdesc.1, hmkey])
      exact absurd (by simpa [Field.isTotp, hdesc.2.2] using htotp) hkind
  · rw [snapshotField, if_neg hkey]
    exact ⟨rfl, rfl, rfl, fun ht => absurd (hmem.1 ht) hkey, fun _ => rfl, fun _ => rfl⟩

/-! ### Writing a version -/

/-- The row an insert makes of the fields of a new version. -/
structure CredentialVersion.Inserts (n : CredentialVersion) (fields : NewVersionFields) : Prop where
  encryptedValue : n.encryptedValue = some fields.encryptedValue
  schemaVersion : n.schemaVersion = fields.schemaVersion.getD 1
  fieldMeta : n.fieldMeta = fields.fieldMeta

/-- Written versions stay written: a field-scoped rotation of a written version succeeds, and
writes the snapshot with its own metadata. -/
lemma buildNewVersionInsertFields_written {old : List Field} (h : p.WrittenAs rt old)
    {plaintext : Option String} (hplain : plaintext = p.encryptedValue.map withSecret)
    (targets : List String) (newValue : String) (fieldValues : Option (List (String × String))) :
    ∃ fields, buildNewVersionInsertFields rt p plaintext (some targets) newValue fieldValues =
        .ok fields ∧
      fields.fieldMeta = some (fieldMetaForResponse p.schemaVersion p.fieldMeta) ∧
      ∀ n : CredentialVersion, n.Inserts fields →
        n.WrittenAs rt (old.map (snapshotField rt targets newValue fieldValues)) := by
  obtain ⟨e, he, hparse⟩ := h.readable
  obtain ⟨template, hmeta⟩ := h.fieldMeta_eq
  have hkey : ∀ f : Field, (snapshotField rt targets newValue fieldValues f).key = f.key := by
    intro f
    rw [snapshotField]
    split <;> rfl
  have hstored : ∀ f ∈ old, (snapshotField rt targets newValue fieldValues f).stored =
      snapshotField rt targets newValue fieldValues f := by
    intro f hf
    have hf' : storedKind f.kind = f.kind := congrArg Field.kind (h.stored hf)
    rw [snapshotField]
    split <;> simp [Field.stored, hf']
  have hread : parseFieldsFromPlaintext p.schemaVersion (plaintext.getD "") = .ok old := by
    rw [hplain, he]
    exact hparse
  refine ⟨_, by rw [buildNewVersionInsertFields, buildFieldScopedSnapshot, hread]; rfl, rfl,
    fun n hn => ?_⟩
  have hwritten : n.WrittenAs rt
      ((old.map (snapshotField rt targets newValue fieldValues)).map Field.stored) := by
    have hschema : 2 ≤ n.schemaVersion := hn.schemaVersion.ge
    refine .envelope hschema hn.encryptedValue (?_ : _ = some (buildFieldMeta ⟨_, template⟩)) ?_
    · rw [hn.fieldMeta, hmeta, buildFieldMeta, buildFieldMeta, List.map_map]
      refine congrArg some (List.map_congr_left fun f _ => ?_)
      rw [Function.comp_apply, snapshotField]
      split <;> rfl
    · rw [List.map_map]
      simpa only [Function.comp_def, hkey] using h.distinct
  have hsame : (old.map (snapshotField rt targets newValue fieldValues)).map Field.stored =
      old.map (snapshotField rt targets newValue fieldValues) := by
    rw [List.map_map]
    exact List.map_congr_left hstored
  rwa [hsame] at hwritten

/-! ### The frame -/

/-- An accepted request on a written version makes a written version, with each field as the
request leaves it. -/
lemma newVersion_frame {old : List Field} (h : p.WrittenAs rt old)
    (htargets : body.targetFields = some targets)
    (hpre : resolveInitiateRotationPreflight rt p body = .ok (.inr preflight)) :
    ∃ fields, buildNewVersionInsertFields rt p preflight.previousPlaintext preflight.targets
        body.newValue preflight.fieldValues = .ok fields ∧
      fields.fieldMeta = some (fieldMetaForResponse p.schemaVersion p.fieldMeta) ∧
      ∀ n : CredentialVersion, n.Inserts fields →
        ∃ new, n.WrittenAs rt new ∧ List.Forall₂ (Field.RotatedTo rt body targets) old new := by
  obtain ⟨htg, -, hplain, -⟩ := resolveInitiateRotationPreflight_scoped htargets hpre
  rw [htg]
  obtain ⟨fields, hfields, hmeta, hwritten⟩ := buildNewVersionInsertFields_written h hplain
    (targets.map (normalizeFieldKey rt)) body.newValue preflight.fieldValues
  refine ⟨fields, hfields, hmeta, fun n hn => ⟨_, hwritten n hn, ?_⟩⟩
  rw [List.forall₂_map_right_iff, List.forall₂_same]
  exact fun f hf => rotatedTo_snapshotField h htargets hpre hf

/-- **The frame of a field-scoped rotation**: an accepted request on a written version makes a
version whose plaintext holds the same fields, under the same metadata, each of them as the
request leaves it. -/
theorem fieldScopedRotation_frame {p : CredentialVersion} {old : List Field}
    (h : p.WrittenAs rt old) {body : InitiateRotationBody} {preflight : Preflight}
    {targets : List String} (htargets : body.targetFields = some targets)
    (hpre : resolveInitiateRotationPreflight rt p body = .ok (.inr preflight)) :
    ∃ fields, buildNewVersionInsertFields rt p preflight.previousPlaintext preflight.targets
        body.newValue preflight.fieldValues = .ok fields ∧
      fields.fieldMeta = some (fieldMetaForResponse p.schemaVersion p.fieldMeta) ∧
      ∀ n : CredentialVersion, n.Inserts fields →
        ∃ e new, n.encryptedValue = some e ∧
          parseFieldsFromPlaintext n.schemaVersion (withSecret e) = .ok new ∧
          List.Forall₂ (Field.RotatedTo rt body targets) old new ∧
          List.Forall₂ FieldMeta.Describes
            (fieldMetaForResponse n.schemaVersion n.fieldMeta) new := by
  obtain ⟨fields, hfields, hmeta, hframe⟩ := newVersion_frame h htargets hpre
  refine ⟨fields, hfields, hmeta, fun n hn => ?_⟩
  obtain ⟨new, hwritten, hnew⟩ := hframe n hn
  obtain ⟨e, he, hparse⟩ := hwritten.readable
  exact ⟨e, new, he, hparse, hnew, hwritten.described⟩

/-- A login with a password, a one-time-password seed and a note. -/
def loginFields : List Field :=
  [⟨"Password", "old", true, none⟩, ⟨"Seed", "JBSWY3DPEHPK3PXP", true, some .totp⟩,
   ⟨"note", "first", false, some .multiline⟩]

/-- The login as it is stored. -/
def loginVersion : CredentialVersion where
  id := 1
  orgId := 9
  credentialId := 100
  encryptedValue := some (encryptValue (serializeFieldEnvelope loginFields))
  keyVersion := some 1
  versionNumber := 1
  rotationLockedAt := none
  purgedAt := none
  breakGlassOverlapExpiresAt := none
  abandonedAt := none
  promotedAt := some 1
  createdBy := none
  createdAt := 1
  schemaVersion := 2
  fieldMeta := some (buildFieldMeta ⟨loginFields, some .login⟩)

/-- A request that names the password in another spelling, with a value of its own. -/
def passwordBody : InitiateRotationBody :=
  ⟨"unused", none, some [" password"], some [("PASSWORD", "new")], none⟩

lemma loginVersion_written : loginVersion.WrittenAs .ascii (loginFields.map Field.stored) :=
  .envelope le_rfl rfl (show _ = some (buildFieldMeta ⟨loginFields, some .login⟩) from rfl) (by decide)

/-- Rotating the password of the login. -/
theorem fieldScopedRotation_frame_login :
    ∃ preflight fields,
      resolveInitiateRotationPreflight .ascii loginVersion passwordBody = .ok (.inr preflight) ∧
      buildNewVersionInsertFields .ascii loginVersion preflight.previousPlaintext
        preflight.targets passwordBody.newValue preflight.fieldValues = .ok fields ∧
      ∀ n : CredentialVersion, n.Inserts fields → ∃ e new, n.encryptedValue = some e ∧
        parseFieldsFromPlaintext n.schemaVersion (withSecret e) = .ok new ∧
        List.Forall₂ (Field.RotatedTo .ascii passwordBody [" password"])
          (loginFields.map Field.stored) new := by
  obtain ⟨preflight, hpre⟩ : ∃ preflight, resolveInitiateRotationPreflight .ascii loginVersion
      passwordBody = .ok (.inr preflight) :=
    ⟨⟨some ["password"], some [("password", "new")], some (serializeFieldEnvelope loginFields),
      false, false⟩, by decide +kernel⟩
  obtain ⟨fields, hfields, -, hframe⟩ :=
    fieldScopedRotation_frame loginVersion_written rfl hpre
  refine ⟨preflight, fields, hpre, hfields, fun n hn => ?_⟩
  obtain ⟨e, new, he, hparse, hnew, -⟩ := hframe n hn
  exact ⟨e, new, he, hparse, hnew⟩

end ProjectVault
