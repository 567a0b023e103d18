import ProjectVault.Rotation.Reachable
import ProjectVault.Shares.Scope

/-!
What the answer of a share depends on.
-/

namespace ProjectVault

open Js

/-! ### Stored kinds -/

lemma forall_of_mapM_ok {ε α β : Type} {f : α → Except ε β} {P : β → Prop}
    (hf : ∀ a b, f a = .ok b → P b) {as : List α} :
    ∀ {bs : List β}, as.mapM f = .ok bs → ∀ b ∈ bs, P b := by
  induction as with
  | nil =>
    intro bs h
    simp only [List.mapM_nil, pure, Except.pure, Except.ok.injEq] at h
    simp [← h]
  | cons a as ih =>
    intro bs h
    rw [List.mapM_cons, bind_eq_ok] at h
    obtain ⟨b, hb, h⟩ := h
    obtain ⟨bs', hbs', h⟩ := bind_eq_ok.mp h
    simp only [pure, Except.pure, Except.ok.injEq] at h
    rw [← h, List.forall_mem_cons]
    exact ⟨hf a b hb, ih hbs'⟩

lemma parseEnvelopeField_stored {raw : Json} {f : Field} (h : parseEnvelopeField raw = .ok f) :
    f.stored = f := by
  cases raw with
  | null => simp [parseEnvelopeField] at h
  | _ =>
    simp only [parseEnvelopeField, Except.ok.injEq] at h
    rw [← h]
    simp [Field.stored]

/-- What a plaintext decodes to is as it is persisted. -/
lemma parseFieldsFromPlaintext_stored {n : ℕ} {text : String} {fields : List Field}
    (h : parseFieldsFromPlaintext n text = .ok fields) : ∀ f ∈ fields, f.stored = f := by
  rw [parseFieldsFromPlaintext] at h
  split_ifs at h
  · rw [← Except.ok.inj h]
    simp [Field.stored, storedKind]
  · unfold parseEnvelope at h
    split at h
    · simp at h
    · exact forall_of_mapM_ok (fun _ _ hf => parseEnvelopeField_stored hf) h
    · simp at h

/-! ### Rows keep their description -/

/-- The columns of a version row that no transaction changes. -/
def CredentialVersion.description (v : CredentialVersion) :
    ℕ × ℕ × ℕ × Option (List FieldMeta) :=
  (v.id, v.versionNumber, v.schemaVersion, v.fieldMeta)

namespace Slice

variable {σ σ' : Slice} {now : ℕ}

lemma description_subset_updateWhere {p : CredentialVersion → Bool}
    {f : CredentialVersion → CredentialVersion} {ds : List (ℕ × ℕ × ℕ × Option (List FieldMeta))}
    {vs : List CredentialVersion} (hf : ∀ v, (f v).description = v.description)
    (h : ds ⊆ vs.map CredentialVersion.description) :
    ds ⊆ (Db.updateWhere p f vs).map CredentialVersion.description := by
  rw [Db.map_updateWhere vs fun v _ _ => hf v]
  exact h

lemma description_subset_push (σ : Slice) (row : CredentialVersion) :
    σ.versions.map CredentialVersion.description ⊆
      (σ.push row).versions.map CredentialVersion.description := by
  simp [push]

lemma description_purgeUnlessPurged (now : ℕ) (v : CredentialVersion) :
    (purgeUnlessPurged now v).description = v.description := by
  unfold purgeUnlessPurged
  split <;> rfl

lemma Step.description_subset {k : Change} (h : Step now σ k σ') :
    σ.versions.map CredentialVersion.description ⊆
      σ'.versions.map CredentialVersion.description := by
  cases h with
  | edit => exact description_subset_push σ _
  | imported => exact description_subset_push σ _
  | stage =>
    refine description_subset_updateWhere ?_ (description_subset_push σ _)
    exact fun _ => rfl
  | promote =>
    refine description_subset_updateWhere ?_ (List.Subset.refl _)
    exact fun _ => rfl
  | retire =>
    exact description_subset_updateWhere (description_purgeUnlessPurged now) (List.Subset.refl _)
  | complete =>
    refine description_subset_updateWhere ?_ (List.Subset.refl _)
    exact fun _ => rfl
  | resume => exact List.Subset.refl _
  | recover => exact List.Subset.refl _
  | abandon =>
    refine description_subset_updateWhere ?_ (description_subset_updateWhere ?_
      (List.Subset.refl _))
    · exact fun _ => rfl
    · exact fun _ => rfl
  | breakGlass =>
    refine description_subset_updateWhere ?_ (description_subset_push σ _)
    exact fun _ => rfl
  | expire =>
    refine description_subset_updateWhere ?_ (List.Subset.refl _)
    exact fun _ => rfl
  | prune =>
    refine description_subset_updateWhere ?_ (List.Subset.refl _)
    exact fun _ => rfl

end Slice

lemma mem_slice_of_selectCurrentVersionMeta {s : Store} {c : ℕ} {v : CredentialVersion}
    (h : selectCurrentVersionMeta s c = some v) :
    v ∈ (s.slice c).versions ∧ v.isServable = true :=
  List.mem_filter.1 (List.argmax_mem h)

/-- Two current versions of one number, at two moments of a run, have the same schema
and the same metadata. -/
lemma description_eq_of_versionNumber_eq {rt : Runtime} {ok : VaultState → Timed → Prop}
    {w w' : VaultState} (hw : (vault rt).Reaches ok w) (h : (vault rt).Steps ok w w') {c : ℕ}
    {v v' : CredentialVersion} (hv : selectCurrentVersionMeta w.store c = some v)
    (hv' : selectCurrentVersionMeta w'.store c = some v')
    (hnum : v'.versionNumber = v.versionNumber) : v'.description = v.description := by
  have hwf : w.store.WellFormed := (reachable_sound hw).1
  obtain ⟨hwf', hI⟩ := steps_slice_invariant (c := c)
    (I := fun σ => v.description ∈ σ.versions.map CredentialVersion.description)
    (fun _ _ _ _ hI hst => hst.description_subset hI) h hwf
    (List.mem_map_of_mem (mem_slice_of_selectCurrentVersionMeta hv).1)
  obtain ⟨x, hx, hdesc⟩ := List.mem_map.1 hI
  have hxnum : x.versionNumber = v.versionNumber := congrArg (fun d => d.2.1) hdesc
  have hxv : x = v' := (hwf'.slice c).eq_of_number hx
    (mem_slice_of_selectCurrentVersionMeta hv').1 (hxnum.trans hnum.symm)
  rw [← hxv]
  exact hdesc

namespace Shares

/-! ### Two reads of one share -/

/-- When other transactions commit between the value read and the metadata read, the
answer is `not_found` or the one the version of the value read gives. -/
def ConsistentReads (rt : Runtime) (c : ℕ) (filter : Option (List String)) : Prop :=
  ∀ (r : Reads) (w w' : VaultState), (vault rt).Reaches (fun _ _ => True) w →
    (vault rt).Steps (fun _ _ => True) w w' → r.version = w.store → r.metadata = w'.store →
    ∀ result, serializeBounded rt r c filter = .ok result →
      result = .notFound ∨
        serializeBounded rt { r with metadata := r.version } c filter = .ok result

lemma revealCurrentValueAt_versionNumber {r : Reads} {ref : CredentialRef} {field : Option String}
    {value : String} {n : ℕ} {excluded : Bool} {revealed : Option (List String)}
    (h : revealCurrentValueAt r ref field = .ok (.value value n excluded revealed)) :
    ∃ v, selectCurrentVersionMeta r.version ref.credentialId = some v ∧ v.versionNumber = n := by
  unfold revealCurrentValueAt at h
  split at h
  · simp at h
  · split at h
    · simp at h
    · rename_i v hv
      refine ⟨v, hv, ?_⟩
      split at h
      · simp at h
      · rename_i e he
        rw [revealVersion] at h
        split at h
        · simp at h
        · obtain ⟨⟨fields, multi⟩, -, h⟩ := bind_eq_ok.mp h
          cases multi with
          | true =>
            simp only [Bool.true_eq_false, if_false] at h
            cases field with
            | none => simp [pure, Except.pure] at h
            | some key =>
              dsimp only at h
              split at h <;> simp [pure, Except.pure] at h
          | false =>
            simp only [if_true] at h
            obtain ⟨text, -, h⟩ := bind_eq_ok.mp h
            simp only [pure, Except.pure, Except.ok.injEq, RevealResult.value.injEq] at h
            exact h.2.1

theorem consistentReads (rt : Runtime) (c : ℕ) (filter : Option (List String)) :
    ConsistentReads rt c filter := by
  intro r w w' hw hsteps hversion hmetadata result h
  unfold serializeBounded at h ⊢
  cases hp : loadCredentialProjectId r.project c with
  | none =>
    rw [hp] at h
    exact .inl (Except.ok.inj h).symm
  | some p =>
    simp only [hp] at h ⊢
    cases hkey : singleKey filter with
    | some key =>
      rw [hkey] at h
      exact .inr h
    | none =>
      simp only [hkey] at h ⊢
      obtain ⟨revealed, hrevealed, h⟩ := bind_eq_ok.mp h
      have hrevealed' : revealCurrentValueAt { r with metadata := r.version } ⟨c, p⟩ none =
          .ok revealed := hrevealed
      cases revealed with
      | value value n excluded fs =>
        simp only [pure, Except.pure, Except.ok.injEq] at h
        simp only [serializeBoundedFiltered, hrevealed', bind, Except.bind, pure, Except.pure,
          Except.ok.injEq]
        obtain ⟨v, hv, hn⟩ := revealCurrentValueAt_versionNumber hrevealed
        unfold serializeBoundedSingleFieldValue at h ⊢
        cases hv' : selectCurrentVersionMeta r.metadata c with
        | none =>
          rw [hv'] at h
          exact .inl h.symm
        | some v' =>
          simp only [hv'] at h
          simp only [hv]
          split_ifs at h with hnum
          · exact .inl h.symm
          · rw [not_not] at hnum
            rw [if_neg (not_not.2 hn)]
            rw [hversion] at hv
            rw [hmetadata] at hv'
            have hdesc := description_eq_of_versionNumber_eq hw hsteps hv hv'
              (hnum.trans hn.symm)
            simp only [CredentialVersion.description, Prod.mk.injEq] at hdesc
            rw [← hdesc.2.2.1, ← hdesc.2.2.2]
            exact .inr h
      | fields fs sv n excluded keys =>
        refine .inr ?_
        simp only [serializeBoundedFiltered, hrevealed']
        exact h
      | notFound =>
        refine .inr ?_
        simp only [serializeBoundedFiltered, hrevealed']
        exact h
      | allVersionsPurged =>
        refine .inr ?_
        simp only [serializeBoundedFiltered, hrevealed']
        exact h
      | unknownField key =>
        refine .inr ?_
        simp only [serializeBoundedFiltered, hrevealed']
        exact h

/-! ### Withheld fields -/

/-- The fields a scope keeps from the recipient: seeds, the sensitive fields when the
whole resource is shared, the fields that are not named otherwise. -/
def Withheld (rt : Runtime) (filter : Option (List String)) (f : Field) : Prop :=
  f.isTotp = true ∨
    match filter with
    | none => f.sensitive = true
    | some keys => normalizeFieldKey rt f.key ∉ keys

/-- Two fields with the same key, sensitivity and kind, and unless the scope withholds
them the same value. -/
structure SameToRecipient (rt : Runtime) (filter : Option (List String)) (f f' : Field) : Prop where
  key : f'.key = f.key
  sensitive : f'.sensitive = f.sensitive
  kind : f'.kind = f.kind
  value : ¬ Withheld rt filter f → f'.value = f.value

/-- Two current versions that differ in the values of withheld fields only give the
same answer. -/
def DependsOnShared (rt : Runtime) (s : Store) (c : ℕ) (v : CredentialVersion)
    (fields : List Field) (filter : Option (List String)) : Prop :=
  ∀ (s' : Store) (v' : CredentialVersion) (fields' : List Field),
    s'.credentials = s.credentials → selectCurrentVersionMeta s' c = some v' →
    v'.schemaVersion = v.schemaVersion → v'.Stores rt fields' →
    List.Forall₂ (SameToRecipient rt filter) fields fields' →
    serializeBounded rt (.at s') c filter = serializeBounded rt (.at s) c filter

section SameToRecipient

variable {rt : Runtime} {filter : Option (List String)} {fields fields' : List Field}

lemma SameToRecipient.isTotp {f f' : Field} (h : SameToRecipient rt filter f f') :
    f'.isTotp = f.isTotp := by
  rw [Field.isTotp, Field.isTotp, h.kind]

lemma SameToRecipient.isIncluded {f f' : Field} (h : SameToRecipient rt filter f f') :
    isIncluded rt filter f'.key f'.sensitive = isIncluded rt filter f.key f.sensitive := by
  rw [h.key, h.sensitive]

/-- An admitted field that can be read looks the same. -/
lemma SameToRecipient.bounded {f f' : Field} (h : SameToRecipient rt filter f f')
    (hw : ¬ Withheld rt filter f) : f'.bounded = f.bounded := by
  rw [Field.bounded, Field.bounded, h.key, h.sensitive, h.value hw]

/-- The admitted fields that can be read are not withheld. -/
lemma not_withheld {f : Field} (htotp : f.isTotp = false)
    (hinc : ProjectVault.isIncluded rt filter f.key f.sensitive = true) :
    ¬ Withheld rt filter f := by
  rintro (h | h)
  · simp [htotp] at h
  · cases filter with
    | none => simp [ProjectVault.isIncluded, h] at hinc
    | some keys => exact h (by simpa [ProjectVault.isIncluded] using hinc)

/-- A selection by what the recipient may know selects the same fields. -/
lemma forall₂_filter {R : Field → Field → Prop} {p : Field → Bool}
    (hp : ∀ f f', R f f' → p f' = p f) (h : List.Forall₂ R fields fields') :
    List.Forall₂ R (fields.filter p) (fields'.filter p) := by
  induction h with
  | nil => exact .nil
  | @cons f f' _ _ hf _ ih =>
    cases hpf : p f with
    | true => simpa [hpf, hp f f' hf] using ⟨hf, ih⟩
    | false => simpa [hpf, hp f f' hf] using ih

/-- A search by what the recipient may know finds the same field. -/
lemma find?_of_forall₂ {R : Field → Field → Prop} {p : Field → Bool}
    (hp : ∀ f f', R f f' → p f' = p f) (h : List.Forall₂ R fields fields') :
    (fields.find? p = none ∧ fields'.find? p = none) ∨
      ∃ f f', fields.find? p = some f ∧ fields'.find? p = some f' ∧ R f f' := by
  induction h with
  | nil => exact .inl ⟨rfl, rfl⟩
  | @cons f f' _ _ hf _ ih =>
    cases hpf : p f with
    | true =>
      refine .inr ⟨f, f', ?_, ?_, hf⟩
      · simp [hpf]
      · simp [hp f f' hf, hpf]
    | false => simpa [hpf, hp f f' hf] using ih

lemma isFieldSet_eq (h : List.Forall₂ (SameToRecipient rt filter) fields fields') (n : ℕ) :
    isFieldSet n fields' = isFieldSet n fields := by
  have hread := forall₂_filter (p := fun f => !f.isTotp)
    (fun f f' hf => by rw [hf.isTotp]) h
  have hlen : (withoutTotpFields fields').length = (withoutTotpFields fields).length :=
    hread.length_eq.symm
  rw [Bool.eq_iff_iff, isFieldSet, isFieldSet, decide_eq_true_eq, decide_eq_true_eq, hlen,
    h.length_eq]

/-- The whole-resource and several-key answers depend on shared fields only. -/
lemma boundedFiltered_eq (h : List.Forall₂ (SameToRecipient rt filter) fields fields') (n : ℕ)
    (hlegacy : ∀ f ∈ fields, isFieldSet n fields = false → f.isTotp = false) :
    boundedFiltered rt n fields' filter = boundedFiltered rt n fields filter := by
  simp only [boundedFiltered, isFieldSet_eq h n]
  cases hset : isFieldSet n fields with
  | true =>
    simp only [if_true]
    congr 1
    have hread := forall₂_filter (p := fun f => !f.isTotp && isIncluded rt filter f.key f.sensitive)
      (fun f f' hf => by rw [hf.isTotp, hf.isIncluded]) h
    simp only [withoutTotpFields, List.filter_filter, Bool.and_comm (isIncluded rt filter _ _)]
    have hmem : ∀ f ∈ fields.filter fun f => !f.isTotp && isIncluded rt filter f.key f.sensitive,
        ¬ Withheld rt filter f := by
      intro f hf
      have hf' := (List.mem_filter.1 hf).2
      rw [Bool.and_eq_true, Bool.not_eq_true'] at hf'
      exact not_withheld hf'.1 hf'.2
    generalize fields.filter _ = l at hread hmem
    generalize fields'.filter _ = l' at hread
    induction hread with
    | nil => rfl
    | cons hf _ ih =>
      rw [List.map_cons, List.map_cons, hf.bounded (hmem _ List.mem_cons_self),
        ih fun g hg => hmem g (List.mem_cons_of_mem _ hg)]
  | false =>
    cases h with
    | nil => rfl
    | @cons f f' fs fs' hf _ =>
      simp only [Bool.false_eq_true, if_false, hf.isIncluded]
      cases hinc : isIncluded rt filter f.key f.sensitive with
      | false => rfl
      | true =>
        have htotp := hlegacy f List.mem_cons_self hset
        rw [hf.value (not_withheld htotp hinc)]

/-- The answer for one key depends on the fields declared with that key only. -/
lemma boundedSingleKey_eq (h : List.Forall₂ (SameToRecipient rt filter) fields fields') (n : ℕ)
    {key : String} (hkey : ∀ f ∈ fields, f.key = key → f.isTotp = false → ¬ Withheld rt filter f) :
    boundedSingleKey n fields' key = boundedSingleKey n fields key := by
  simp only [boundedSingleKey, isFieldSet_eq h n]
  by_cases hs : n < 2
  · rw [if_pos hs, if_pos hs]
  · rw [if_neg hs, if_neg hs]
    have hread : List.Forall₂ (SameToRecipient rt filter) (withoutTotpFields fields)
        (withoutTotpFields fields') := forall₂_filter (fun f f' hf => by rw [hf.isTotp]) h
    cases find?_of_forall₂ (p := fun f => decide (f.key = key))
        (fun f f' hf => by rw [hf.key]) hread with
    | inl hnone => rw [hnone.1, hnone.2]
    | inr hsome =>
      obtain ⟨f, f', hf, hf', hsame⟩ := hsome
      obtain ⟨hmem, htotp⟩ := List.mem_filter.1 (List.mem_of_find?_eq_some hf)
      have hw := hkey f hmem (by simpa using List.find?_some hf) (by simpa using htotp)
      rw [hf, hf']
      dsimp only
      rw [hsame.bounded hw, hsame.value hw]

end SameToRecipient

/-! ### The exact condition -/

/-- No field is declared raw with the one key of the filter but named by another. -/
def NoStrayKey (rt : Runtime) (schemaVersion : ℕ) (fields : List Field)
    (filter : Option (List String)) : Prop :=
  ∀ key, filter = some [key] → key ≠ "" → 2 ≤ schemaVersion → ∀ f ∈ fields, f.key = key →
    f.isTotp = false → normalizeFieldKey rt f.key = key

/-- The field with its value changed when it is declared with the key. -/
def changeValue (key : String) (f : Field) : Field :=
  if f.key = key then { f with value := f.value ++ "x" } else f

/-- The row with the values of one key changed. -/
def changedVersion (v : CredentialVersion) (fields : List Field) (key : String) :
    CredentialVersion :=
  { v with encryptedValue :=
             some (encryptValue (serializeFieldEnvelope (fields.map (changeValue key)))) }

section ChangeValue

variable {rt : Runtime} {v : CredentialVersion} {fields : List Field} {key : String}

@[simp] lemma changeValue_key (f : Field) : (changeValue key f).key = f.key := by
  rw [changeValue]
  split <;> rfl

@[simp] lemma changeValue_sensitive (f : Field) : (changeValue key f).sensitive = f.sensitive := by
  rw [changeValue]
  split <;> rfl

@[simp] lemma changeValue_kind (f : Field) : (changeValue key f).kind = f.kind := by
  rw [changeValue]
  split <;> rfl

@[simp] lemma changeValue_isTotp (f : Field) : (changeValue key f).isTotp = f.isTotp := by
  rw [Field.isTotp, Field.isTotp, changeValue_kind]

lemma changeValue_stored {f : Field} (h : f.stored = f) :
    (changeValue key f).stored = changeValue key f := by
  have hkind : storedKind f.kind = f.kind := congrArg Field.kind h
  simp only [Field.stored, changeValue_kind, hkind]
  rw [changeValue]
  split <;> rfl

lemma changedVersion_stores (h : v.Stores rt fields) (hs : 2 ≤ v.schemaVersion) :
    (changedVersion v fields key).Stores rt (fields.map (changeValue key)) where
  readable := by
    obtain ⟨e, -, hparse⟩ := h.readable
    have hstored := parseFieldsFromPlaintext_stored hparse
    refine ⟨_, rfl, ?_⟩
    have hmap : (fields.map (changeValue key)).map Field.stored = fields.map (changeValue key) := by
      rw [List.map_map]
      exact List.map_congr_left fun f hf => changeValue_stored (hstored f hf)
    have hs' : ¬ (changedVersion v fields key).schemaVersion < 2 := not_lt.2 hs
    rw [parseFieldsFromPlaintext, if_neg hs', withSecret, encryptValue,
      parseEnvelope_serializeFieldEnvelope, hmap]
  described := by
    rw [List.forall₂_map_right_iff]
    refine h.described.imp fun m f hmf => ?_
    exact ⟨by rw [hmf.1, changeValue_key], by rw [hmf.2.1, changeValue_sensitive],
      by rw [hmf.2.2, changeValue_kind]⟩
  distinct := by
    rw [List.map_map]
    simpa [Function.comp_def] using h.distinct
  nonblank := by
    simpa using h.nonblank
  seeds_sensitive := by
    simpa using h.seeds_sensitive

/-- The answer for a stray key follows the value of the stray field. -/
lemma boundedSingleKey_changeValue_ne (hs : 2 ≤ v.schemaVersion) {f : Field} (hf : f ∈ fields)
    (hkey : f.key = key) (htotp : f.isTotp = false) :
    boundedSingleKey v.schemaVersion (fields.map (changeValue key)) key ≠
      boundedSingleKey v.schemaVersion fields key := by
  have hread : withoutTotpFields (fields.map (changeValue key)) =
      (withoutTotpFields fields).map (changeValue key) := by
    rw [withoutTotpFields, withoutTotpFields, List.filter_map]
    congr 1
    exact List.filter_congr fun g _ => by simp
  have hset : isFieldSet v.schemaVersion (fields.map (changeValue key)) =
      isFieldSet v.schemaVersion fields := by
    simp only [isFieldSet, hread, List.length_map]
  have hfind : ((withoutTotpFields fields).map (changeValue key)).find? (fun g => g.key = key) =
      ((withoutTotpFields fields).find? fun g => g.key = key).map (changeValue key) := by
    rw [List.find?_map]
    congr 2
    funext g
    simp
  simp only [boundedSingleKey, if_neg (not_lt.2 hs), hread, hset, hfind]
  cases hg : (withoutTotpFields fields).find? fun g => g.key = key with
  | none =>
    have hmem : f ∈ withoutTotpFields fields := List.mem_filter.2 ⟨hf, by simp [htotp]⟩
    simpa [hkey] using List.find?_eq_none.1 hg f hmem
  | some g =>
    have hgkey : g.key = key := by simpa using List.find?_some hg
    have hvalue : (changeValue key g).value ≠ g.value := by
      rw [changeValue, if_pos hgkey]
      intro heq
      have hlen := congrArg String.length heq
      simp at hlen
    cases isFieldSet v.schemaVersion fields with
    | true => simp [Field.bounded, hvalue]
    | false => simp [hvalue]

end ChangeValue

/-- **Share output bound**: a share answers from the fields its scope admits, whatever
commits between its reads, if and only if its one key strays to no other field. -/
theorem share_output_bound_iff {rt : Runtime} {s : Store} {c p : ℕ} {v : CredentialVersion}
    {fields : List Field} (h : v.Stores rt fields) (hv : selectCurrentVersionMeta s c = some v)
    (hp : loadCredentialProjectId s c = some p)
    (hc : (findCredentialInProject s ⟨c, p⟩).isSome = true) (filter : Option (List String)) :
    (DependsOnShared rt s c v fields filter ∧ ConsistentReads rt c filter) ↔
      NoStrayKey rt v.schemaVersion fields filter := by
  have hunchanged : ∀ s' v', s'.credentials = s.credentials →
      selectCurrentVersionMeta s' c = some v' → (Reads.at s').Unchanged c v' := by
    intro s' v' hcred hv'
    refine ⟨⟨p, ?_, ?_⟩, hv', hv'⟩
    · rw [← hp, loadCredentialProjectId, loadCredentialProjectId]
      exact congrArg (fun cs => (List.find? _ cs).map _) hcred
    · rw [← hc, findCredentialInProject, findCredentialInProject]
      exact congrArg (fun cs => (List.find? _ cs).isSome) hcred
  rw [and_iff_left (consistentReads rt c filter)]
  constructor
  · intro hdep key hfilter hkey hs f hf hfkey htotp
    by_contra hne
    obtain ⟨hmem, hserv⟩ := mem_slice_of_selectCurrentVersionMeta hv
    have hvc : v.credentialId = c := (mem_slice_versions.1 hmem).2
    let v' := changedVersion v fields key
    let s' : Store := { s with versions := [v'] }
    have hv' : selectCurrentVersionMeta s' c = some v' := by
      have hserv' : v'.isServable = true := hserv
      have hvc' : v'.credentialId = c := hvc
      simp [selectCurrentVersionMeta, Store.versionsOf, s', hvc', hserv']
    have hsame : List.Forall₂ (SameToRecipient rt filter) fields
        (fields.map (changeValue key)) := by
      rw [List.forall₂_map_right_iff, List.forall₂_same]
      refine fun g _ => ⟨changeValue_key g, changeValue_sensitive g, changeValue_kind g, ?_⟩
      intro hw
      rw [changeValue, if_neg]
      intro hgkey
      rw [← hfkey] at hgkey
      refine hw (.inr ?_)
      rw [hfilter, hgkey]
      simpa using hne
    have heq := hdep s' v' _ rfl hv' rfl (changedVersion_stores h hs) hsame
    rw [serializeBounded_eq (changedVersion_stores h hs) (hunchanged s' v' rfl hv'),
      serializeBounded_eq h (hunchanged s v rfl hv)] at heq
    have hsingle : singleKey filter = some key := by rw [hfilter, singleKey, if_neg hkey]
    simp only [boundedOf, hsingle, Except.ok.injEq] at heq
    exact boundedSingleKey_changeValue_ne hs hf hfkey htotp heq
  · intro hstray s' v' fields' hcred hv' hschema hst' hsame
    rw [serializeBounded_eq hst' (hunchanged s' v' hcred hv'),
      serializeBounded_eq h (hunchanged s v rfl hv), hschema, Except.ok.injEq]
    cases hsingle : singleKey filter with
    | none =>
      simp only [boundedOf, hsingle]
      refine boundedFiltered_eq hsame _ fun f hf hset => ?_
      by_cases hs : v.schemaVersion < 2
      · obtain ⟨e, -, hfields⟩ := h.legacy hs
        rw [hfields, List.mem_singleton] at hf
        rw [hf]
        rfl
      · obtain ⟨-, hread⟩ := length_le_one_of_not_isFieldSet (not_lt.1 hs) hset
        rw [← hread] at hf
        simpa using (List.mem_filter.1 hf).2
    | some key =>
      simp only [boundedOf, hsingle]
      have hfilter : filter = some [key] ∧ key ≠ "" := by
        unfold singleKey at hsingle
        split at hsingle
        · split_ifs at hsingle with hkey
          cases hsingle
          exact ⟨rfl, hkey⟩
        · simp at hsingle
      by_cases hs : v.schemaVersion < 2
      · simp [boundedSingleKey, hs]
      · refine boundedSingleKey_eq hsame _ fun f hf hfkey htotp => ?_
        have hnorm := hstray key hfilter.1 hfilter.2 (not_lt.1 hs) f hf hfkey htotp
        refine not_withheld htotp ?_
        rw [hfilter.1, isIncluded]
        simpa using hfkey ▸ hnorm

/-! ### A stray key -/

/-- The runtime on two keys: the letter J with a combining caron has no composed form,
its lower case has one. -/
def caronRuntime : Runtime where
  nfc s := if s = "j\u030C" then "\u01F0" else s
  toLowerCase s := if s = "J\u030C" then "j\u030C" else s
  toUpperCase s := if s = "j\u030C" then "J\u030C" else s
  otpAuthUri _ := false

/-- Two fields whose keys differ in case only; both are decomposed. -/
def caronFields (value : String) : List Field :=
  [⟨"J\u030C", "first", true, none⟩, ⟨"j\u030C", value, true, none⟩]

/-- A share that names the first of them. -/
def caronScope : ShareScope := ⟨none, some ["j\u030C"], by decide, by decide⟩

lemma caronFields_stored (value : String) :
    (secretVersion (caronFields value)).Stores caronRuntime (caronFields value) :=
  .of_envelope (by simp [caronFields, Field.stored, storedKind]) le_rfl rfl rfl
    (by simp only [caronFields, List.map_cons, List.map_nil]; decide)
    (by simp only [caronFields, List.forall_mem_cons]; decide)
    (by simp [caronFields, Field.isTotp])

/-- The share of the first field answers with the second, which it does not name. -/
theorem stray_key_discloses :
    let fields := caronFields "second"
    Accepts caronRuntime .byLength (secretStore fields) 1 (.attributeKeys (some ["J\u030C"]))
        caronScope ∧
      (secretVersion fields).Stores caronRuntime fields ∧
      serializeBounded caronRuntime (.at (secretStore fields)) 1
        (effectiveAttributeKeysForShare caronScope) =
          .ok (.fields [⟨"j\u030C", "second", true⟩]) ∧
      ¬ DependsOnShared caronRuntime (secretStore fields) 1 (secretVersion fields) fields
        (effectiveAttributeKeysForShare caronScope) := by
  intro fields
  have hanswer : ∀ value, serializeBounded caronRuntime (.at (secretStore (caronFields value))) 1
      (effectiveAttributeKeysForShare caronScope) = .ok (.fields [⟨"j\u030C", value, true⟩]) := by
    intro value
    rw [serializeBounded_eq (caronFields_stored value) (secretStore_unchanged _)]
    rfl
  refine ⟨⟨by decide, rfl⟩, caronFields_stored _, hanswer _, fun hdep => ?_⟩
  have hsame : List.Forall₂ (SameToRecipient caronRuntime
      (effectiveAttributeKeysForShare caronScope)) fields (caronFields "third") := by
    refine .cons ⟨rfl, rfl, rfl, fun _ => rfl⟩ (.cons ⟨rfl, rfl, rfl, fun hw => ?_⟩ .nil)
    have hout : normalizeFieldKey caronRuntime "j\u030C" ∉ ["j\u030C"] := by decide
    exact absurd (.inr hout) hw
  have heq := hdep (secretStore (caronFields "third")) (secretVersion (caronFields "third")) _ rfl rfl
    rfl (caronFields_stored _) hsame
  rw [hanswer, hanswer] at heq
  simp at heq

/-- A share of the key `password` strays nowhere. -/
theorem share_output_bound_iff_login :
    let fields := loginFields "password"
    let scope := effectiveAttributeKeysForShare passwordScope
    (DependsOnShared .ascii (secretStore fields) 1 (secretVersion fields) fields scope ∧
      ConsistentReads .ascii 1 scope) ↔ NoStrayKey .ascii 2 fields scope :=
  share_output_bound_iff (loginFields_stored (by decide)) rfl rfl rfl _

end Shares

end ProjectVault
