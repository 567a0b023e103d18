import ProjectVault.Rotation.Current

/-!
Which writes put their value in front of the readers.
-/

namespace ProjectVault

open Js

variable {input : ConfirmImportInput} {items : List Field} {previous : Option (List Field)}
  {rt : Runtime} {s s' : Store}

/-! ### What a reveal hands out -/

/-- The content of a secret, as a reader sees it. -/
inductive Content where
  | value (value : String)
  | fields (fields : List Field)

/-- The content of an answer. -/
def RevealResult.content : RevealResult → Option Content
  | .value text _ _ _ => some (.value text)
  | .fields fs _ _ _ _ => some (.fields fs)
  | _ => none

/-- The content `revealVersion` reads out of a plaintext. -/
def secretContent (schemaVersion : ℕ) (plaintext : String) : Except VaultError Content := do
  let (fields, isGenuineMultiField) ← readableFields schemaVersion plaintext
  if isGenuineMultiField = false then
    let value ← unwrapRevealValue schemaVersion plaintext
    return .value value
  else return .fields fields

/-- The version stores the content. -/
def CredentialVersion.Contains (v : CredentialVersion) (content : Content) : Prop :=
  ∃ e, v.encryptedValue = some e ∧ secretContent v.schemaVersion (withSecret e) = .ok content

/-- A reveal of the whole secret hands out the content. -/
def Shows (s : Store) (ref : CredentialRef) (content : Content) : Prop :=
  ∃ res, revealCurrentValue s ref none = .ok res ∧ res.content = some content

/-- The served version stores the content. -/
def Held (s : Store) (c : ℕ) (content : Content) : Prop :=
  ∃ sv, selectCurrentVersionMeta s c = some sv ∧ sv.Contains content

lemma revealVersion_content {v : CredentialVersion} {e : EncryptedValue} {content : Content} :
    (∃ res, revealVersion s v e none = .ok res ∧ res.content = some content) ↔
      secretContent v.schemaVersion (withSecret e) = .ok content := by
  rw [revealVersion, secretContent]
  simp only [invalidRequestedField]
  cases readableFields v.schemaVersion (withSecret e) with
  | error err => simp [bind, Except.bind]
  | ok res =>
    obtain ⟨fields, multi⟩ := res
    cases multi with
    | true => simp [bind, Except.bind, pure, Except.pure, RevealResult.content]
    | false =>
      cases unwrapRevealValue v.schemaVersion (withSecret e) with
      | error err => simp [bind, Except.bind]
      | ok value => simp [bind, Except.bind, pure, Except.pure, RevealResult.content]

/-- A reveal hands out what the served version stores. -/
lemma shows_iff_held {ref : CredentialRef} (hp : s.Places ref) {content : Content} :
    Shows s ref content ↔ Held s ref.credentialId content := by
  obtain ⟨credential, hc⟩ := places_iff.mp hp
  rw [Shows, Held, revealCurrentValue, hc]
  dsimp only
  rw [show ((s.versionsOf ref.credentialId).filter CredentialVersion.isServable).argmax
    CredentialVersion.currentKey = selectCurrentVersionMeta s ref.credentialId from rfl]
  cases selectCurrentVersionMeta s ref.credentialId with
  | none => simp [RevealResult.content]
  | some sv =>
    cases he : sv.encryptedValue with
    | none => simp [CredentialVersion.Contains, he, RevealResult.content]
    | some e =>
      simp only [Option.some.injEq, exists_eq_left', CredentialVersion.Contains, he]
      exact revealVersion_content

/-! ### What a write was given -/

/-- The content of a field set: one-time-password seeds are never handed out, and a
single other field is handed out as its bare value. -/
def Content.ofFields (fs : List Field) : Content :=
  let visible := (withoutTotpFields fs).map Field.stored
  if 1 < fs.length ∨ visible.length ≠ fs.length then .fields visible
  else match fs with
    | [f] => .value f.value
    | _ => .value (serializeFieldEnvelope fs)

/-- The content of a request body. -/
def FieldSetBody.content : FieldSetBody → Content
  | .value v => .value (v.getD "")
  | .fields fs _ => Content.ofFields fs

@[simp] lemma isTotp_stored (f : Field) : f.stored.isTotp = f.isTotp := by
  obtain ⟨key, value, sensitive, kind⟩ := f
  rcases kind with _ | k
  · rfl
  · cases k <;> rfl

lemma withoutTotpFields_map_stored (fs : List Field) :
    withoutTotpFields (fs.map Field.stored) = (withoutTotpFields fs).map Field.stored := by
  rw [withoutTotpFields, withoutTotpFields, List.filter_map]
  congr 1
  refine List.filter_congr fun f _ => ?_
  simp

/-- Reading an envelope back. -/
lemma secretContent_envelope (fs : List Field) :
    secretContent 2 (serializeFieldEnvelope fs) = .ok (Content.ofFields fs) := by
  have hparse := parseEnvelope_serializeFieldEnvelope fs
  have hfields : parseFieldsFromPlaintext 2 (serializeFieldEnvelope fs) =
      .ok (fs.map Field.stored) := by
    rw [parseFieldsFromPlaintext, if_neg (by decide), hparse]
  rw [secretContent, readableFields, hfields]
  simp only [bind, Except.bind, pure, Except.pure, withoutTotpFields_map_stored, List.length_map,
    unwrapRevealValue, hparse]
  clear hparse hfields
  rcases fs with _ | ⟨f, _ | ⟨g, rest⟩⟩
  · simp [Content.ofFields, withoutTotpFields]
  · by_cases hf : f.isTotp = true
    · simp [Content.ofFields, withoutTotpFields, hf]
    · simp [Content.ofFields, withoutTotpFields, hf, Field.stored]
  · simp [Content.ofFields]

/-- An imported value is stored as a single field. -/
lemma secretContent_import (value : String) :
    secretContent 2 (importFieldEnvelope value) = .ok (.value value) := by
  have henv : importFieldEnvelope value =
      serializeFieldEnvelope [⟨defaultFieldKey, value, true, none⟩] := by
    simp [importFieldEnvelope, serializeFieldEnvelope, envelopeField, storedKind]
  rw [henv, secretContent_envelope]
  simp [Content.ofFields, withoutTotpFields, Field.isTotp]

/-- A submitted field and the persisted one: the same unless it is a seed. -/
def Persists (item f : Field) : Prop :=
  f.isTotp = item.isTotp ∧ (item.isTotp = false → f = item.stored)

lemma resolveField_ok {item f : Field} (h : resolveField rt previous item = .ok f) :
    Persists item f := by
  rw [resolveField] at h
  split at h
  · rename_i htotp
    obtain ⟨value, -, hret⟩ := bind_eq_ok.mp h
    cases hret
    exact ⟨isTotp_stored item, fun hitem => by simp [hitem] at htotp⟩
  · obtain ⟨value, hvalue, hret⟩ := bind_eq_ok.mp h
    simp only [pure, Except.pure, Except.ok.injEq] at hret hvalue
    subst hret hvalue
    exact ⟨isTotp_stored item, fun hitem => by simp [Field.stored, hitem]⟩

lemma mapM_resolveField_ok :
    ∀ {fields : List Field}, items.mapM (resolveField rt previous) = .ok fields →
      List.Forall₂ Persists items fields := by
  induction items with
  | nil =>
    intro fields h
    simp only [List.mapM_nil, pure, Except.pure, Except.ok.injEq] at h
    rw [← h]
    exact .nil
  | cons item items ih =>
    intro fields h
    rw [List.mapM_cons, bind_eq_ok] at h
    obtain ⟨f, hf, h⟩ := h
    obtain ⟨fs, hfs, hret⟩ := bind_eq_ok.mp h
    cases hret
    exact .cons (resolveField_ok hf) (ih hfs)

lemma visible_of_persists {fields : List Field} (h : List.Forall₂ Persists items fields) :
    (withoutTotpFields fields).map Field.stored = (withoutTotpFields items).map Field.stored := by
  induction h with
  | nil => rfl
  | @cons item f items fields hf _ ih =>
    simp only [withoutTotpFields] at ih ⊢
    cases hitem : item.isTotp with
    | true => simp [hf.1, hitem, ih]
    | false => simp [hitem, ih, hf.2 hitem]

/-- Persisting a field set does not change what readers see of it. -/
lemma ofFields_of_persists {fields : List Field} (h : List.Forall₂ Persists items fields) :
    Content.ofFields fields = Content.ofFields items := by
  have hvis := visible_of_persists h
  have hlen := h.length_eq
  simp only [Content.ofFields, hvis, hlen]
  split
  · rfl
  · rename_i hmulti
    cases h with
    | nil => rfl
    | @cons item f items fields hf htl =>
      cases htl with
      | nil =>
        cases hitem : item.isTotp with
        | true => simp [withoutTotpFields, hitem] at hmulti
        | false => simp [hf.2 hitem, Field.stored]
      | cons _ _ => simp at hmulti

/-- A create or edit stores what its body gives. -/
lemma content_of_resolved {body : FieldSetBody} {resolved : ResolvedFieldSet}
    (h : resolveFieldSet rt body previous = .ok resolved) :
    Content.ofFields resolved.fields = body.content := by
  cases body with
  | value v =>
    simp only [resolveFieldSet, Except.ok.injEq] at h
    rw [← h]
    simp [Content.ofFields, withoutTotpFields, FieldSetBody.content, Field.isTotp]
  | fields fs template =>
    rw [resolveFieldSet, bind_eq_ok] at h
    obtain ⟨-, -, h⟩ := h
    obtain ⟨fields, hfields, h⟩ := bind_eq_ok.mp h
    obtain ⟨-, -, hret⟩ := bind_eq_ok.mp h
    cases hret
    exact ofFields_of_persists (mapM_resolveField_ok hfields)

/-! ### Promotions -/

namespace Slice

variable {σ : Slice} {now : ℕ}
variable {n : CredentialVersion}

/-- A slice has the row `n`, and unless it was purged, with the secret `n` had. -/
def StoresRow (σ : Slice) (n : CredentialVersion) : Prop :=
  ∃ x ∈ σ.versions, x.id = n.id ∧ x.schemaVersion = n.schemaVersion ∧
    (x.purgedAt = none → x.encryptedValue = n.encryptedValue)

/-- An update that changes a secret only by purging it. -/
def PurgesOnly (f : CredentialVersion → CredentialVersion) : Prop :=
  ∀ v, (f v).id = v.id ∧ (f v).schemaVersion = v.schemaVersion ∧
    ((f v).purgedAt = none → v.purgedAt = none ∧ (f v).encryptedValue = v.encryptedValue)

lemma StoresRow.update (h : σ.StoresRow n) {p : CredentialVersion → Bool}
    {f : CredentialVersion → CredentialVersion} (hf : PurgesOnly f) {r : List RotationLink} :
    StoresRow ⟨Db.updateWhere p f σ.versions, r⟩ n := by
  obtain ⟨x, hx, hid, hsv, henc⟩ := h
  refine ⟨if p x then f x else x, Db.mem_updateWhere.mpr ⟨x, hx, rfl⟩, ?_⟩
  obtain ⟨hfid, hfsv, hfenc⟩ := hf x
  split
  · exact ⟨hfid.trans hid, hfsv.trans hsv, fun hp =>
      (hfenc hp).2.trans (henc (hfenc hp).1)⟩
  · exact ⟨hid, hsv, henc⟩

lemma StoresRow.push (h : σ.StoresRow n) (row : CredentialVersion) :
    (σ.push row).StoresRow n := by
  obtain ⟨x, hx, hrest⟩ := h
  exact ⟨x, mem_push.mpr (.inl hx), hrest⟩

lemma purgesOnly_purgeUnlessPurged (now : ℕ) : PurgesOnly (purgeUnlessPurged now) := by
  intro v
  unfold purgeUnlessPurged
  split
  · simp
  · exact ⟨rfl, rfl, fun hp => ⟨hp, rfl⟩⟩

/-- Every change keeps the secret of a row, or purges it. -/
lemma StoresRow.step {σ' : Slice} {k : Change} (h : σ.StoresRow n) (hstep : Step now σ k σ') :
    σ'.StoresRow n := by
  cases hstep with
  | edit => exact h.push _
  | imported => exact h.push _
  | stage =>
    refine (h.push _).update ?_
    exact fun v => ⟨rfl, rfl, fun hp => ⟨hp, rfl⟩⟩
  | promote =>
    refine h.update ?_
    exact fun v => ⟨rfl, rfl, fun hp => ⟨hp, rfl⟩⟩
  | retire => exact h.update (purgesOnly_purgeUnlessPurged now)
  | complete =>
    refine h.update ?_
    exact fun v => ⟨rfl, rfl, fun hp => ⟨hp, rfl⟩⟩
  | resume => exact h
  | recover => exact h
  | abandon =>
    refine (h.update (r := []) ?_).update ?_
    · exact fun v => ⟨rfl, rfl, fun hp => ⟨hp, rfl⟩⟩
    · exact fun v => ⟨rfl, rfl, fun hp => ⟨hp, rfl⟩⟩
  | breakGlass =>
    refine (h.push _).update ?_
    exact fun v => ⟨rfl, rfl, fun hp => ⟨hp, rfl⟩⟩
  | expire =>
    refine h.update ?_
    exact fun v => ⟨rfl, rfl, fun hp => ⟨hp, rfl⟩⟩
  | prune =>
    refine h.update ?_
    exact fun v => ⟨rfl, rfl, fun hp => by simp [CredentialVersion.purge] at hp⟩

/-- A promotion at `now` brings the version `n` in front: it is live, and no
readable version numbered above it was promoted at `now` too. -/
def Leads (σ : Slice) (now : ℕ) (n : CredentialVersion) : Prop :=
  n.isLive = true ∧ ∀ w ∈ σ.versions, w.isServable = true → w.promotedAt = some now →
    w.versionNumber ≤ n.versionNumber

/-- The versions after the promotion of one of them. -/
def promoteVersion (σ : Slice) (now id : ℕ) : Slice :=
  σ.updateVersion id fun v => { v with promotedAt := some now }

lemma mem_promoteVersion {x : CredentialVersion} (hwf : σ.WellFormed) (hn : n ∈ σ.versions)
    {τ : Slice} (hτ : τ.versions = (σ.promoteVersion now n.id).versions) :
    x ∈ τ.versions ↔ (x ∈ σ.versions ∧ x.id ≠ n.id) ∨ x = { n with promotedAt := some now } := by
  rw [hτ]
  exact hwf.mem_update rfl hn

lemma Leads.serves (h : σ.Leads now n) (hwf : σ.WellFormed) (hs : σ.Sound now) (hn : n ∈ σ.versions)
    {τ : Slice} (hτ : τ.versions = (σ.promoteVersion now n.id).versions) :
    τ.Serves { n with promotedAt := some now } := by
  have hmem := fun x => mem_promoteVersion (x := x) hwf hn hτ
  obtain ⟨hpur, hab⟩ := isLive_iff.mp h.1
  refine ⟨(hmem _).mpr (.inr rfl), isServable_iff.mpr ⟨hpur, hab, by simp⟩, fun v hv hvs => ?_⟩
  rcases (hmem v).mp hv with ⟨hv', -⟩ | rfl
  · obtain ⟨t, ht⟩ := Option.ne_none_iff_exists'.mp (isServable_iff.mp hvs).2.2
    rw [currentKey_le_iff ht rfl]
    rcases Nat.lt_or_eq_of_le ((hs v hv').2 t ht) with hlt | heq
    · exact .inl hlt
    · exact .inr ⟨heq, h.2 v hv' hvs (heq ▸ ht)⟩
  · exact le_rfl

/-- A promotion that does not lead leaves the served version in place. -/
lemma served_of_not_leads (h : ¬ σ.Leads now n) (hwf : σ.WellFormed) (hs : σ.Sound now)
    (hn : n ∈ σ.versions) {τ : Slice} (hwf' : τ.WellFormed)
    (hτ : τ.versions = (σ.promoteVersion now n.id).versions) : τ.served = σ.served := by
  have hmem := fun x => mem_promoteVersion (x := x) hwf hn hτ
  by_cases hlive : n.isLive = true
  · -- a version promoted at the same time and numbered above stays in front
    simp only [Leads, hlive, true_and, not_forall, not_le] at h
    obtain ⟨w, hw, hws, hwp, hlt⟩ := h
    obtain ⟨sv, hsv⟩ := exists_serves hw hws
    obtain ⟨t, ht⟩ := Option.ne_none_iff_exists'.mp (isServable_iff.mp hsv.servable).2.2
    have hge := (currentKey_le_iff hwp ht).mp (hsv.le w hw hws)
    have htle := (hs sv hsv.mem).2 t ht
    have hne : sv.id ≠ n.id := fun he => by
      rw [hwf.version_eq hsv.mem hn he] at hge
      omega
    rw [(served_eq_some_iff hwf).mpr hsv, served_eq_some_iff hwf']
    refine ⟨(hmem _).mpr (.inl ⟨hsv.mem, hne⟩), hsv.servable, fun v hv hvs => ?_⟩
    rcases (hmem v).mp hv with ⟨hv, -⟩ | rfl
    · exact hsv.le v hv hvs
    · rw [currentKey_le_iff rfl ht]
      change now < t ∨ now = t ∧ n.versionNumber ≤ sv.versionNumber
      omega
  · have hsame : ∀ x, x.isServable = true →
        (x ∈ τ.versions ↔ x ∈ σ.versions) := fun x hxs => by
      refine ⟨fun hx => ?_, fun hx => (hmem x).mpr (.inl ⟨hx, fun he => ?_⟩)⟩
      · rcases (hmem x).mp hx with ⟨hx, -⟩ | rfl
        · exact hx
        · exact absurd (live_of_servable hxs) hlive
      · rw [hwf.version_eq hx hn he] at hxs
        exact hlive (live_of_servable hxs)
    have hserves : ∀ x, τ.Serves x ↔ σ.Serves x := fun x =>
      ⟨fun hx => ⟨(hsame x hx.servable).mp hx.mem, hx.servable, fun v hv hvs =>
          hx.le v ((hsame v hvs).mpr hv) hvs⟩,
        fun hx => ⟨(hsame x hx.servable).mpr hx.mem, hx.servable, fun v hv hvs =>
          hx.le v ((hsame v hvs).mp hv) hvs⟩⟩
    refine Option.ext fun x => ?_
    rw [served_eq_some_iff hwf', served_eq_some_iff hwf]
    exact hserves x

end Slice

/-! ### Writers -/

/-- The writers that claim to install a value; a promotion names its version. -/
inductive Writer where
  | create | edit | importItem | promote (newVersionId : ℕ) | breakGlass

/-- A write at `now` that reports success, with the credential it wrote to and the
content it was given. -/
inductive Installs (rt : Runtime) (v : VaultState) (now : ℕ) (s' : Store) :
    Writer → CredentialRef → Content → Prop
  | create {input : CreateCredentialInput} {detail : CredentialDetail}
      (h : createCredentialWithFirstVersion rt v.store now input = .ok (detail, s')) :
      Installs rt v now s' .create ⟨detail.credential.id, input.projectId⟩ input.body.content
  | edit {input : AddVersionInput} {result : AddCredentialVersionResult}
      (h : addCredentialVersion rt v.store now input = .ok (some result, s')) :
      Installs rt v now s' .edit ⟨input.credentialId, input.projectId⟩ input.body.content
  | importItem {input : ConfirmImportInput} {record : PendingImport}
      {results : List ImportItemResult} {item : PendingImportItem} {result : ImportItemResult}
      {c : ℕ} {content : Content} (hrec : findPendingImport v.store input = some record)
      (h : confirmCredentialImport v.store now input = .ok (.ok results, s'))
      (hitem : (item, result) ∈ record.items.zip results) (hc : result.credentialId = some c)
      (hcontent : secretContent 2 (withSecret item.encryptedValue) = .ok content) :
      Installs rt v now s' .importItem ⟨c, input.projectId⟩ content
  | promote {v₀ : VaultState} {now₀ : ℕ} {locked₀ locked : Bool} {input : InitiateRotationInput}
      {rot r : Rotation} {items items' : List ChecklistItem} {a b a' : Bool} {s₁ : Store}
      {n : CredentialVersion} {params : RotationParams} {ack : Acknowledgement} {pending : ℕ}
      {content : Content} (hreach : (vault rt).Reaches (fun _ _ => True) v₀)
      (hinit : initiateRotation rt v₀.store now₀ locked₀ input = .ok (.initiated rot items a b, s₁))
      (hn : n ∈ s₁.versions) (hid : n.id = rot.newVersionId) (hcontent : n.Contains content)
      (hsteps : (vault rt).Steps (fun _ _ => True) ⟨s₁, now₀⟩ v)
      (h : promoteRotation v.store now locked params ack = (.promoted r items' a' pending, s'))
      (hr : r.id = rot.id) :
      Installs rt v now s' (.promote rot.newVersionId) ⟨input.credentialId, input.projectId⟩ content
  | breakGlass {locked rowLock : Bool} {input : BreakGlassInput} {rot : Rotation}
      {sup : Option ℕ} {prev t : ℕ} {deps : List CredentialDependency}
      (h : breakGlassRotation v.store now locked rowLock input =
        .ok (.ok rot sup prev t deps false, s')) :
      Installs rt v now s' .breakGlass ⟨input.credentialId, input.projectId⟩ (.value input.newValue)

/-- The writes whose version the readers go on to serve. -/
def Effective (s : Store) (now : ℕ) (c : ℕ) : Writer → Prop
  | .importItem => False
  | .promote id => ∃ n ∈ (s.slice c).versions, n.id = id ∧ (s.slice c).Leads now n
  | _ => True

/-- A version promoted now and numbered above the others of its credential is
served. -/
lemma held_of_latest {now c : ℕ} (hwf : s.WellFormed) (hs : (s.slice c).Sound now)
    (row : CredentialVersion) (hmem : row ∈ (s.slice c).versions) (hserv : row.isServable = true)
    (hp : row.promotedAt = some now)
    (hmax : ∀ v ∈ (s.slice c).versions, v.versionNumber ≤ row.versionNumber) {content : Content}
    (hcontent : row.Contains content) : Held s c content :=
  ⟨row, (Slice.served_eq_some_iff (hwf.slice c)).mpr
    (Slice.serves_of_latest hs hmem hserv hp hmax), hcontent⟩

/-- The version an insert adds is served when it is promoted. -/
lemma held_of_insert {now : ℕ} (values : VersionValues) {row : CredentialVersion}
    (hwf' : s'.WellFormed) (hs' : ∀ c, (s'.slice c).Sound now)
    (hn : ∀ v ∈ s.versions, v.credentialId = values.credentialId →
      v.versionNumber < values.versionNumber) (hp : values.promotedAt = some now)
    (hi : insertVersionAndSetCurrent s now values = .ok (row, s')) {content : Content}
    (hcontent : secretContent values.schemaVersion (withSecret values.encryptedValue) = .ok content)
    : Held s' values.credentialId content := by
  obtain ⟨rfl, hstore⟩ := insertVersionAndSetCurrent_ok hi
  have hv : s'.versions = s.versions ++ [values.row s.nextId now] := by rw [hstore]
  refine held_of_latest hwf' (hs' _) (values.row s.nextId now)
    (mem_slice_versions.mpr ⟨by rw [hv]; simp, rfl⟩) ?_ hp (fun v hvm => ?_) ⟨_, rfl, hcontent⟩
  · exact Slice.isServable_iff.mpr ⟨rfl, rfl, by simp [VersionValues.row, hp]⟩
  · obtain ⟨hvm, hvc⟩ := mem_slice_versions.mp hvm
    rw [hv] at hvm
    rcases List.mem_append.mp hvm with hvm | hvm
    · exact le_of_lt (hn v hvm hvc)
    · rw [List.mem_singleton.mp hvm]

lemma createCredential_held {now : ℕ} (hwf : s.WellFormed) (hs : ∀ c, (s.slice c).Sound now)
    {input : CreateCredentialInput} {detail : CredentialDetail}
    (h : createCredentialWithFirstVersion rt s now input = .ok (detail, s')) :
    s'.Places ⟨detail.credential.id, input.projectId⟩ ∧
      Held s' detail.credential.id input.body.content := by
  have hpath := createCredential_path hwf h
  obtain ⟨resolved, row, hres, hdetail, hins⟩ := createCredentialWithFirstVersion_ok h
  rw [hdetail]
  refine ⟨?_, held_of_insert _ (hpath.wellFormed hwf) (hpath.sound hwf hs) ?_ rfl hins ?_⟩
  · rw [Store.Places, insertVersionAndSetCurrent_places hins]
    simp [Credential.place, CreateCredentialInput.row]
  · intro v hv hvc
    have hfresh := (hwf.versions_fresh v hv).2
    simp only [CreateCredentialInput.versionValues] at hvc
    omega
  · rw [← content_of_resolved hres]
    exact secretContent_envelope _

lemma addVersion_held {now : ℕ} (hwf : s.WellFormed) (hs : ∀ c, (s.slice c).Sound now)
    {input : AddVersionInput} {result : AddCredentialVersionResult}
    (h : addCredentialVersion rt s now input = .ok (some result, s')) :
    s'.Places ⟨input.credentialId, input.projectId⟩ ∧
      Held s' input.credentialId input.body.content := by
  have hpath := addVersion_path hwf h
  rcases addCredentialVersion_ok h with ⟨-, hnone⟩ | ⟨resolved, row, hplace, hres, hins⟩
  · simp at hnone
  · refine ⟨hpath.places hplace, held_of_insert (input.versionValues s now resolved)
      (hpath.wellFormed hwf) (hpath.sound hwf hs)
      (fun v hv hvc => lt_maxVersionNumber_succ hv hvc) rfl hins ?_⟩
    rw [← content_of_resolved hres]
    exact secretContent_envelope _

lemma confirmImportItem_places {now : ℕ} {item : PendingImportItem} {i c : ℕ}
    {res : ImportItemResult} (h : confirmImportItem s now input item i = .ok (res, s'))
    (hc : res.credentialId = some c) :
    s'.Places ⟨c, input.projectId⟩ := by
  rw [confirmImportItem] at h
  split at h
  · simp only [Except.ok.injEq, Prod.mk.injEq] at h
    rw [← h.1] at hc
    simp at hc
  · split at h
    · simp at h
    · obtain ⟨s₁, hins, hret⟩ := bind_eq_ok.mp h
      cases hret
      cases hc
      obtain ⟨hplace, row, hrow⟩ := insertImportedVersion_ok hins
      rw [Store.Places, insertVersionAndSetCurrent_places hrow]
      exact hplace
  · obtain ⟨⟨d, s₁⟩, hins, hret⟩ := bind_eq_ok.mp h
    cases hret
    cases hc
    obtain ⟨rfl, credential, row, hplace, hrow⟩ := insertImportedCredential_ok hins
    rw [Store.Places, insertVersionAndSetCurrent_places hrow]
    simp [hplace]

lemma confirmImportItems_places {now : ℕ} {s₀ : Store} (h₀ : s₀.WellFormed)
    {items : List PendingImportItem} :
    ∀ {s s' : Store} {i : ℕ} {results : List ImportItemResult}, s.WellFormed → Agrees s₀ s →
      confirmImportItems now input s i items = .ok (results, s') →
      ∀ item res c, (item, res) ∈ items.zip results → res.credentialId = some c →
        s'.Places ⟨c, input.projectId⟩ := by
  induction items with
  | nil =>
    intro s s' i results _ _ _ item res c hmem
    simp at hmem
  | cons first rest ih =>
    intro s s' i results hwf hag h item res c hmem hc
    rw [confirmImportItems] at h
    obtain ⟨⟨r, s₁⟩, hitem, h⟩ := bind_eq_ok.mp h
    dsimp only at h
    obtain ⟨⟨rs, s₂⟩, hrest, hret⟩ := bind_eq_ok.mp h
    cases hret
    obtain ⟨hpath, hag₁⟩ := confirmImportItem_path (first :: rest) hwf h₀ hag
      (fun _ => by simp) hitem
    have hwf₁ := hpath.wellFormed hwf
    rw [List.zip_cons_cons, List.mem_cons] at hmem
    rcases hmem with heq | hmem
    · obtain ⟨rfl, rfl⟩ := Prod.mk.inj heq
      have htail := confirmImportItems_path (item :: rest) h₀
        (fun it hit _ => List.mem_cons_of_mem _ hit) hwf₁ hag₁ hrest
      exact htail.1.places (confirmImportItem_places hitem hc)
    · exact ih hwf₁ hag₁ hrest item res c hmem hc

/-- An import shows nothing that was not shown before. -/
lemma import_held_iff {now : ℕ} (hwf : s.WellFormed) {record : PendingImport}
    {results : List ImportItemResult} (hrec : findPendingImport s input = some record)
    (h : confirmCredentialImport s now input = .ok (.ok results, s')) (c : ℕ) (content : Content) :
    (Held s' c content ↔ Held s c content) ∧
      ∀ item res, (item, res) ∈ record.items.zip results → res.credentialId = some c →
        s'.Places ⟨c, input.projectId⟩ := by
  rw [confirmCredentialImport, hrec] at h
  dsimp only at h
  split at h
  · simp at h
  · obtain ⟨⟨rs, s₁⟩, hitems, hret⟩ := bind_eq_ok.mp h
    cases hret
    have hag₀ : Agrees s s := ⟨le_rfl, fun _ => rfl, fun _ => rfl⟩
    have hag := (confirmImportItems_path record.items hwf
      (fun _ hit _ => hit) hwf hag₀ hitems).2
    refine ⟨?_, fun item res hmem hc => ?_⟩
    · rw [Held, Held, show selectCurrentVersionMeta s c = (s.slice c).served from rfl, ← hag.served c]
      rfl
    · exact confirmImportItems_places hwf hwf hag₀ hitems item res c hmem hc

lemma breakGlass_held {now : ℕ} (hwf : s.WellFormed) (hs : ∀ c, (s.slice c).Sound now)
    {locked rowLock : Bool} {input : BreakGlassInput} {rot : Rotation} {sup : Option ℕ} {prev t : ℕ}
    {deps : List CredentialDependency}
    (h : breakGlassRotation s now locked rowLock input = .ok (.ok rot sup prev t deps false, s')) :
    s'.Places ⟨input.credentialId, input.projectId⟩ ∧
      Held s' input.credentialId (.value input.newValue) := by
  have hpath := breakGlass_path hwf (fun _ _ _ => True) (fun _ _ _ _ => trivial) h
  rcases breakGlassRotation_ok h with ⟨-, hne⟩ | ⟨s₁, sup', hplace, hsup, hinst⟩
  · exact absurd rfl (hne rot sup prev t deps)
  · refine ⟨hpath.places hplace, ?_⟩
    obtain ⟨p, row, s₂, rot', hp, hrow, hrot, -⟩ := installBreakGlass_ok hinst
    have hwf₁ := supersedeActiveRotation_wellFormed hwf hsup
    obtain ⟨hpmem, hpc⟩ := mem_versionsOf.mp (List.mem_of_mem_filter (List.argmax_mem hp))
    have hlt : input.credentialId < s₁.nextId := hpc ▸ (hwf₁.versions_fresh p hpmem).2
    obtain ⟨hwf', hnext, hslice, -, -⟩ := insert_linked hwf₁ hrow hrot (fun _ => rfl) hlt rfl hp
      rfl rfl rfl
    obtain ⟨hrow', -⟩ := insertVersion_ok hrow
    dsimp only at hnext hslice
    have hprom : row.promotedAt = some now := by
      rw [hrow']
      rfl
    have hmem := fun x => (hwf₁.slice input.credentialId).mem_install (x := x)
      (mem_slice_versions.mpr ⟨hpmem, hpc⟩) hnext
      (f := fun v => { v with rotationLockedAt := some now,
                              breakGlassOverlapExpiresAt :=
                                some (now + input.overlapMinutes * 60000) })
    refine held_of_latest hwf' (hpath.sound hwf hs _) row ?_ (hnext.servable hprom) hprom
      (fun v hv => ?_) ⟨encryptValue input.newValue, ?_, ?_⟩
    · rw [hslice]
      exact (hmem row).mpr (.inr (.inr rfl))
    · rw [hslice] at hv
      rcases (hmem v).mp hv with ⟨hv, -⟩ | rfl | rfl
      · exact le_of_lt (hnext.number_lt v hv)
      · exact le_of_lt (hnext.number_lt p (mem_slice_versions.mpr ⟨hpmem, hpc⟩))
      · exact le_rfl
    · rw [hrow']
      rfl
    · rw [hrow']
      rfl

/-- Promoting a rotation shows what it stored when it began, or leaves what was
shown before. -/
lemma promote_held_iff {v₀ v : VaultState} {now₀ now : ℕ} {locked₀ locked : Bool}
    {input : InitiateRotationInput} {rot r : Rotation} {items items' : List ChecklistItem}
    {a b a' : Bool} {s₁ : Store} {n : CredentialVersion} {params : RotationParams}
    {ack : Acknowledgement} {pending : ℕ} {content : Content} (hwf₀ : v₀.store.WellFormed)
    (hs : ∀ c, (v.store.slice c).Sound now)
    (hinit : initiateRotation rt v₀.store now₀ locked₀ input = .ok (.initiated rot items a b, s₁))
    (hn : n ∈ s₁.versions) (hid : n.id = rot.newVersionId) (hcontent : n.Contains content)
    (hsteps : (vault rt).Steps (fun _ _ => True) ⟨s₁, now₀⟩ v)
    (h : promoteRotation v.store now locked params ack = (.promoted r items' a' pending, s'))
    (hr : r.id = rot.id) :
    s'.Places ⟨input.credentialId, input.projectId⟩ ∧
      (Held s' input.credentialId content ↔
        Effective v.store now input.credentialId (.promote rot.newVersionId) ∨
          Held v.store input.credentialId content) := by
  rcases initiateRotation_ok hinit with ⟨-, href⟩ | ⟨p, preflight, hplace, hp, -, hstage⟩
  · simp [InitiateRotationResult.isRefusal] at href
  have hwf₁ := (micro_stage hwf₀ hplace hp hstage).wellFormed
  obtain ⟨fields, row, s₂, rot', s₃, -, hrow, hrot, items'', hres, hs₁⟩ := stageRotation_ok hstage
  cases hres
  obtain ⟨hrot', hs₃, -⟩ := insertRotation_ok hrot
  obtain ⟨hrow', hs₂⟩ := insertVersion_ok hrow
  have hrotc : rot.credentialId = input.credentialId := by
    rw [hrot']
    rfl
  have hrotmem : rot ∈ s₁.rotations := by
    rw [hs₁, hs₃]
    simp
  obtain ⟨-, -, n', hn', -, hn'id, -, hn'c, -⟩ := hwf₁.rotations_linked rot hrotmem
  obtain rfl := hwf₁.version_eq hn' hn (hn'id.trans hid.symm)
  have hnslice : n' ∈ (s₁.slice input.credentialId).versions :=
    mem_slice_versions.mpr ⟨hn, hn'c.trans hrotc⟩
  -- the rotation and the secret of its version survive until the promotion
  obtain ⟨hwf, ⟨l, hl, hlid, -, hlnew⟩, x, hx, hxid, hxsv, hxenc⟩ := steps_slice_invariant
    (I := fun σ => σ.Links rot.link ∧ σ.StoresRow n')
    (fun _ _ _ _ hI hst => ⟨hI.1.step hst, hI.2.step hst⟩) hsteps hwf₁ (c := input.credentialId)
    ⟨⟨rot.link, mem_slice_rotations.mpr ⟨rot, hrotmem, hrotc, rfl⟩, rfl, rfl, rfl⟩,
      n', hnslice, rfl, rfl, fun _ => rfl⟩
  have hplace₁ : s₁.Places ⟨input.credentialId, input.projectId⟩ := by
    rw [Store.Places, hs₁, hs₃, hs₂]
    exact hplace
  have hplace' := steps_places hsteps hwf₁ hplace₁
  have hpath := apply_path rt hwf now (.promote locked params ack)
  rw [Op.apply, h] at hpath
  refine ⟨hpath.places hplace', ?_⟩
  have hwf' := hpath.wellFormed hwf
  obtain ⟨q, hq, hqc, rfl⟩ := mem_slice_rotations.mp hl
  rcases promoteRotation_cases hwf now locked params ack with
    ⟨-, hmoved⟩ | ⟨r', hfind, -, hmoved, hstore⟩
  · rw [h] at hmoved
    simp [TransitionResult.moved] at hmoved
  rw [h] at hmoved hstore
  dsimp only at hstore
  have hr'id : r'.id = r.id := by
    rw [Option.some.inj hmoved]
    rfl
  obtain rfl := hwf.rotation_eq (findRotationInScope_mem hfind).1 hq
    (hr'id.trans (hr.trans hlid.symm))
  have hnew : r'.newVersionId = x.id := hlnew.trans (hid.symm.trans hxid.symm)
  have hslice : (s'.slice input.credentialId).versions =
      ((v.store.slice input.credentialId).promoteVersion now x.id).versions := by
    rw [← hnew]
    calc (s'.slice input.credentialId).versions
        = ((v.store.updateVersion r'.newVersionId fun w =>
            { w with promotedAt := some now }).slice input.credentialId).versions := by
          rw [hstore]
          rfl
      _ = _ := congrArg Slice.versions (slice_updateVersion _ _ _ fun _ => rfl)
  have hwfc := hwf.slice input.credentialId
  by_cases hlead : (v.store.slice input.credentialId).Leads now x
  · refine iff_of_true ⟨_, (Slice.served_eq_some_iff (hwf'.slice _)).mpr
      (hlead.serves hwfc (hs _) hx hslice), ?_⟩ (.inl ⟨x, hx, hxid.trans hid, hlead⟩)
    obtain ⟨e, he, hsecret⟩ := hcontent
    exact ⟨e, (hxenc (Slice.isLive_iff.mp hlead.1).1).trans he, by
      rw [hxsv]
      exact hsecret⟩
  · have hsame : selectCurrentVersionMeta s' input.credentialId =
        selectCurrentVersionMeta v.store input.credentialId :=
      Slice.served_of_not_leads hlead hwfc (hs _) hx (hwf'.slice _) hslice
    rw [Held, hsame]
    refine ⟨fun hheld => .inr hheld, fun hor => hor.resolve_left ?_⟩
    rintro ⟨m, hm, hmid, hmlead⟩
    rw [hwfc.version_eq hm hx (hmid.trans (hid.symm.trans hxid.symm))] at hmlead
    exact hlead hmlead

/-- A project with one staged import entry. -/
def stagedImportRun : List Timed :=
  [⟨1, .environment [⟨100, 9, none⟩] [⟨9, 7, "active"⟩] []⟩,
   ⟨2, .stageImport ⟨9, 100, [("db", "secret")]⟩⟩]

/-- The confirmation of that import as a new credential. -/
def createNewInput : ConfirmImportInput := ⟨9, 100, 7, 1, .createNew, []⟩

/-- The confirmation reports a new credential, and a reveal of it finds nothing. -/
def confirmsUnseen (s : Store) : Bool :=
  match findPendingImport s createNewInput, confirmCredentialImport s 3 createNewInput with
  | some record, .ok (.ok results, s') =>
    decide (record.items.zip results =
        [(⟨"db", encryptValue (importFieldEnvelope "secret"), 1, none, .createNew⟩,
          ⟨"db", .createNew, some 2⟩)] ∧
      revealCurrentValue s' ⟨2, 100⟩ none = .ok .allVersionsPurged)
  | _, _ => false

end ProjectVault
