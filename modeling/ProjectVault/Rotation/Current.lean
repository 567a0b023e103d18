import ProjectVault.Rotation.Servable
import ProjectVault.Rotation.Retention

/-!
The four notions of a current version coincide, as long as nothing is imported and
no promotion overtakes a version numbered above it.
-/

namespace ProjectVault

open Js

variable {e : EncryptedValue} {rt : Runtime}

namespace Slice

variable {σ : Slice} {now : ℕ}
variable {l₀ : RotationLink}

/-- The readable versions were promoted in the order of their numbers. -/
def InOrder (σ : Slice) : Prop :=
  ∀ v ∈ σ.versions, ∀ w ∈ σ.versions, v.isServable = true → w.isServable = true →
    v.versionNumber ≤ w.versionNumber → v.currentKey ≤ w.currentKey

lemma versionNumber_eq_of_currentKey {v w : CredentialVersion} (h : v.currentKey = w.currentKey) :
    v.versionNumber = w.versionNumber := by
  have hsnd := congrArg (fun k => (ofLex k).2) h
  simpa [CredentialVersion.currentKey] using hsnd

/-- Changes in place that keep the readers' order and make nothing readable. -/
lemma InOrder.update (h : σ.InOrder) {p : CredentialVersion → Bool}
    {f : CredentialVersion → CredentialVersion} {r : List RotationLink}
    (hkey : ∀ v, (f v).currentKey = v.currentKey)
    (hserv : ∀ v, (f v).isServable = true → v.isServable = true) :
    InOrder ⟨Db.updateWhere p f σ.versions, r⟩ := by
  have hsrc : ∀ x ∈ Db.updateWhere p f σ.versions, x.isServable = true →
      ∃ v ∈ σ.versions, v.isServable = true ∧ x.currentKey = v.currentKey := fun x hx hxs => by
    obtain ⟨v, hv, rfl⟩ := Db.mem_updateWhere.mp hx
    split at hxs
    · rename_i hp
      exact ⟨v, hv, hserv v hxs, by rw [if_pos hp, hkey]⟩
    · rename_i hp
      exact ⟨v, hv, hxs, by rw [if_neg hp]⟩
  intro x hx y hy hxs hys hle
  obtain ⟨v, hv, hvs, hxv⟩ := hsrc x hx hxs
  obtain ⟨w, hw, hws, hyw⟩ := hsrc y hy hys
  rw [versionNumber_eq_of_currentKey hxv, versionNumber_eq_of_currentKey hyw] at hle
  rw [hxv, hyw]
  exact h v hv w hw hvs hws hle

/-- A new version, readable from now on or not at all. -/
lemma InOrder.push (h : σ.InOrder) (hs : σ.Sound now) {row : CredentialVersion}
    (hrow : σ.Next row) (hp : row.promotedAt = none ∨ row.promotedAt = some now) :
    (σ.push row).InOrder := by
  intro v hv w hw hvs hws hle
  rcases mem_push.mp hv with hv' | rfl
  · rcases mem_push.mp hw with hw' | rfl
    · exact h v hv' w hw' hvs hws hle
    · obtain ⟨t, ht⟩ := Option.ne_none_iff_exists'.mp (isServable_iff.mp hvs).2.2
      have hp := hp.resolve_left (isServable_iff.mp hws).2.2
      rw [currentKey_le_iff ht hp]
      rcases Nat.lt_or_eq_of_le ((hs v hv').2 t ht) with hlt | heq
      · exact .inl hlt
      · exact .inr ⟨heq, hle⟩
  · rcases mem_push.mp hw with hw' | rfl
    · have := hrow.number_lt w hw'
      omega
    · exact le_rfl

/-- The promotion of `id` overtakes no readable version numbered above it. -/
def Unovertaken (now : ℕ) (σ : Slice) (id : ℕ) : Prop :=
  ∀ n ∈ σ.versions, n.id = id → n.purgedAt = none → ∀ w ∈ σ.versions, w.isServable = true →
    n.versionNumber < w.versionNumber → w.promotedAt = some now

lemma InOrder.promote (h : σ.InOrder) (hs : σ.Sound now) (hwf : σ.WellFormed) {l : RotationLink}
    (hl : l ∈ σ.rotations) (hun : σ.Unovertaken now l.newVersionId) :
    ((σ.setStatus l.id .promoted).updateVersion l.newVersionId fun v =>
      { v with promotedAt := some now }).InOrder := by
  obtain ⟨-, -, n, hn, -, hnid, -⟩ := hwf.rotations_linked l hl
  rw [← hnid] at hun ⊢
  have hmem := fun x => hwf.mem_update (x := x) (setStatus_versions σ l.id .promoted) hn
    (f := fun v => { v with promotedAt := some now })
  intro v hv w hw hvs hws hle
  rcases (hmem v).mp hv with ⟨hv, -⟩ | rfl
  · rcases (hmem w).mp hw with ⟨hw, -⟩ | rfl
    · exact h v hv w hw hvs hws hle
    · -- the promoted version comes after everything readable so far
      obtain ⟨t, ht⟩ := Option.ne_none_iff_exists'.mp (isServable_iff.mp hvs).2.2
      rw [currentKey_le_iff ht rfl]
      rcases Nat.lt_or_eq_of_le ((hs v hv).2 t ht) with hlt | heq
      · exact .inl hlt
      · exact .inr ⟨heq, hle⟩
  · rcases (hmem w).mp hw with ⟨hw, hwn⟩ | rfl
    · have hlt : n.versionNumber < w.versionNumber := by
        refine lt_of_le_of_ne hle fun he => hwn ?_
        rw [hwf.eq_of_number hw hn he.symm]
      have hwp := hun n hn rfl (isServable_iff.mp hvs).1 w hw hws hlt
      rw [currentKey_le_iff rfl hwp]
      exact .inr ⟨rfl, hle⟩
    · exact le_rfl

/-- The changes that keep the order. -/
def Ordered (now : ℕ) (σ : Slice) : Change → Prop
  | .imported => False
  | .promote id => σ.Unovertaken now id
  | _ => True

lemma currentKey_purgeUnlessPurged (now : ℕ) (v : CredentialVersion) :
    (purgeUnlessPurged now v).currentKey = v.currentKey := by
  unfold purgeUnlessPurged
  split <;> rfl

lemma servable_of_purgeUnlessPurged {now : ℕ} {v : CredentialVersion}
    (h : (purgeUnlessPurged now v).isServable = true) : v.isServable = true := by
  unfold purgeUnlessPurged at h
  split at h
  · simp [isServable_iff] at h
  · exact h

/-- **Step lemma**: every change but an overtaking promotion keeps the order. -/
lemma InOrder.step {σ' : Slice} {k : Change} (h : σ.InOrder) (hs : σ.Sound now)
    (hwf : σ.WellFormed) (hk : σ.Ordered now k) (hstep : Step now σ k σ') : σ'.InOrder := by
  cases hstep with
  | edit hrow hp => exact h.push hs hrow (.inr hp)
  | imported => exact absurd hk id
  | stage _ _ hrow hp =>
    refine (h.push hs hrow (.inl hp)).update (fun v => ?_) fun v hv => ?_
    · rfl
    · exact hv
  | promote hl => exact h.promote hs hwf hl hk
  | retire => exact h.update (currentKey_purgeUnlessPurged now) fun _ => servable_of_purgeUnlessPurged
  | complete =>
    refine h.update (fun v => ?_) fun v hv => ?_
    · rfl
    · exact hv
  | resume => exact h
  | recover => exact h
  | abandon =>
    refine (h.update (r := []) (fun v => ?_) fun v hv => ?_).update (fun v => ?_) fun v hv => ?_
    · rfl
    · simp [isServable_iff] at hv
    · rfl
    · exact hv
  | breakGlass _ _ hrow hp =>
    refine (h.push hs hrow (.inr hp)).update (fun v => ?_) fun v hv => ?_
    · rfl
    · exact hv
  | expire id =>
    refine h.update (fun v => ?_) fun v hv => ?_
    · rfl
    · exact hv
  | prune k =>
    refine h.update (fun v => ?_) fun v hv => ?_
    · rfl
    · simp [isServable_iff, CredentialVersion.purge] at hv

/-- The head of an ordered history is served. -/
lemma InOrder.serves (h : σ.InOrder) {hd : CredentialVersion} (hhd : σ.Holds hd) :
    σ.Serves hd :=
  ⟨hhd.mem, hhd.servable, fun v hv hvs => h v hv hd hhd.mem hvs hhd.servable
    (hhd.highest v hv hvs)⟩

/-- With no rotation active, a rotation would supersede the served version. -/
lemma InOrder.lockTarget_eq_served (h : σ.InOrder) (hk : σ.Kept) (hwf : σ.WellFormed)
    (hq : σ.Quiet) : σ.lockTarget = σ.served := by
  rcases hk with rfl | ⟨hd, hhd⟩
  · rfl
  · rw [(served_eq_some_iff hwf).mpr (h.serves hhd)]
    cases hp : σ.lockTarget with
    | none =>
      have hmem : hd ∈ σ.versions.filter CredentialVersion.isLive :=
        List.mem_filter.mpr ⟨hhd.mem, live_of_servable hhd.servable⟩
      rw [List.argmax_eq_none.mp hp] at hmem
      simp at hmem
    | some p => rw [hhd.lockTarget_eq hwf hq hp]

/-- The history has the rotation `l₀`, whatever its status. -/
def Links (σ : Slice) (l₀ : RotationLink) : Prop :=
  ∃ l ∈ σ.rotations, l.id = l₀.id ∧ l.previousVersionId = l₀.previousVersionId ∧
    l.newVersionId = l₀.newVersionId

lemma Links.setStatus (h : σ.Links l₀) (id : ℕ) (status : RotationStatus) :
    (σ.setStatus id status).Links l₀ := by
  obtain ⟨l, hl, hlink⟩ := h
  by_cases hr : l.id = id
  · exact ⟨{ l with status }, mem_setStatus.mpr (.inr ⟨l, hl, hr, rfl⟩), hlink⟩
  · exact ⟨l, mem_setStatus.mpr (.inl ⟨hl, hr⟩), hlink⟩

lemma Links.pushRotation (h : σ.Links l₀) (link : RotationLink) :
    (σ.pushRotation link).Links l₀ := by
  obtain ⟨l, hl, hlink⟩ := h
  exact ⟨l, mem_pushRotation.mpr (.inl hl), hlink⟩

lemma Links.step {σ' : Slice} {k : Change} (h : σ.Links l₀) (hstep : Step now σ k σ') :
    σ'.Links l₀ := by
  cases hstep with
  | edit => exact h
  | imported => exact h
  | stage => exact Links.pushRotation h _
  | promote => exact h.setStatus _ _
  | retire => exact h.setStatus _ _
  | complete => exact h.setStatus _ _
  | resume => exact h.setStatus _ _
  | recover => exact h.setStatus _ _
  | abandon => exact h.setStatus _ _
  | breakGlass => exact Links.pushRotation h _
  | expire => exact h
  | prune => exact h

end Slice

/-! ### Runs -/

/-- The staged rotation a promotion moves. -/
def Op.promotes (s : Store) : Op → List Rotation
  | .promote _ params _ =>
    ((findRotationInScope s params).filter fun r => r.status = .staged).toList
  | _ => []

instance (now : ℕ) (σ : Slice) (id : ℕ) : Decidable (σ.Unovertaken now id) :=
  inferInstanceAs (Decidable (∀ n ∈ σ.versions, _))

/-- Transactions that write no imported item and promote no version below a
readable one that was promoted before. -/
def KeepsOrder (v : VaultState) (t : Timed) : Prop :=
  NoImport v t ∧ ∀ r ∈ t.op.promotes v.store,
    (v.store.slice r.credentialId).Unovertaken t.now r.newVersionId

instance (v : VaultState) (t : Timed) : Decidable (KeepsOrder v t) :=
  inferInstanceAs (Decidable (_ ∧ _))

lemma KeepsOrder.ordered {v : VaultState} {t : Timed} {s : Store} {c : ℕ} {k : Slice.Change}
    (h : KeepsOrder v t) (he : t.op.Emits v.store t.now s c k) :
    (s.slice c).Ordered t.now k := by
  have hk := h.1.ne_imported he
  obtain ⟨now, op⟩ := t
  cases op with
  | promote locked params ack =>
    obtain ⟨r, hfind, hst, rfl, rfl, rfl⟩ := he
    exact h.2 r (by simp [Op.promotes, hfind, hst])
  | createCredential input =>
    obtain ⟨rfl, -⟩ := he
    trivial
  | addVersion input =>
    obtain ⟨rfl, -⟩ := he
    trivial
  | confirmImport input => exact absurd he.1 hk
  | _ => cases k <;> trivial

/-- **Run lemma**: in admitted runs every history has a readable head and was
promoted in order. -/
lemma reachable_inOrder {v : VaultState} (h : (vault rt).Reaches KeepsOrder v) :
    v.store.WellFormed ∧ ∀ c, (v.store.slice c).InOrder ∧ (v.store.slice c).Kept := by
  have hkept := reachable_kept (Run.System.Steps.mono (fun _ _ hok => hok.1) h)
  obtain ⟨hwf, hI⟩ := slice_invariant (I := fun t σ => σ.InOrder ∧ σ.Sound t)
    (G := fun now σ k => σ.Ordered now k)
    ⟨fun v hv => by simp [Slice.empty] at hv, fun v hv => by simp [Slice.empty] at hv⟩
    (fun _ _ _ ht hI => ⟨hI.1, hI.2.mono ht⟩) (fun _ _ hok _ _ _ he => hok.ordered he)
    (fun _ _ _ _ hwf _ hI hk hst => ⟨hI.1.step hI.2 hwf hk hst, hI.2.step hst⟩) h
  exact ⟨hwf, fun c => ⟨(hI c).1, hkept c⟩⟩

/-! ### What a rotation supersedes -/

/-- Fields `new` with the keys of `old`, those not targeted with their values. -/
def Carries (rt : Runtime) (targets : List String) (old new : List Field) : Prop :=
  List.Forall₂ (fun f g => g.key = f.key ∧
    (normalizeFieldKey rt f.key ∉ targets → g.value = f.value)) old new

/-- The stored fields of the version `n` carry over those of the version `sv`. -/
def CarriesFields (rt : Runtime) (targets : List String) (sv n : CredentialVersion) : Prop :=
  ∃ e e' old new, sv.encryptedValue = some e ∧ n.encryptedValue = some e' ∧
    parseFieldsFromPlaintext sv.schemaVersion (withSecret e) = .ok old ∧
    parseFieldsFromPlaintext n.schemaVersion (withSecret e') = .ok new ∧ Carries rt targets old new

/-- Whatever happens after `w`, retiring the rotation purges the version `id` and
no other. -/
def RetiresOnly (rt : Runtime) (w : VaultState) (rotationId id : ℕ) : Prop :=
  ∀ v, (vault rt).Steps (fun _ _ => True) w v → ∀ now locked params ack r items a n s',
    retireRotation v.store now locked params ack = (.retired r items a n, s') → r.id = rotationId →
      (∀ x, Purges v.store s' x → x = id) ∧ ∃ x ∈ s'.versions, x.id = id ∧ x.purgedAt ≠ none

lemma purgedAt_purgeUnlessPurged (now : ℕ) (v : CredentialVersion) :
    (purgeUnlessPurged now v).purgedAt ≠ none := by
  unfold purgeUnlessPurged
  split
  · simp
  · assumption

lemma retiresOnly_of_links {w : VaultState} (hwf : w.store.WellFormed) {c : ℕ} (l₀ : RotationLink)
    (hl : (w.store.slice c).Links l₀) :
    RetiresOnly rt w l₀.id l₀.previousVersionId := by
  intro v hsteps now locked params ack r items a n s' hret hrid
  obtain ⟨hwf', l, hl', hlid, hlprev, -⟩ := steps_slice_invariant
    (I := fun σ => σ.Links l₀) (fun _ _ _ _ hI hst => hI.step hst) hsteps hwf hl
  obtain ⟨q, hq, -, rfl⟩ := mem_slice_rotations.mp hl'
  rcases retireRotation_cases hwf' now locked params ack with
    ⟨-, hmoved⟩ | ⟨r', hfind, -, hmoved, hs'⟩
  · rw [hret] at hmoved
    simp [TransitionResult.moved] at hmoved
  · rw [hret] at hmoved hs'
    have hr'id : r'.id = r.id := by
      have := Option.some.inj hmoved
      rw [this]
      rfl
    obtain rfl := hwf'.rotation_eq (findRotationInScope_mem hfind).1 hq
      (hr'id.trans (hrid.trans hlid.symm))
    rw [← hlprev]
    dsimp only [Rotation.link] at hs' ⊢
    have hv : s'.versions = Db.updateWhere (fun v => v.id = r'.previousVersionId)
        (purgeUnlessPurged now) v.store.versions := by
      rw [hs']
      rfl
    obtain ⟨p, hp, m, -, hpid, -⟩ := hwf'.rotations_linked r' hq
    refine ⟨fun x hx => ?_, ?_⟩
    · obtain ⟨⟨y, hy, hyid, hyp⟩, z, hz, hzid, hzp⟩ := hx
      rw [hv] at hz
      obtain ⟨u, hu, rfl⟩ := Db.mem_updateWhere.mp hz
      by_cases hup : u.id = r'.previousVersionId
      · rw [if_pos (by simpa using hup)] at hzid
        rw [← hzid, ← hup]
        exact congrArg Prod.fst (shape_purgeUnlessPurged now u)
      · rw [if_neg (by simpa using hup)] at hzid hzp
        rw [hwf'.version_eq hu hy (hzid.trans hyid.symm)] at hzp
        exact absurd hyp hzp
    · refine ⟨purgeUnlessPurged now p, ?_, ?_, purgedAt_purgeUnlessPurged now p⟩
      · rw [hv]
        exact Db.mem_updateWhere.mpr ⟨p, hp, by rw [if_pos (by simpa using hpid)]⟩
      · exact (congrArg Prod.fst (shape_purgeUnlessPurged now p)).trans hpid

lemma carries_snapshot (rt : Runtime) (targets : List String) (newValue : String)
    (fieldValues : Option (List (String × String))) (old : List Field) :
    Carries rt targets old
      ((old.map (snapshotField rt targets newValue fieldValues)).map Field.stored) := by
  rw [Carries, List.map_map, List.forall₂_map_right_iff, List.forall₂_same]
  intro f _
  by_cases hf : normalizeFieldKey rt f.key ∈ targets
  · exact ⟨by simp [snapshotField, hf, Field.stored], fun hn => absurd hf hn⟩
  · simp [snapshotField, hf, Field.stored]

/-- A field-scoped rotation stores the fields of the version it supersedes, the
targeted ones replaced. -/
lemma buildNewVersionInsertFields_carries {p : CredentialVersion} (he : p.encryptedValue = some e)
    {targets : List String} {newValue : String} {fieldValues : Option (List (String × String))}
    {fields : NewVersionFields}
    (h : buildNewVersionInsertFields rt p (some (withSecret e)) (some targets) newValue fieldValues =
      .ok fields) {n : CredentialVersion} (hn : n.encryptedValue = some fields.encryptedValue)
    (hsv : n.schemaVersion = fields.schemaVersion.getD 1) : CarriesFields rt targets p n := by
  rw [buildNewVersionInsertFields, bind_eq_ok] at h
  obtain ⟨snapshot, hsnap, hret⟩ := h
  simp only [pure, Except.pure, Except.ok.injEq] at hret
  rw [buildFieldScopedSnapshot, bind_eq_ok] at hsnap
  obtain ⟨old, hold, hsnap⟩ := hsnap
  simp only [pure, Except.pure, Except.ok.injEq] at hsnap
  subst hret hsnap
  refine ⟨e, _, old, _, he, hn, hold, ?_, carries_snapshot rt targets newValue fieldValues old⟩
  rw [hsv, parseFieldsFromPlaintext, if_neg (by simp)]
  exact parseEnvelope_serializeFieldEnvelope _

/-- What `initiateRotation` supersedes and stores. -/
lemma stageRotation_supersedes {s s' : Store} {now : ℕ} (h : s.WellFormed)
    {input : InitiateRotationInput} {p : CredentialVersion} {preflight : Preflight}
    {res : InitiateRotationResult} (hp : p ∈ s.versions) (he : p.encryptedValue = some e)
    (hplain : preflight.previousPlaintext = some (withSecret e))
    (hstage : stageRotation rt s now input p preflight = .ok (res, s')) :
    ∃ rot items n, res = .initiated rot items preflight.sameValueAsPrevious
        preflight.sameValueConfirmed ∧
      rot ∈ s'.rotations ∧ rot.credentialId = input.credentialId ∧ rot.previousVersionId = p.id ∧
      n ∈ s'.versions ∧ n.id = rot.newVersionId ∧
      ∀ targets, rot.targetFields = some targets → CarriesFields rt targets p n := by
  obtain ⟨fields, row, s₁, rot, s₂, hfields, hrow, hrot, items, hres, rfl⟩ :=
    stageRotation_ok hstage
  obtain ⟨hrow', rfl⟩ := insertVersion_ok hrow
  obtain ⟨hrot', rfl, -⟩ := insertRotation_ok hrot
  refine ⟨rot, items, row, hres, by simp, by rw [hrot']; rfl, by rw [hrot']; rfl, ?_,
    by rw [hrot']; rfl, fun targets htargets => ?_⟩
  · refine Db.mem_updateWhere.mpr ⟨row, by simp, if_neg ?_⟩
    have hlt := (h.versions_fresh p hp).1
    simp only [decide_eq_true_eq]
    rw [hrow']
    exact Nat.ne_of_gt hlt
  · have htg : preflight.targets = some targets := by
      rw [hrot'] at htargets
      exact htargets
    rw [hplain, htg] at hfields
    exact buildNewVersionInsertFields_carries he hfields (by rw [hrow']; rfl) (by rw [hrow']; rfl)

/-- The promotion that overtook an edit, and its retirement. -/
def overtakenThenRetiredRun : List Timed :=
  editedThenPromotedRun ++ [⟨6, .retire true ⟨9, 100, 1, 4⟩ ⟨true, true⟩⟩]

/-- The version number a reveal reports. -/
def RevealResult.versionNumber : RevealResult → Option ℕ
  | .value _ versionNumber _ _ => some versionNumber
  | .fields _ _ versionNumber _ _ => some versionNumber
  | _ => none

/-- A reveal reports the number of the version it decrypts, unless it is asked for
a field that version does not have. -/
lemma revealVersion_versionNumber {s : Store} {version : CredentialVersion} {field : Option String}
    {res : RevealResult} (h : revealVersion s version e field = .ok res) :
    res.versionNumber = some version.versionNumber ∨
      (field ≠ none ∧ ∃ key, res = .unknownField key) := by
  rw [revealVersion] at h
  dsimp only at h
  split at h
  · rename_i key hinv
    simp only [Except.ok.injEq] at h
    refine .inr ⟨fun hf => ?_, key, h.symm⟩
    rw [hf] at hinv
    simp [invalidRequestedField] at hinv
  · obtain ⟨⟨fields, multi⟩, -, h⟩ := bind_eq_ok.mp h
    dsimp only at h
    split at h
    · obtain ⟨value, -, h⟩ := bind_eq_ok.mp h
      simp only [pure, Except.pure, Except.ok.injEq] at h
      exact .inl (by rw [← h]; rfl)
    · split at h
      · split at h
        · simp only [pure, Except.pure, Except.ok.injEq] at h
          exact .inr ⟨by simp, _, h.symm⟩
        · simp only [pure, Except.pure, Except.ok.injEq] at h
          exact .inl (by rw [← h]; rfl)
      · simp only [pure, Except.pure, Except.ok.injEq] at h
        exact .inl (by rw [← h]; rfl)

lemma historyCurrentVersionNumber_eq {σ : Slice} (hwf : σ.WellFormed) {sv : CredentialVersion}
    (hsv : σ.Serves sv) : historyCurrentVersionNumber
      (Db.sortDesc CredentialVersion.versionNumber σ.versions) = some sv.versionNumber := by
  rw [historyCurrentVersionNumber]
  cases hh : (Db.sortDesc CredentialVersion.currentKey
      ((Db.sortDesc CredentialVersion.versionNumber σ.versions).filter
        CredentialVersion.isServable)).head? with
  | none =>
    have hmem : sv ∈ Db.sortDesc CredentialVersion.currentKey
        ((Db.sortDesc CredentialVersion.versionNumber σ.versions).filter
          CredentialVersion.isServable) := by simp [hsv.mem, hsv.servable]
    rw [List.head?_eq_none_iff.mp hh] at hmem
    simp at hmem
  | some x =>
    obtain ⟨hx, hle⟩ := Db.head?_sortDesc _ hh
    simp only [List.mem_filter, Db.mem_sortDesc] at hx hle
    have hserves : σ.Serves x := ⟨hx.1, hx.2, fun v hv hvs => hle v ⟨hv, hvs⟩⟩
    rw [hserves.eq hwf hsv]
    rfl

/-- The number the list reports is the served one. -/
lemma listedVersionNumber_eq {s : Store} {c : ℕ} {hd : CredentialVersion}
    (hhd : (s.slice c).Holds hd) : listedVersionNumber s c = some hd.versionNumber := by
  rw [listedVersionNumber, List.max?_eq_some_iff]
  refine ⟨List.mem_map_of_mem (List.mem_filter.mpr ⟨hhd.mem, hhd.servable⟩), fun n hn => ?_⟩
  obtain ⟨v, hv, rfl⟩ := List.mem_map.mp hn
  obtain ⟨hmem, hvs⟩ := List.mem_filter.mp hv
  exact hhd.highest v hmem hvs

end ProjectVault
