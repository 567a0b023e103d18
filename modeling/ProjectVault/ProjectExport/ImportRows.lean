import ProjectVault.ProjectExport.Import

/-!
What an import inserts for the credentials, dependencies and rotations of a payload, and when the
database takes it.
-/

namespace ProjectVault.ProjectExport

open Js

variable {ctx : ImportContext} {target : ImportTarget}
variable {r : ExportRotation} {inserted : InsertedCredentials} {vs : List ExportVersion}
  {db result : Tables} {credentialId keyVersion : ℕ}

/-! ### Single statements -/

lemma checked_ok {α : Type} {table : String} {ok : Bool} {a b : α} :
    checked table ok a = .ok b ↔ ok = true ∧ b = a := by
  cases ok
  · simp [checked]
  · simp [checked, eq_comm]

lemma ok_iff {α : Type} {a b : α} : (Except.ok a : Except ImportError α) = .ok b ↔ b = a :=
  Except.ok.injEq a b ▸ eq_comm

/-- A date column takes the value. -/
def dateFits (ctx : ImportContext) : Option String → Bool
  | none => true
  | some s => s = "" || ((ctx.parseDate s).bind Timestamp.ofDate).isSome

/-- The point of time a date column gets. -/
def dateOf (ctx : ImportContext) : Option String → Option Timestamp
  | none => none
  | some s => if s = "" then none else (ctx.parseDate s).bind Timestamp.ofDate

lemma dateColumn_ok {s : Option String} {d : Option Timestamp} :
    dateColumn ctx s = .ok d ↔ dateFits ctx s = true ∧ d = dateOf ctx s := by
  cases s with
  | none => simp [dateColumn, dateFits, dateOf, eq_comm]
  | some s =>
    by_cases hs : s = ""
    · simp [dateColumn, dateFits, dateOf, hs, eq_comm]
    · simp only [dateColumn, dateFits, dateOf, hs, if_false, decide_false, Bool.false_or]
      cases hparse : ctx.parseDate s with
      | none => simp
      | some ms =>
        simp only [Option.bind_some]
        cases htime : Timestamp.ofDate ms with
        | none => simp
        | some t => simp [eq_comm]

/-! ### Versions -/

/-- The database takes the version. -/
def ExportVersion.fits (v : ExportVersion) : Bool :=
  v.versionNumber ≤ maxInteger && v.schemaVersion ≤ maxSmallint && storableJson v.fieldMeta

/-- The rows of the versions of a credential, numbered from `id`. -/
def versionRowsFrom (target : ImportTarget) (keyVersion credentialId : ℕ) :
    List ExportVersion → ℕ → List VersionRow
  | [], _ => []
  | v :: vs, id =>
    versionRow target keyVersion credentialId id v ::
      versionRowsFrom target keyVersion credentialId vs (id + 1)

/-- The ids by key after the versions of the `k`-th credential. -/
def versionIdsFrom (k : ℕ) : List ExportVersion → ℕ → VersionIds → VersionIds
  | [], _, ids => ids
  | v :: vs, id, ids => versionIdsFrom k vs (id + 1) (Function.update ids (k, v.versionNumber) (some id))

/-- The id of the version marked current. -/
def currentFrom (current : Option ℕ) : List ExportVersion → ℕ → Option ℕ → Option ℕ
  | [], _, found => found
  | v :: vs, id, found =>
    currentFrom current vs (id + 1) (if current = some v.versionNumber then some id else found)

lemma mem_versionRowsFrom {id : ℕ} {r : VersionRow} :
    r ∈ versionRowsFrom target keyVersion credentialId vs id ↔
      ∃ i, ∃ h : i < vs.length, r = versionRow target keyVersion credentialId (id + i) vs[i] := by
  induction vs generalizing id with
  | nil => simp [versionRowsFrom]
  | cons v vs ih =>
    rw [versionRowsFrom, List.mem_cons, ih]
    constructor
    · rintro (rfl | ⟨i, hi, rfl⟩)
      · exact ⟨0, by simp, rfl⟩
      · refine ⟨i + 1, by simpa using hi, ?_⟩
        rw [List.getElem_cons_succ, Nat.add_assoc, Nat.add_comm 1 i]
    · rintro ⟨i, hi, rfl⟩
      cases i with
      | zero => exact .inl rfl
      | succ i =>
        refine .inr ⟨i, by simpa using hi, ?_⟩
        rw [List.getElem_cons_succ, Nat.add_assoc, Nat.add_comm 1 i]

@[simp] lemma length_versionRowsFrom (keyVersion credentialId : ℕ) (vs : List ExportVersion)
    (id : ℕ) : (versionRowsFrom target keyVersion credentialId vs id).length = vs.length := by
  induction vs generalizing id with
  | nil => rfl
  | cons v vs ih => rw [versionRowsFrom, List.length_cons, List.length_cons, ih]

/-- The tables after the versions of a credential. -/
def Tables.withVersions (db : Tables) (rows : List VersionRow) : Tables :=
  { db with versions := db.versions ++ rows, nextId := db.nextId + rows.length }

/-- The versions of a credential go in exactly if each fits and no number occurs twice. -/
lemma insertCredentialVersions_ok {credential : ExportCredential} {k : ℕ} {current : Option ℕ}
    {ids : VersionIds} {result : Option ℕ × VersionIds × Tables} :
    insertCredentialVersions target credential credentialId k keyVersion vs current ids db =
        .ok result ↔
      ((∀ v ∈ vs, v.fits = true) ∧ (vs.map ExportVersion.versionNumber).Nodup ∧
        ∀ v ∈ vs, ∀ r ∈ db.versions, r.credentialId = credentialId →
          r.versionNumber ≠ v.versionNumber) ∧
      result = (currentFrom credential.currentVersionNumber vs db.nextId current,
        versionIdsFrom k vs db.nextId ids,
        db.withVersions (versionRowsFrom target keyVersion credentialId vs db.nextId)) := by
  induction vs generalizing current ids db with
  | nil =>
    simp only [insertCredentialVersions, currentFrom, versionIdsFrom, versionRowsFrom,
      Tables.withVersions, List.append_nil, List.length_nil, Nat.add_zero, Except.ok.injEq,
      List.not_mem_nil, false_implies, implies_true, List.map_nil, List.nodup_nil, and_self,
      true_and]
    exact eq_comm
  | cons v vs ih =>
    rw [insertCredentialVersions, bind_eq_ok]
    simp only [Tables.insertVersion, checked_ok, ih, Bool.and_eq_true, List.all_eq_true]
    constructor
    · rintro ⟨_, ⟨⟨hvalid, hfree⟩, rfl⟩, ⟨hfits, hnodup, hother⟩, rfl⟩
      refine ⟨⟨List.forall_mem_cons.2 ⟨hvalid, hfits⟩, ?_, ?_⟩, ?_⟩
      · rw [List.map_cons, List.nodup_cons]
        refine ⟨fun hmem => ?_, hnodup⟩
        obtain ⟨w, hw, heq⟩ := List.mem_map.1 hmem
        exact hother w hw _ (List.mem_append_right _ (List.mem_singleton_self _)) rfl heq.symm
      · intro w hw r hr hcred
        rcases List.mem_cons.1 hw with rfl | hw
        · have := hfree r hr
          simpa [versionRow, hcred] using this
        · exact hother w hw r (List.mem_append_left _ hr) hcred
      · simp [currentFrom, versionIdsFrom, versionRowsFrom, Tables.withVersions, Nat.add_assoc,
          Nat.add_comm 1]
    · rintro ⟨⟨hfits, hnodup, hother⟩, rfl⟩
      obtain ⟨hvalid, hfits⟩ := List.forall_mem_cons.1 hfits
      rw [List.map_cons, List.nodup_cons] at hnodup
      refine ⟨_, ⟨⟨hvalid, fun r hr => ?_⟩, rfl⟩, ⟨hfits, hnodup.2, ?_⟩, ?_⟩
      · by_cases hcred : r.credentialId = credentialId
        · have := hother v (by simp) r hr hcred
          simpa [versionRow, hcred] using this
        · simp [versionRow, hcred]
      · intro w hw r hr hcred
        rcases List.mem_append.1 hr with hr | hr
        · exact hother w (by simp [hw]) r hr hcred
        · obtain rfl := List.mem_singleton.1 hr
          intro heq
          exact hnodup.1 (List.mem_map.2 ⟨w, hw, heq.symm⟩)
      · simp [currentFrom, versionIdsFrom, versionRowsFrom, Tables.withVersions, Nat.add_assoc,
          Nat.add_comm 1]

/-! ### Credentials -/

/-- The columns of the credential satisfy the constraints. -/
def ExportCredential.columnsFit (c : ExportCredential) : Bool :=
  1 ≤ c.retentionCount && c.retentionCount ≤ maxInteger && storableText c.name &&
    storableText? c.description && c.tags.all storableText && storableText? c.rotationSchedule

/-- The database takes the credential with its versions. -/
def ExportCredential.fits (ctx : ImportContext) (c : ExportCredential) : Bool :=
  dateFits ctx c.expiresAt && c.columnsFit && c.versions.all ExportVersion.fits &&
    uniqueIn ExportVersion.versionNumber c.versions

/-- The keys the rows of a credential take. -/
def ExportCredential.span (c : ExportCredential) : ℕ := c.versions.length + 1

/-- The rows of the credentials, numbered from `id`. -/
def credentialRowsFrom (target : ImportTarget) : List ExportCredential → ℕ → List CredentialRow
  | [], _ => []
  | c :: cs, id =>
    { credentialRow target id c (dateOf target.ctx c.expiresAt) with
      currentVersionId := currentFrom c.currentVersionNumber c.versions (id + 1) none } ::
      credentialRowsFrom target cs (id + c.span)

/-- The rows of all versions. -/
def allVersionRowsFrom (target : ImportTarget) (keyVersion : ℕ) :
    List ExportCredential → ℕ → List VersionRow
  | [], _ => []
  | c :: cs, id =>
    versionRowsFrom target keyVersion id c.versions (id + 1) ++
      allVersionRowsFrom target keyVersion cs (id + c.span)

/-- The ids of the credentials. -/
def credentialIdsFrom : List ExportCredential → ℕ → List ℕ
  | [], _ => []
  | c :: cs, id => id :: credentialIdsFrom cs (id + c.span)

/-- The ids of all versions by key. -/
def allVersionIdsFrom : List ExportCredential → ℕ → ℕ → VersionIds → VersionIds
  | [], _, _, ids => ids
  | c :: cs, k, id, ids =>
    allVersionIdsFrom cs (k + 1) (id + c.span) (versionIdsFrom k c.versions (id + 1) ids)

/-- The next key after the credentials. -/
def afterCredentials : List ExportCredential → ℕ → ℕ
  | [], id => id
  | c :: cs, id => afterCredentials cs (id + c.span)

lemma le_afterCredentials (cs : List ExportCredential) (id : ℕ) : id ≤ afterCredentials cs id := by
  induction cs generalizing id with
  | nil => exact le_rfl
  | cons c cs ih => exact (Nat.le_add_right id c.span).trans (ih _)

@[simp] lemma length_credentialRowsFrom (cs : List ExportCredential) (id : ℕ) :
    (credentialRowsFrom target cs id).length = cs.length := by
  induction cs generalizing id with
  | nil => rfl
  | cons c cs ih => rw [credentialRowsFrom, List.length_cons, List.length_cons, ih]

@[simp] lemma length_credentialIdsFrom (cs : List ExportCredential) (id : ℕ) :
    (credentialIdsFrom cs id).length = cs.length := by
  induction cs generalizing id with
  | nil => rfl
  | cons c cs ih => rw [credentialIdsFrom, List.length_cons, List.length_cons, ih]

lemma length_allVersionRowsFrom (keyVersion : ℕ) (cs : List ExportCredential) (id : ℕ) :
    (allVersionRowsFrom target keyVersion cs id).length =
      (cs.map fun c => c.versions.length).sum := by
  induction cs generalizing id with
  | nil => rfl
  | cons c cs ih =>
    rw [allVersionRowsFrom, List.length_append, length_versionRowsFrom, List.map_cons,
      List.sum_cons, ih]

lemma mem_credentialIdsFrom_bounds {cs : List ExportCredential} {id i : ℕ}
    (h : i ∈ credentialIdsFrom cs id) : id ≤ i ∧ i < afterCredentials cs id := by
  induction cs generalizing id with
  | nil => simp [credentialIdsFrom] at h
  | cons c cs ih =>
    have hspan : 1 ≤ c.span := Nat.le_add_left 1 _
    have hafter := le_afterCredentials cs (id + c.span)
    rw [credentialIdsFrom, List.mem_cons] at h
    rw [afterCredentials]
    rcases h with rfl | h
    · omega
    · have := ih h
      omega

lemma nodup_credentialIdsFrom (cs : List ExportCredential) (id : ℕ) :
    (credentialIdsFrom cs id).Nodup := by
  induction cs generalizing id with
  | nil => exact List.nodup_nil
  | cons c cs ih =>
    rw [credentialIdsFrom, List.nodup_cons]
    refine ⟨fun hmem => ?_, ih _⟩
    have hspan : 1 ≤ c.span := Nat.le_add_left 1 _
    have := (mem_credentialIdsFrom_bounds hmem).1
    omega

/-- The tables after the credentials. -/
def Tables.withCredentials (db : Tables) (target : ImportTarget) (keyVersion : ℕ)
    (cs : List ExportCredential) : Tables :=
  { db with credentials := db.credentials ++ credentialRowsFrom target cs db.nextId,
            versions := db.versions ++ allVersionRowsFrom target keyVersion cs db.nextId,
            nextId := afterCredentials cs db.nextId }

/-- The update of the pointer meets the new row only. -/
lemma setCurrentVersion_withVersions {row : CredentialRow} {rows : List VersionRow}
    (hcredentials : ∀ c ∈ db.credentials, c.id < db.nextId) (hid : row.id = db.nextId)
    (hnone : row.currentVersionId = none) (current : Option ℕ) :
    ((db.withCredential row).withVersions rows).setCurrentVersion db.nextId current =
      { db with credentials := db.credentials ++ [{ row with currentVersionId := current }],
                versions := db.versions ++ rows, nextId := db.nextId + 1 + rows.length } := by
  cases current with
  | none => rw [Tables.setCurrentVersion, Tables.withVersions, Tables.withCredential, ← hnone]
  | some versionId =>
    have hkeep : Db.updateWhere (fun c : CredentialRow => c.id = db.nextId)
        (fun c => { c with currentVersionId := some versionId }) db.credentials =
          db.credentials :=
      Db.updateWhere_eq_self fun c hc hid =>
        absurd (of_decide_eq_true hid) (hcredentials c hc).ne
    simp only [Tables.setCurrentVersion, Tables.withVersions, Tables.withCredential,
      Db.updateWhere_append, hkeep]
    simp [Db.updateWhere, hid]

/-- One credential goes in exactly if it fits. -/
lemma insertOneCredential_ok {credential : ExportCredential}
    (hcredentials : ∀ c ∈ db.credentials, c.id < db.nextId)
    (hversions : ∀ v ∈ db.versions, v.credentialId < db.nextId)
    {result : InsertedCredentials × Tables} :
    insertOneCredential target keyVersion credential inserted db = .ok result ↔
      credential.fits target.ctx = true ∧
        result = ({ newCredentialIds := inserted.newCredentialIds ++ [db.nextId],
                    newVersionIdByKey := versionIdsFrom inserted.newCredentialIds.length
                      credential.versions (db.nextId + 1) inserted.newVersionIdByKey },
          db.withCredentials target keyVersion [credential]) := by
  simp only [insertOneCredential, bind_eq_ok, dateColumn_ok, Tables.insertCredential, checked_ok,
    insertCredentialVersions_ok]
  have hspan : db.nextId + 1 + credential.versions.length = db.nextId + credential.span := by
    rw [ExportCredential.span]
    omega
  have htables : ∀ current, ((db.withCredential
      (credentialRow target db.nextId credential (dateOf target.ctx credential.expiresAt))).withVersions
        (versionRowsFrom target keyVersion db.nextId credential.versions
          (db.nextId + 1))).setCurrentVersion db.nextId current = _ :=
    setCurrentVersion_withVersions hcredentials rfl rfl
  constructor
  · rintro ⟨_, ⟨hdate, rfl⟩, _, ⟨hvalid, rfl⟩, _, ⟨⟨hfits, hnodup, -⟩, rfl⟩, hresult⟩
    cases hresult
    refine ⟨?_, ?_⟩
    · simp only [ExportCredential.fits, Bool.and_eq_true, List.all_eq_true, uniqueIn,
        decide_eq_true_iff]
      exact ⟨⟨⟨hdate, hvalid⟩, hfits⟩, hnodup⟩
    · refine Prod.ext rfl ((htables _).trans ?_)
      simp [Tables.withCredentials, credentialRowsFrom, allVersionRowsFrom, afterCredentials, hspan,
        Tables.withCredential]
  · rintro ⟨hfits, rfl⟩
    simp only [ExportCredential.fits, Bool.and_eq_true, List.all_eq_true, uniqueIn,
      decide_eq_true_iff] at hfits
    obtain ⟨⟨⟨hdate, hvalid⟩, hversion⟩, hnodup⟩ := hfits
    refine ⟨_, ⟨hdate, rfl⟩, _, ⟨hvalid, rfl⟩, _, ⟨⟨hversion, hnodup, ?_⟩, rfl⟩, ?_⟩
    · intro v _ r hr hcred
      exact absurd hcred (hversions r hr).ne
    · refine congrArg Except.ok (Prod.ext rfl ((htables _).trans ?_))
      simp [Tables.withCredentials, credentialRowsFrom, allVersionRowsFrom, afterCredentials, hspan,
        Tables.withCredential]

lemma withCredentials_cons (db : Tables) (keyVersion : ℕ) (c : ExportCredential)
    (cs : List ExportCredential) :
    (db.withCredentials target keyVersion [c]).withCredentials target keyVersion cs =
      db.withCredentials target keyVersion (c :: cs) := by
  simp [Tables.withCredentials, credentialRowsFrom, allVersionRowsFrom, afterCredentials]

lemma mem_versionRowsFrom_credentialId {id : ℕ} {r : VersionRow}
    (h : r ∈ versionRowsFrom target keyVersion credentialId vs id) :
    r.credentialId = credentialId := by
  obtain ⟨i, hi, rfl⟩ := mem_versionRowsFrom.1 h
  rfl

/-- The credentials go in exactly if each of them fits. -/
lemma insertCredentialsFrom_ok {cs : List ExportCredential}
    (hcredentials : ∀ c ∈ db.credentials, c.id < db.nextId)
    (hversions : ∀ v ∈ db.versions, v.credentialId < db.nextId)
    {result : InsertedCredentials × Tables} :
    insertCredentialsFrom target keyVersion cs inserted db = .ok result ↔
      (∀ c ∈ cs, c.fits target.ctx = true) ∧
        result = ({ newCredentialIds := inserted.newCredentialIds ++ credentialIdsFrom cs db.nextId,
                    newVersionIdByKey := allVersionIdsFrom cs inserted.newCredentialIds.length
                      db.nextId inserted.newVersionIdByKey },
          db.withCredentials target keyVersion cs) := by
  induction cs generalizing inserted db with
  | nil =>
    simp only [insertCredentialsFrom, credentialIdsFrom, allVersionIdsFrom, Except.ok.injEq,
      Tables.withCredentials, credentialRowsFrom, allVersionRowsFrom, afterCredentials,
      List.append_nil, List.not_mem_nil, false_implies, implies_true, true_and]
    exact eq_comm
  | cons c cs ih =>
    have hspan : 1 ≤ c.span := Nat.le_add_left 1 _
    have hcredentials' : ∀ x ∈ (db.withCredentials target keyVersion [c]).credentials,
        x.id < db.nextId + c.span := by
      intro x hx
      rcases List.mem_append.1 hx with hx | hx
      · exact (hcredentials x hx).trans_le (Nat.le_add_right _ _)
      · obtain rfl := List.mem_singleton.1 hx
        show db.nextId < db.nextId + c.span
        omega
    have hversions' : ∀ v ∈ (db.withCredentials target keyVersion [c]).versions,
        v.credentialId < db.nextId + c.span := by
      intro v hv
      rcases List.mem_append.1 hv with hv | hv
      · exact (hversions v hv).trans_le (Nat.le_add_right _ _)
      · rw [allVersionRowsFrom, allVersionRowsFrom, List.append_nil] at hv
        rw [mem_versionRowsFrom_credentialId hv]
        omega
    rw [insertCredentialsFrom, bind_eq_ok]
    simp only [insertOneCredential_ok hcredentials hversions]
    constructor
    · rintro ⟨_, ⟨hfits, rfl⟩, hrun⟩
      obtain ⟨hrest, rfl⟩ := (ih hcredentials' hversions').1 hrun
      refine ⟨List.forall_mem_cons.2 ⟨hfits, hrest⟩, ?_⟩
      rw [withCredentials_cons]
      simp [credentialIdsFrom, allVersionIdsFrom, Tables.withCredentials, afterCredentials]
    · rintro ⟨hfits, rfl⟩
      obtain ⟨hfirst, hrest⟩ := List.forall_mem_cons.1 hfits
      refine ⟨_, ⟨hfirst, rfl⟩, (ih hcredentials' hversions').2 ⟨hrest, ?_⟩⟩
      rw [withCredentials_cons]
      simp [credentialIdsFrom, allVersionIdsFrom, Tables.withCredentials, afterCredentials]

/-! ### Dependencies -/

/-- The database takes the dependency. -/
def ExportDependency.fits (d : ExportDependency) : Bool :=
  charLengthBetween 1 256 d.systemName && charLengthAtMost? 2048 d.notes &&
    charLengthAtMost? 2048 d.linkUrl && storableText d.systemName && storableText? d.notes &&
    storableText? d.linkUrl && storableText? d.fieldKey

/-- The rows of the dependencies, numbered from `id`. -/
def dependencyRowsFrom (target : ImportTarget) (resolved : List (ℕ × ExportDependency)) (id : ℕ) :
    List DependencyRow :=
  resolved.mapIdx fun i p => dependencyRow target p.1 (id + i) p.2

lemma forall_mem_mapIdx {α β : Type} {f : ℕ → α → β} {l : List α} {p : β → Bool} {q : α → Bool}
    (hpq : ∀ i a, p (f i a) = q a) :
    (∀ b ∈ l.mapIdx f, p b = true) ↔ ∀ a ∈ l, q a = true := by
  constructor
  · intro h a ha
    obtain ⟨i, hi, rfl⟩ := List.getElem_of_mem ha
    rw [← hpq i]
    exact h _ (List.mem_mapIdx.2 ⟨i, hi, rfl⟩)
  · intro h b hb
    obtain ⟨i, hi, rfl⟩ := List.mem_mapIdx.1 hb
    rw [hpq]
    exact h _ (List.getElem_mem hi)

/-- The tables with the dependencies of the payload. -/
def Tables.withDependencies (db : Tables) (rows : List DependencyRow) : Tables :=
  { db with dependencies := db.dependencies ++ rows, nextId := db.nextId + rows.length }

/-- The dependencies go in exactly if those that name a credential fit. -/
lemma insertDependencies_ok {bundle : ExportBundle} {newCredentialIds : List ℕ} :
    insertDependencies target bundle newCredentialIds db = .ok result ↔
      (∀ p ∈ dependenciesInRange newCredentialIds bundle.credentialDependencies,
        p.2.fits = true) ∧
      result = db.withDependencies (dependencyRowsFrom target
        (dependenciesInRange newCredentialIds bundle.credentialDependencies) db.nextId) := by
  have hrows : ∀ resolved : List (ℕ × ExportDependency),
      (∀ r ∈ dependencyRowsFrom target resolved db.nextId, r.isValid = true) ↔
        ∀ p ∈ resolved, p.2.fits = true :=
    fun resolved => forall_mem_mapIdx fun _ _ => rfl
  rw [insertDependencies]
  by_cases hnil : dependenciesInRange newCredentialIds bundle.credentialDependencies = []
  · rw [hnil, if_pos rfl, ok_iff]
    simp [dependencyRowsFrom, Tables.withDependencies]
  · rw [if_neg hnil, Tables.insertDependencies, checked_ok, List.all_eq_true]
    exact and_congr (hrows _) Iff.rfl

/-! ### Rotations -/

/-- The columns of the checklist item satisfy the constraints. -/
def ExportChecklistItem.columnsFit (i : ExportChecklistItem) : Bool :=
  i.retryCount ≤ maxInteger && storableText i.systemName && storableText? i.notes &&
    storableText? i.lastFailureReason

/-- The database takes the checklist item. -/
def ExportChecklistItem.fits (ctx : ImportContext) (i : ExportChecklistItem) : Bool :=
  dateFits ctx i.confirmedAt && dateFits ctx i.lastActedAt && i.columnsFit

/-- The date columns of the rotation take their values. -/
def ExportRotation.datesFit (ctx : ImportContext) (r : ExportRotation) : Bool :=
  dateFits ctx r.initiatedAt && dateFits ctx r.completedAt && dateFits ctx r.promotedAt &&
    dateFits ctx r.retiredAt

/-- The columns of the rotation satisfy the constraints. -/
def ExportRotation.columnsFit (r : ExportRotation) : Bool :=
  storableText? r.notes && r.targetFields.all fun keys => keys.all storableText

/-- The database takes the rotation with its checklist. -/
def ExportRotation.fits (ctx : ImportContext) (r : ExportRotation) : Bool :=
  r.datesFit ctx && r.columnsFit && r.checklistItems.all (ExportChecklistItem.fits ctx)

/-- A rotation that blocks another on its credential. -/
def ExportRotation.isActive (r : ExportRotation) : Bool := r.status ∈ activeRotationStatuses

/-- The versions a rotation of the payload joins; `none` if one of them is missing. -/
def InsertedCredentials.resolve (inserted : InsertedCredentials) (r : ExportRotation) :
    Option (ℕ × ℕ) := do
  let newVersionId ← inserted.newVersionIdByKey (r.credentialIndex, r.newVersionNumber)
  let previousVersionId ← inserted.newVersionIdByKey (r.credentialIndex, r.previousVersionNumber)
  return (newVersionId, previousVersionId)

/-- The credential a rotation of the payload belongs to. -/
def InsertedCredentials.credentialOf (inserted : InsertedCredentials) (r : ExportRotation) : ℕ :=
  inserted.newCredentialIds.getD r.credentialIndex 0

/-- The points of time of a rotation of the payload. -/
def rotationDatesOf (ctx : ImportContext) (r : ExportRotation) : RotationDates :=
  { initiatedAt := dateOf ctx r.initiatedAt, completedAt := dateOf ctx r.completedAt
    promotedAt := dateOf ctx r.promotedAt, retiredAt := dateOf ctx r.retiredAt }

lemma rotationDates_ok {d : RotationDates} :
    rotationDates ctx r = .ok d ↔ r.datesFit ctx = true ∧ d = rotationDatesOf ctx r := by
  simp only [rotationDates, bind_eq_ok, dateColumn_ok, ExportRotation.datesFit, Bool.and_eq_true]
  constructor
  · rintro ⟨_, ⟨h₁, rfl⟩, _, ⟨h₂, rfl⟩, _, ⟨h₃, rfl⟩, _, ⟨h₄, rfl⟩, hd⟩
    exact ⟨⟨⟨⟨h₁, h₂⟩, h₃⟩, h₄⟩, (Except.ok.inj hd).symm⟩
  · rintro ⟨⟨⟨⟨h₁, h₂⟩, h₃⟩, h₄⟩, rfl⟩
    exact ⟨_, ⟨h₁, rfl⟩, _, ⟨h₂, rfl⟩, _, ⟨h₃, rfl⟩, _, ⟨h₄, rfl⟩, rfl⟩

/-- The rows of the checklist items of a rotation, numbered from `id`. -/
def checklistRowsFrom (target : ImportTarget) (rotationId : ℕ) :
    List ExportChecklistItem → ℕ → List ChecklistRow
  | [], _ => []
  | i :: is, id =>
    checklistRow target rotationId id i (dateOf target.ctx i.confirmedAt)
        (dateOf target.ctx i.lastActedAt) ::
      checklistRowsFrom target rotationId is (id + 1)

@[simp] lemma length_checklistRowsFrom (rotationId : ℕ) (is : List ExportChecklistItem) (id : ℕ) :
    (checklistRowsFrom target rotationId is id).length = is.length := by
  induction is generalizing id with
  | nil => rfl
  | cons i is ih => rw [checklistRowsFrom, List.length_cons, List.length_cons, ih]

lemma insertChecklistItems_ok {rotationId : ℕ} {is : List ExportChecklistItem} :
    (checklistRows target rotationId is db.nextId >>= db.insertChecklistItems) = .ok result ↔
      (∀ i ∈ is, i.fits target.ctx = true) ∧
        result = { db with
          checklistItems := db.checklistItems ++
            checklistRowsFrom target rotationId is db.nextId,
          nextId := db.nextId + is.length } := by
  have hrows : ∀ (is : List ExportChecklistItem) (id : ℕ) (rows : List ChecklistRow),
      checklistRows target rotationId is id = .ok rows ↔
        (∀ i ∈ is, dateFits target.ctx i.confirmedAt = true ∧
          dateFits target.ctx i.lastActedAt = true) ∧
        rows = checklistRowsFrom target rotationId is id := by
    intro is
    induction is with
    | nil =>
      intro id rows
      rw [checklistRows, ok_iff]
      simp [checklistRowsFrom]
    | cons i is ih =>
      intro id rows
      simp only [checklistRows, bind_eq_ok, dateColumn_ok, ih]
      constructor
      · rintro ⟨_, ⟨hconfirmed, rfl⟩, _, ⟨hacted, rfl⟩, _, ⟨hrest, rfl⟩, hrows⟩
        exact ⟨List.forall_mem_cons.2 ⟨⟨hconfirmed, hacted⟩, hrest⟩, (Except.ok.inj hrows).symm⟩
      · rintro ⟨hdates, rfl⟩
        obtain ⟨⟨hconfirmed, hacted⟩, hrest⟩ := List.forall_mem_cons.1 hdates
        exact ⟨_, ⟨hconfirmed, rfl⟩, _, ⟨hacted, rfl⟩, _, ⟨hrest, rfl⟩, rfl⟩
  have hvalid : ∀ (is : List ExportChecklistItem) (id : ℕ),
      (∀ r ∈ checklistRowsFrom target rotationId is id, r.isValid = true) ↔
        ∀ i ∈ is, i.columnsFit = true := by
    intro is
    induction is with
    | nil => simp [checklistRowsFrom]
    | cons i is ih =>
      intro id
      rw [checklistRowsFrom, List.forall_mem_cons, List.forall_mem_cons, ih]
      rfl
  simp only [bind_eq_ok, hrows, Tables.insertChecklistItems, checked_ok, List.all_eq_true]
  constructor
  · rintro ⟨_, ⟨hdates, rfl⟩, hok, rfl⟩
    refine ⟨fun i hi => ?_, by rw [length_checklistRowsFrom]⟩
    rw [ExportChecklistItem.fits, Bool.and_eq_true, Bool.and_eq_true]
    exact ⟨hdates i hi, (hvalid is _).1 hok i hi⟩
  · rintro ⟨hfits, rfl⟩
    simp only [ExportChecklistItem.fits, Bool.and_eq_true] at hfits
    refine ⟨_, ⟨fun i hi => (hfits i hi).1, rfl⟩, (hvalid is _).2 fun i hi => (hfits i hi).2, ?_⟩
    rw [length_checklistRowsFrom]

/-- No active rotation of the credential stands in the way of another one. -/
def Unblocked (rotations : List RotationRow) (credentialId : ℕ) : Prop :=
  ∀ q ∈ rotations, q.isActive = true → q.credentialId ≠ credentialId

/-- A rotation goes in exactly if it fits and no active one stands in its way. -/
lemma insertRotationBetween_ok {newVersionId previousVersionId : ℕ} :
    insertRotationBetween target credentialId newVersionId previousVersionId r db = .ok result ↔
      (r.fits target.ctx = true ∧
        (r.isActive = true → Unblocked db.rotations credentialId)) ∧
      result = { db with
        rotations := db.rotations ++ [rotationRow target credentialId newVersionId
          previousVersionId db.nextId r (rotationDatesOf target.ctx r)],
        checklistItems := db.checklistItems ++
          checklistRowsFrom target db.nextId r.checklistItems (db.nextId + 1),
        nextId := db.nextId + 1 + r.checklistItems.length } := by
  have hblocked : ∀ row : RotationRow, row.credentialId = credentialId →
      row.isActive = r.isActive → ((db.rotations.all fun q =>
        !(q.credentialId = row.credentialId && q.isActive && row.isActive)) = true ↔
      (r.isActive = true → Unblocked db.rotations credentialId)) := by
    intro row hcred hactive
    rw [List.all_eq_true, hcred, hactive]
    constructor
    · intro h hr q hq hqactive heq
      have := h q hq
      simp [hr, hqactive, heq] at this
    · intro h q hq
      by_cases hr : r.isActive = true
      · by_cases hqactive : q.isActive = true
        · simp [h hr q hq hqactive]
        · simp [hqactive]
      · simp [hr]
  have hitems : ∀ db' : Tables, (if r.checklistItems = [] then Except.ok db'
      else checklistRows target db.nextId r.checklistItems db'.nextId >>=
        db'.insertChecklistItems) = .ok result ↔
      (∀ i ∈ r.checklistItems, i.fits target.ctx = true) ∧
      result = { db' with
        checklistItems := db'.checklistItems ++
          checklistRowsFrom target db.nextId r.checklistItems db'.nextId,
        nextId := db'.nextId + r.checklistItems.length } := by
    intro db'
    by_cases hnil : r.checklistItems = []
    · rw [if_pos hnil, hnil, ok_iff]
      simp [checklistRowsFrom]
    · rw [if_neg hnil]
      exact insertChecklistItems_ok
  rw [insertRotationBetween, bind_eq_ok]
  simp only [rotationDates_ok, ExportRotation.fits, Bool.and_eq_true, List.all_eq_true]
  constructor
  · rintro ⟨_, ⟨hdates, rfl⟩, hrun⟩
    obtain ⟨_, hinsert, hrun⟩ := bind_eq_ok.1 hrun
    obtain ⟨hvalid, rfl⟩ := checked_ok.1 hinsert
    obtain ⟨hcolumns, hfree⟩ := Bool.and_eq_true_iff.1 hvalid
    obtain ⟨hfits, rfl⟩ := (hitems _).1 hrun
    exact ⟨⟨⟨⟨hdates, hcolumns⟩, hfits⟩, (hblocked _ rfl rfl).1 hfree⟩, rfl⟩
  · rintro ⟨⟨⟨⟨hdates, hcolumns⟩, hfits⟩, hfree⟩, rfl⟩
    refine ⟨_, ⟨hdates, rfl⟩, bind_eq_ok.2 ⟨_, checked_ok.2 ⟨?_, rfl⟩, ?_⟩⟩
    · exact Bool.and_eq_true_iff.2 ⟨hcolumns, (hblocked _ rfl rfl).2 hfree⟩
    · exact (hitems _).2 ⟨hfits, rfl⟩

/-- The tables after one rotation; one that names a missing version is passed over. -/
def Tables.withRotation (db : Tables) (target : ImportTarget) (inserted : InsertedCredentials)
    (r : ExportRotation) : Tables :=
  match inserted.resolve r with
  | none => db
  | some (newVersionId, previousVersionId) =>
    { db with
      rotations := db.rotations ++ [rotationRow target (inserted.credentialOf r) newVersionId
        previousVersionId db.nextId r (rotationDatesOf target.ctx r)],
      checklistItems := db.checklistItems ++
        checklistRowsFrom target db.nextId r.checklistItems (db.nextId + 1),
      nextId := db.nextId + 1 + r.checklistItems.length }

lemma insertOneRotation_ok :
    insertOneRotation target inserted r db = .ok result ↔
      ((inserted.resolve r).isSome = true → r.fits target.ctx = true ∧
        (r.isActive = true → Unblocked db.rotations (inserted.credentialOf r))) ∧
      result = db.withRotation target inserted r := by
  rw [insertOneRotation, Tables.withRotation, InsertedCredentials.resolve]
  cases hnew : inserted.newVersionIdByKey (r.credentialIndex, r.newVersionNumber) with
  | none =>
    simp only [Option.bind_eq_bind, Option.bind_none, ok_iff]
    simp
  | some newVersionId =>
    cases hprevious : inserted.newVersionIdByKey (r.credentialIndex, r.previousVersionNumber) with
    | none =>
      simp only [Option.bind_eq_bind, Option.bind_some, Option.bind_none, ok_iff]
      simp
    | some previousVersionId =>
      simp only [Option.bind_eq_bind, Option.bind_some, Option.pure_def, Option.isSome_some,
        true_implies]
      exact insertRotationBetween_ok

/-- The tables after the rotations. -/
def Tables.withRotations (db : Tables) (target : ImportTarget) (inserted : InsertedCredentials)
    (rs : List ExportRotation) : Tables :=
  rs.foldl (fun db r => db.withRotation target inserted r) db

/-- Two rotations of the payload that the index on active rotations does not let stand together. -/
def InsertedCredentials.Clash (inserted : InsertedCredentials) (r s : ExportRotation) : Prop :=
  (inserted.resolve r).isSome = true ∧ (inserted.resolve s).isSome = true ∧
    r.isActive = true ∧ s.isActive = true ∧ inserted.credentialOf r = inserted.credentialOf s

lemma unblocked_withRotation :
    Unblocked (db.withRotation target inserted r).rotations credentialId ↔
      Unblocked db.rotations credentialId ∧
        ((inserted.resolve r).isSome = true → r.isActive = true →
          inserted.credentialOf r ≠ credentialId) := by
  rw [Tables.withRotation]
  cases hresolve : inserted.resolve r with
  | none => simp
  | some ids =>
    simp only [Unblocked, List.mem_append, List.mem_singleton, Option.isSome_some, true_implies]
    constructor
    · intro h
      exact ⟨fun q hq => h q (.inl hq), fun hr => h _ (.inr rfl) hr⟩
    · rintro ⟨h, hrow⟩ q (hq | rfl)
      · exact h q hq
      · exact hrow

/-- The rotations go in exactly if those whose versions are there fit, and no two of them clash. -/
lemma insertRotations_ok {rs : List ExportRotation} :
    insertRotations target inserted rs db = .ok result ↔
      ((∀ r ∈ rs, (inserted.resolve r).isSome = true → r.fits target.ctx = true ∧
          (r.isActive = true → Unblocked db.rotations (inserted.credentialOf r))) ∧
        rs.Pairwise fun r s => ¬ inserted.Clash r s) ∧
      result = db.withRotations target inserted rs := by
  induction rs generalizing db with
  | nil =>
    rw [insertRotations, ok_iff]
    simp [Tables.withRotations]
  | cons r rs ih =>
    rw [insertRotations, bind_eq_ok]
    simp only [insertOneRotation_ok]
    constructor
    · rintro ⟨_, ⟨hfirst, rfl⟩, hrun⟩
      obtain ⟨⟨hrest, hpair⟩, rfl⟩ := ih.1 hrun
      refine ⟨⟨List.forall_mem_cons.2 ⟨hfirst, fun s hs hsome => ?_⟩,
        List.pairwise_cons.2 ⟨fun s hs hclash => ?_, hpair⟩⟩, rfl⟩
      · obtain ⟨hfits, hfree⟩ := hrest s hs hsome
        exact ⟨hfits, fun hactive => (unblocked_withRotation.1 (hfree hactive)).1⟩
      · obtain ⟨hr, hs', hractive, hsactive, heq⟩ := hclash
        exact (unblocked_withRotation.1 ((hrest s hs hs').2 hsactive)).2 hr hractive heq
    · rintro ⟨⟨hall, hpair⟩, rfl⟩
      obtain ⟨hfirst, hrest⟩ := List.forall_mem_cons.1 hall
      obtain ⟨hclash, hpair⟩ := List.pairwise_cons.1 hpair
      refine ⟨_, ⟨hfirst, rfl⟩, ih.2 ⟨⟨fun s hs hsome => ?_, hpair⟩, rfl⟩⟩
      obtain ⟨hfits, hfree⟩ := hrest s hs hsome
      exact ⟨hfits, fun hsactive => unblocked_withRotation.2 ⟨hfree hsactive,
        fun hr hractive heq => hclash s hs ⟨hr, hsome, hractive, hsactive, heq⟩⟩⟩

end ProjectVault.ProjectExport
