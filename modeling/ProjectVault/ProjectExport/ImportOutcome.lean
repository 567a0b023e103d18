import ProjectVault.ProjectExport.ImportGate

/-!
What the import schema leaves to the database.
-/

namespace ProjectVault.ProjectExport

open Js

variable {ctx : ImportContext}
variable {override : Option String} {bundleName name : String}

/-! ### Lengths -/

lemma length_le_units (s : String) : s.length ≤ Js.length s := by
  have h : ∀ cs : List Char, cs.length ≤ (cs.map fun c => if c.toNat < 0x10000 then 1 else 2).sum := by
    intro cs
    induction cs with
    | nil => simp
    | cons c cs ih =>
      rw [List.length_cons, List.map_cons, List.sum_cons]
      split_ifs <;> omega
  exact h s.toList

/-- A string of bounded length has a bounded number of characters. -/
lemma charLengthBetween_of_accepts {min max : ℕ} {s : String} (hmin : min ≤ 1)
    (h : (text min max).Accepts s) : charLengthBetween min max s = true := by
  have h' : (decide (min ≤ Js.length s) && decide (Js.length s ≤ max)) = true := h
  rw [Bool.and_eq_true, decide_eq_true_iff, decide_eq_true_iff] at h'
  have hunits := length_le_units s
  rw [charLengthBetween, Bool.and_eq_true, decide_eq_true_iff, decide_eq_true_iff]
  refine ⟨?_, hunits.trans h'.2⟩
  by_cases hempty : s = ""
  · subst hempty
    exact h'.1
  · have : s.length ≠ 0 := fun h0 => hempty (String.length_eq_zero_iff.1 h0)
    omega

lemma charLengthAtMost?_of_accepts {max : ℕ} {s : Option String}
    (h : (nullableText max).Accepts s) : charLengthAtMost? max s = true := by
  cases s with
  | none => rfl
  | some s => exact charLengthBetween_of_accepts (Nat.zero_le _) h

/-! ### What the schema leaves open -/

/-- The texts of the credential can be stored. -/
def ExportCredential.storable (c : ExportCredential) : Bool :=
  storableText c.name && storableText? c.description && c.tags.all storableText &&
    storableText? c.rotationSchedule

/-- The texts of the dependency can be stored. -/
def ExportDependency.storable (d : ExportDependency) : Bool :=
  storableText d.systemName && storableText? d.notes && storableText? d.linkUrl &&
    storableText? d.fieldKey

/-- The texts of the rotation and its checklist can be stored. -/
def ExportRotation.storable (r : ExportRotation) : Bool :=
  r.columnsFit && r.checklistItems.all fun i =>
    storableText i.systemName && storableText? i.notes && storableText? i.lastFailureReason

/-- The dates of the rotation and its checklist can be stored. -/
def ExportRotation.allDatesFit (ctx : ImportContext) (r : ExportRotation) : Bool :=
  r.datesFit ctx && r.checklistItems.all fun i =>
    dateFits ctx i.confirmedAt && dateFits ctx i.lastActedAt

/-- What an accepted payload still has to satisfy for the database to take it. -/
structure ExportBundle.Fits (ctx : ImportContext) (b : ExportBundle) : Prop where
  credentials : ∀ c ∈ b.credentials, dateFits ctx c.expiresAt = true ∧ c.storable = true
  versions : ∀ c ∈ b.credentials, ∀ v ∈ c.versions,
    v.versionNumber ≤ maxInteger ∧ storableJson v.fieldMeta = true
  distinctVersions : ∀ c ∈ b.credentials, (c.versions.map ExportVersion.versionNumber).Nodup
  dependencies : ∀ d ∈ b.credentialDependencies, d.credentialIndex < b.credentials.length →
    d.storable = true
  rotations : ∀ r ∈ b.rotations, b.isDangling r = false →
    r.allDatesFit ctx = true ∧ r.storable = true
  oneActive : b.rotations.Pairwise fun r s => ¬ b.Clash r s
  certRecords : ∀ c ∈ b.certRecords, dateFits ctx c.expiresAt = true ∧ storableText c.domain = true
  domainRecords : ∀ d ∈ b.domainRecords,
    dateFits ctx d.renewalDate = true ∧ storableText d.domainName = true
  endpointTexts : ∀ e ∈ b.serviceEndpoints, storableText e.name = true ∧ storableText e.url = true
  endpointChecks : ∀ e ∈ b.serviceEndpoints, e.checkFrequencyMinutes ∈ ([1, 5, 15, 30] : List ℤ) ∧
    1 ≤ e.downThresholdFailures ∧ e.downThresholdFailures ≤ 10
  services : ∀ s ∈ b.services, storableText s.displayName = true
  distinctServices : (b.services.map ExportStatusPageService.serviceIndex).Nodup
  machineUsers : ∀ m ∈ b.machineUsers, storableText m.name = true ∧
    storableText? m.description = true

section Accepted

variable {b : ExportBundle}

lemma ExportVersion.fits_iff {v : ExportVersion} (h : exportVersionSchema.Accepts v) :
    v.fits = true ↔ v.versionNumber ≤ maxInteger ∧ storableJson v.fieldMeta = true := by
  obtain ⟨-, ⟨-, hschema⟩, -⟩ := h
  have hle : v.schemaVersion ≤ 1000 := by
    simpa using (Bool.and_eq_true_iff.1 hschema).2
  have hsmall : v.schemaVersion ≤ maxSmallint := hle.trans (by decide)
  simp [ExportVersion.fits, hsmall]

lemma ExportCredential.fits_iff {c : ExportCredential} (h : exportCredentialSchema.Accepts c) :
    c.fits ctx = true ↔ (dateFits ctx c.expiresAt = true ∧ c.storable = true) ∧
      (∀ v ∈ c.versions, v.versionNumber ≤ maxInteger ∧ storableJson v.fieldMeta = true) ∧
      (c.versions.map ExportVersion.versionNumber).Nodup := by
  obtain ⟨-, -, -, -, -, -, -, ⟨-, hretention⟩, -, -, -, -, hversions⟩ := h
  have hretention : 1 ≤ c.retentionCount ∧ c.retentionCount ≤ 1000 := by simpa using hretention
  have hmax : c.retentionCount ≤ maxInteger := hretention.2.trans (by decide)
  have hall : (∀ v ∈ c.versions, v.fits = true) ↔
      ∀ v ∈ c.versions, v.versionNumber ≤ maxInteger ∧ storableJson v.fieldMeta = true :=
    forall₂_congr fun v hv => ExportVersion.fits_iff (hversions v hv)
  rw [ExportCredential.fits, ExportCredential.columnsFit, ExportCredential.storable, uniqueIn]
  simp only [Bool.and_eq_true, List.all_eq_true, decide_eq_true_iff, hall, hretention.1, hmax,
    and_assoc, true_and]

lemma ExportDependency.fits_iff {d : ExportDependency} (h : exportDependencySchema.Accepts d) :
    d.fits = true ↔ d.storable = true := by
  obtain ⟨-, hname, -, hnotes, hlink, -⟩ := h
  rw [ExportDependency.fits, charLengthBetween_of_accepts le_rfl hname,
    charLengthAtMost?_of_accepts hnotes, charLengthAtMost?_of_accepts hlink]
  rfl

lemma ExportChecklistItem.columnsFit_eq {i : ExportChecklistItem}
    (h : exportChecklistItemSchema.Accepts i) : i.columnsFit =
      (storableText i.systemName && storableText? i.notes && storableText? i.lastFailureReason) := by
  obtain ⟨-, -, -, -, ⟨-, hretry⟩, -⟩ := h
  have hle : i.retryCount ≤ 100000 := by simpa using hretry
  have hmax : i.retryCount ≤ maxInteger := hle.trans (by decide)
  simp [ExportChecklistItem.columnsFit, hmax]

lemma ExportRotation.fits_iff {r : ExportRotation} (h : exportRotationSchema.Accepts r) :
    r.fits ctx = true ↔ r.allDatesFit ctx = true ∧ r.storable = true := by
  obtain ⟨-, -, -, -, -, -, -, -, -, -, -, hitems⟩ := h
  have hall : (∀ i ∈ r.checklistItems, i.fits ctx = true) ↔
      (∀ i ∈ r.checklistItems, (dateFits ctx i.confirmedAt && dateFits ctx i.lastActedAt) = true) ∧
      ∀ i ∈ r.checklistItems, (storableText i.systemName && storableText? i.notes &&
        storableText? i.lastFailureReason) = true := by
    rw [← forall₂_and]
    refine forall₂_congr fun i hi => ?_
    rw [ExportChecklistItem.fits, ExportChecklistItem.columnsFit_eq (hitems i hi), Bool.and_eq_true]
  rw [ExportRotation.fits, ExportRotation.allDatesFit, ExportRotation.storable, Bool.and_eq_true,
    Bool.and_eq_true, Bool.and_eq_true, Bool.and_eq_true, List.all_eq_true, List.all_eq_true,
    List.all_eq_true, hall]
  constructor
  · rintro ⟨⟨hd, hc⟩, hi, ht⟩
    exact ⟨⟨hd, hi⟩, hc, ht⟩
  · rintro ⟨⟨hd, hi⟩, hc, ht⟩
    exact ⟨⟨hd, hc⟩, hi, ht⟩

lemma ExportCertRecord.fits_iff {c : ExportCertRecord} (h : exportCertRecordSchema.Accepts c) :
    c.fits ctx = true ↔ dateFits ctx c.expiresAt = true ∧ storableText c.domain = true := by
  rw [ExportCertRecord.fits, charLengthBetween_of_accepts le_rfl h.1, Bool.true_and,
    Bool.and_eq_true]

lemma ExportDomainRecord.fits_iff {d : ExportDomainRecord}
    (h : exportDomainRecordSchema.Accepts d) :
    d.fits ctx = true ↔ dateFits ctx d.renewalDate = true ∧ storableText d.domainName = true := by
  rw [ExportDomainRecord.fits, charLengthBetween_of_accepts le_rfl h.1, Bool.true_and,
    Bool.and_eq_true]

lemma ExportServiceEndpoint.fits_iff {e : ExportServiceEndpoint}
    (h : exportServiceEndpointSchema.Accepts e) :
    e.fits = true ↔ (storableText e.name = true ∧ storableText e.url = true) ∧
      e.checkFrequencyMinutes ∈ ([1, 5, 15, 30] : List ℤ) ∧ 1 ≤ e.downThresholdFailures ∧
      e.downThresholdFailures ≤ 10 := by
  rw [ExportServiceEndpoint.fits, charLengthBetween_of_accepts le_rfl h.1,
    charLengthBetween_of_accepts le_rfl h.2.1]
  simp only [Bool.true_and, Bool.and_eq_true, decide_eq_true_iff, and_assoc]

lemma ExportStatusPageService.fits_iff {s : ExportStatusPageService}
    (h : exportStatusPageServiceSchema.Accepts s) :
    s.fits = true ↔ storableText s.displayName = true := by
  rw [ExportStatusPageService.fits, charLengthBetween_of_accepts le_rfl h.2.1, Bool.true_and]

lemma ExportMachineUser.fits_iff {m : ExportMachineUser} (h : exportMachineUserSchema.Accepts m) :
    m.fits = true ↔ storableText m.name = true ∧ storableText? m.description = true := by
  rw [ExportMachineUser.fits, charLengthBetween_of_accepts le_rfl h.1, Bool.true_and,
    Bool.and_eq_true]

lemma accepts_of_mem_services (h : exportBundleSchema.Accepts b) :
    ∀ s ∈ b.services, exportStatusPageServiceSchema.Accepts s := by
  obtain ⟨-, -, -, -, -, -, -, -, ⟨-, hpages⟩, -⟩ := h
  intro s hs
  obtain ⟨page, hpage, hs⟩ := List.mem_flatMap.1 hs
  exact (hpages page hpage).2 s (List.mem_filter.1 hs).1

/-- For an accepted payload, the database asks for nothing but `Fits`. -/
lemma takes_iff_fits (h : exportBundleSchema.Accepts b) : b.Takes ctx ↔ b.Fits ctx := by
  have hservices := accepts_of_mem_services h
  obtain ⟨-, -, ⟨-, hcredentials⟩, ⟨-, hdependencies⟩, ⟨-, hrotations⟩, ⟨-, hcerts⟩,
    ⟨-, hdomains⟩, ⟨-, hendpoints⟩, -, ⟨-, husers⟩⟩ := h
  constructor
  · intro htakes
    have hcred := fun c hc => (ExportCredential.fits_iff (hcredentials c hc)).1
      (htakes.credentials c hc)
    have hend := fun e he => (ExportServiceEndpoint.fits_iff (hendpoints e he)).1
      (htakes.serviceEndpoints e he)
    exact
      { credentials := fun c hc => (hcred c hc).1
        versions := fun c hc => (hcred c hc).2.1
        distinctVersions := fun c hc => (hcred c hc).2.2
        dependencies := fun d hd hlt =>
          (ExportDependency.fits_iff (hdependencies d hd)).1 (htakes.dependencies d hd hlt)
        rotations := fun r hr hdangling =>
          (ExportRotation.fits_iff (hrotations r hr)).1 (htakes.rotations r hr hdangling)
        oneActive := htakes.oneActive
        certRecords := fun c hc =>
          (ExportCertRecord.fits_iff (hcerts c hc)).1 (htakes.certRecords c hc)
        domainRecords := fun d hd =>
          (ExportDomainRecord.fits_iff (hdomains d hd)).1 (htakes.domainRecords d hd)
        endpointTexts := fun e he => (hend e he).1
        endpointChecks := fun e he => (hend e he).2
        services := fun s hs =>
          (ExportStatusPageService.fits_iff (hservices s hs)).1 (htakes.services s hs)
        distinctServices := htakes.distinctServices
        machineUsers := fun m hm =>
          (ExportMachineUser.fits_iff (husers m hm)).1 (htakes.machineUsers m hm) }
  · intro hfits
    exact
      { credentials := fun c hc => (ExportCredential.fits_iff (hcredentials c hc)).2
          ⟨hfits.credentials c hc, hfits.versions c hc, hfits.distinctVersions c hc⟩
        dependencies := fun d hd hlt =>
          (ExportDependency.fits_iff (hdependencies d hd)).2 (hfits.dependencies d hd hlt)
        rotations := fun r hr hdangling =>
          (ExportRotation.fits_iff (hrotations r hr)).2 (hfits.rotations r hr hdangling)
        oneActive := hfits.oneActive
        certRecords := fun c hc =>
          (ExportCertRecord.fits_iff (hcerts c hc)).2 (hfits.certRecords c hc)
        domainRecords := fun d hd =>
          (ExportDomainRecord.fits_iff (hdomains d hd)).2 (hfits.domainRecords d hd)
        serviceEndpoints := fun e he => (ExportServiceEndpoint.fits_iff (hendpoints e he)).2
          ⟨hfits.endpointTexts e he, hfits.endpointChecks e he⟩
        services := fun s hs =>
          (ExportStatusPageService.fits_iff (hservices s hs)).2 (hfits.services s hs)
        distinctServices := hfits.distinctServices
        machineUsers := fun m hm =>
          (ExportMachineUser.fits_iff (husers m hm)).2 (hfits.machineUsers m hm) }

end Accepted

/-! ### Counts -/

/-- The numbers of rows of the tables an import writes to. -/
structure RowCounts extends ImportCounts where
  checklistItems : ℕ
  statusPageServices : ℕ
  deriving DecidableEq

/-- The rows of the tables. -/
def Tables.rowCounts (db : Tables) : RowCounts :=
  { credentials := db.credentials.length
    credentialVersions := db.versions.length
    credentialDependencies := db.dependencies.length
    rotations := db.rotations.length
    certRecords := db.certRecords.length
    domainRecords := db.domainRecords.length
    serviceEndpoints := db.serviceEndpoints.length
    statusPages := db.statusPages.length
    machineUsers := db.machineUsers.length
    checklistItems := db.checklistItems.length
    statusPageServices := db.statusPageServices.length }

/-- The elements of a payload, each of which stands for one row. -/
def ExportBundle.elements (b : ExportBundle) : RowCounts :=
  { summarizeImportedCounts b with
    checklistItems := (b.rotations.map fun r => r.checklistItems.length).sum
    statusPageServices := (b.statusPages.map fun p => p.services.length).sum }

/-- So many rows more. -/
def ImportCounts.add (a b : ImportCounts) : ImportCounts :=
  { credentials := a.credentials + b.credentials
    credentialVersions := a.credentialVersions + b.credentialVersions
    credentialDependencies := a.credentialDependencies + b.credentialDependencies
    rotations := a.rotations + b.rotations
    certRecords := a.certRecords + b.certRecords
    domainRecords := a.domainRecords + b.domainRecords
    serviceEndpoints := a.serviceEndpoints + b.serviceEndpoints
    statusPages := a.statusPages + b.statusPages
    machineUsers := a.machineUsers + b.machineUsers }

/-- So many rows more. -/
def RowCounts.add (a b : RowCounts) : RowCounts :=
  { a.toImportCounts.add b.toImportCounts with
    checklistItems := a.checklistItems + b.checklistItems
    statusPageServices := a.statusPageServices + b.statusPageServices }

lemma RowCounts.add_right_inj {a b c : RowCounts} : a.add b = a.add c ↔ b = c := by
  rcases b with ⟨b, _, _⟩
  rcases c with ⟨c, _, _⟩
  rcases b with ⟨⟩
  rcases c with ⟨⟩
  simp [RowCounts.add, ImportCounts.add]

/-- All references of the payload resolve. -/
structure ExportBundle.Resolved (b : ExportBundle) : Prop where
  dependencies : ∀ d ∈ b.credentialDependencies, d.credentialIndex < b.credentials.length
  rotations : ∀ r ∈ b.rotations, b.isDangling r = false
  statusPages : b.statusPages ≠ [] → b.serviceEndpoints ≠ []
  services : ∀ p ∈ b.statusPages, ∀ s ∈ p.services, s.serviceIndex < b.serviceEndpoints.length

/-- The rows that an import of the payload writes. -/
def ExportBundle.written (b : ExportBundle) : RowCounts :=
  { b.elements with
    credentialDependencies :=
      b.credentialDependencies.countP fun d => d.credentialIndex < b.credentials.length
    rotations := b.rotations.countP fun r => !b.isDangling r
    statusPages := if b.serviceEndpoints = [] then 0 else b.statusPages.length
    checklistItems :=
      ((b.rotations.filter fun r => !b.isDangling r).map fun r => r.checklistItems.length).sum
    statusPageServices := b.services.length }

section Counts

variable {target : ImportTarget} {b : ExportBundle} {db : Tables}

lemma withRotations_counts (target : ImportTarget) (b : ExportBundle) (id : ℕ) (rs : List ExportRotation) (db : Tables) :
    (db.withRotations target (b.inserted id) rs).rotations.length =
        db.rotations.length + rs.countP (fun r => !b.isDangling r) ∧
      (db.withRotations target (b.inserted id) rs).checklistItems.length =
        db.checklistItems.length + ((rs.filter fun r => !b.isDangling r).map fun r =>
          r.checklistItems.length).sum := by
  induction rs generalizing db with
  | nil => exact ⟨rfl, rfl⟩
  | cons r rs ih =>
    obtain ⟨hrotations, hitems⟩ := ih (db.withRotation target (b.inserted id) r)
    have hone := isSome_resolve b id r
    rw [Tables.withRotations, List.foldl_cons, ← Tables.withRotations, hrotations, hitems,
      Tables.withRotation]
    cases hresolve : (b.inserted id).resolve r with
    | none =>
      rw [hresolve] at hone
      have hdangling : (!b.isDangling r) = false := hone.symm
      simp [hdangling]
    | some ids =>
      rw [hresolve] at hone
      have hdangling : (!b.isDangling r) = true := hone.symm
      simp only [hdangling, List.length_append, List.length_singleton,
        length_checklistRowsFrom, List.countP_cons_of_pos, List.filter_cons_of_pos,
        List.map_cons, List.sum_cons]
      omega

/-- The tables that the rotations leave alone. -/
lemma withRotations_others (target : ImportTarget) (inserted : InsertedCredentials) (rs : List ExportRotation)
    (db : Tables) :
    { db.withRotations target inserted rs with
        rotations := db.rotations, checklistItems := db.checklistItems, nextId := db.nextId } =
      db := by
  induction rs generalizing db with
  | nil => rfl
  | cons r rs ih =>
    have hone : { db.withRotation target inserted r with
        rotations := db.rotations, checklistItems := db.checklistItems, nextId := db.nextId } =
          db := by
      rw [Tables.withRotation]
      cases inserted.resolve r <;> rfl
    have hrest := ih (db.withRotation target inserted r)
    calc _ = { ({ (db.withRotation target inserted r).withRotations target inserted rs with
            rotations := (db.withRotation target inserted r).rotations
            checklistItems := (db.withRotation target inserted r).checklistItems
            nextId := (db.withRotation target inserted r).nextId } : Tables) with
          rotations := db.rotations, checklistItems := db.checklistItems,
          nextId := db.nextId } := rfl
      _ = _ := by rw [hrest, hone]

lemma length_importedServices_range' (hpages : b.statusPages.length ≤ 1) (start : ℕ) :
    ∀ page ∈ b.statusPages.head?, (importedServices
      (List.range' start b.serviceEndpoints.length) page).length = b.services.length := by
  intro page hpage
  rw [perm_importedServices.length_eq, List.length_map, services_of_head? hpages start page hpage]

lemma withStatusPage_counts (hpages : b.statusPages.length ≤ 1) (start : ℕ) (db : Tables) :
    (db.withStatusPage target (List.range' start b.serviceEndpoints.length)
        b.statusPages.head?).rowCounts =
      { db.rowCounts with
        statusPages := db.statusPages.length + b.written.statusPages
        statusPageServices := db.statusPageServices.length + b.services.length } := by
  by_cases hnone : b.serviceEndpoints = []
  · have hservices : b.services = [] := by
      rw [ExportBundle.services, hnone]
      simp
    rw [ExportBundle.written, if_pos hnone, hservices, hnone]
    cases b.statusPages.head? <;> rfl
  · rw [ExportBundle.written, if_neg hnone]
    have hrange : List.range' start b.serviceEndpoints.length ≠ [] := by
      rw [Ne, List.range'_eq_nil_iff]
      exact fun h => hnone (List.eq_nil_of_length_eq_zero h)
    have hlength := length_importedServices_range' hpages start
    cases hhead : b.statusPages.head? with
    | none =>
      have hnil := List.head?_eq_none_iff.1 hhead
      have hservices : b.services = [] := by
        rw [ExportBundle.services, hnil]
        rfl
      rw [hnil, hservices]
      rfl
    | some page =>
      have hone : b.statusPages.length = 1 := by
        obtain ⟨rest, hrest⟩ := List.head?_eq_some_iff.1 hhead
        rw [hrest, List.length_cons] at hpages ⊢
        omega
      rw [Tables.withStatusPage, if_neg hrange, ← hlength page hhead, hone]
      simp [Tables.rowCounts, statusPageServiceRowsFrom]

lemma withRotations_rowCounts (id : ℕ) (rs : List ExportRotation) (db : Tables) :
    (db.withRotations target (b.inserted id) rs).rowCounts =
      { db.rowCounts with
        rotations := db.rotations.length + rs.countP fun r => !b.isDangling r
        checklistItems := db.checklistItems.length + ((rs.filter fun r =>
          !b.isDangling r).map fun r => r.checklistItems.length).sum } := by
  obtain ⟨hrotations, hitems⟩ := withRotations_counts target b id rs db
  have hothers := congrArg Tables.rowCounts
    (withRotations_others target (b.inserted id) rs db)
  rw [← hothers, ← hrotations, ← hitems]
  rfl

lemma withoutMonitoring_rowCounts :
    (db.withoutMonitoring target b).rowCounts =
      { db.rowCounts.add b.written with
        serviceEndpoints := db.serviceEndpoints.length
        statusPages := db.statusPages.length
        machineUsers := db.machineUsers.length
        statusPageServices := db.statusPageServices.length } := by
  have hwith : ∀ (certs : List CertRow) (domains : List DomainRow) (db : Tables),
      ((db.withCertRecords certs).withDomainRecords domains).rowCounts =
        { db.rowCounts with
          certRecords := db.rowCounts.certRecords + certs.length
          domainRecords := db.rowCounts.domainRecords + domains.length } := by
    intro certs domains db
    simp [Tables.withCertRecords, Tables.withDomainRecords, Tables.rowCounts]
  simp only [Tables.withoutMonitoring]
  rw [hwith, withRotations_rowCounts]
  simp only [Tables.rowCounts, RowCounts.add, ImportCounts.add, Tables.withDependencies,
    Tables.withCredentials, List.length_append, length_credentialRowsFrom,
    length_allVersionRowsFrom, length_certRowsFrom, length_domainRowsFrom, dependencyRowsFrom,
    List.length_mapIdx]
  rw [show (b.inserted db.nextId).newCredentialIds = credentialIdsFrom b.credentials db.nextId
    from rfl, length_dependenciesInRange]
  rfl

/-- The rows an import writes, counted. -/
lemma rowCounts_populated (hpages : b.statusPages.length ≤ 1) :
    (db.populated target b).rowCounts = db.rowCounts.add b.written := by
  have hwith : ∀ (users : List MachineUserRow) (db : Tables),
      (db.withMachineUsers users).rowCounts =
        { db.rowCounts with machineUsers := db.rowCounts.machineUsers + users.length } := by
    intro users db
    simp [Tables.withMachineUsers, Tables.rowCounts]
  have hendpoints : ∀ (rows : List EndpointRow) (db : Tables),
      (db.withEndpoints rows).rowCounts =
        { db.rowCounts with serviceEndpoints := db.rowCounts.serviceEndpoints + rows.length } := by
    intro rows db
    simp [Tables.withEndpoints, Tables.rowCounts]
  simp only [Tables.populated]
  rw [hwith, withStatusPage_counts hpages, hendpoints, withoutMonitoring_rowCounts]
  obtain ⟨hpage, hservice, -⟩ := withoutMonitoring_frame target b db
  simp only [Tables.withEndpoints, hpage, hservice, length_endpointRowsFrom, List.length_mapIdx]
  rfl

/-- No service is left out exactly if every index is in range. -/
lemma length_flatMap_filter_eq (pages : List ExportStatusPage) (n : ℕ) :
    (pages.flatMap fun p => p.services.filter fun s => s.serviceIndex < n).length =
        (pages.map fun p => p.services.length).sum ↔
      ∀ p ∈ pages, ∀ s ∈ p.services, s.serviceIndex < n := by
  induction pages with
  | nil => simp
  | cons p pages ih =>
    have hp := List.length_filter_le (fun s : ExportStatusPageService => s.serviceIndex < n)
      p.services
    have hrest : (pages.flatMap fun p =>
        p.services.filter fun s => s.serviceIndex < n).length ≤
          (pages.map fun p => p.services.length).sum := by
      rw [List.length_flatMap]
      exact List.sum_le_sum fun p _ => List.length_filter_le _ _
    rw [List.flatMap_cons, List.length_append, List.map_cons, List.sum_cons,
      List.forall_mem_cons, ← ih]
    have hall : (p.services.filter fun s => s.serviceIndex < n).length = p.services.length ↔
        ∀ s ∈ p.services, s.serviceIndex < n := by
      simp
    rw [← hall]
    omega

/-- No element is left out exactly if every reference resolves. -/
lemma written_eq_elements_iff :
    b.written = b.elements ↔ b.Resolved := by
  have hdependencies : b.written.credentialDependencies = b.elements.credentialDependencies ↔
      ∀ d ∈ b.credentialDependencies, d.credentialIndex < b.credentials.length := by
    refine List.countP_eq_length.trans ?_
    simp
  have hrotations : b.written.rotations = b.elements.rotations ↔
      ∀ r ∈ b.rotations, b.isDangling r = false := by
    refine List.countP_eq_length.trans ?_
    simp
  have hservices : b.written.statusPageServices = b.elements.statusPageServices ↔ _ :=
    length_flatMap_filter_eq b.statusPages b.serviceEndpoints.length
  have hstatusPages : b.written.statusPages = b.elements.statusPages ↔
      (b.statusPages ≠ [] → b.serviceEndpoints ≠ []) := by
    show (if b.serviceEndpoints = [] then 0 else b.statusPages.length) = b.statusPages.length ↔ _
    by_cases hnone : b.serviceEndpoints = []
    · rw [if_pos hnone]
      cases b.statusPages <;> simp [hnone]
    · simp [hnone]
  constructor
  · intro h
    exact
      { dependencies := hdependencies.1 (congrArg (fun c => c.credentialDependencies) h)
        rotations := hrotations.1 (congrArg (fun c => c.rotations) h)
        statusPages := hstatusPages.1 (congrArg (fun c => c.statusPages) h)
        services := hservices.1 (congrArg (fun c => c.statusPageServices) h) }
  · intro h
    have hitems : b.written.checklistItems = b.elements.checklistItems := by
      show ((b.rotations.filter fun r => !b.isDangling r).map fun r =>
        r.checklistItems.length).sum = (b.rotations.map fun r => r.checklistItems.length).sum
      rw [List.filter_eq_self.2 fun r hr => by rw [h.rotations r hr]; rfl]
    calc b.written = { b.elements with
          credentialDependencies := b.written.credentialDependencies
          rotations := b.written.rotations
          statusPages := b.written.statusPages
          checklistItems := b.written.checklistItems
          statusPageServices := b.written.statusPageServices } := rfl
      _ = b.elements := by
          rw [hdependencies.2 h.dependencies, hrotations.2 h.rotations,
            hstatusPages.2 h.statusPages, hservices.2 h.services, hitems]

end Counts

/-! ### The outcome -/

/-- The import is refused with nothing written, or inserts a row for every element and reports
the numbers of rows it inserted. -/
def Complete (before : Tables) (b : ExportBundle) :
    Except ImportError (ImportProjectBundleResult × Tables) → Prop
  | .error _ => False
  | .ok (.createProjectFailed _, after) => after = before
  | .ok (.ok _ _ counts, after) => after.rowCounts = before.rowCounts.add b.elements ∧
      after.rowCounts.toImportCounts = before.rowCounts.toImportCounts.add counts

/-- What an accepted payload still has to satisfy for its import to be complete. -/
structure Importable (ctx : ImportContext) (override : Option String) (b : ExportBundle) :
    Prop where
  name : trim (override.getD "") = "" → storableText b.project.name = true
  project : ctx.creationPermitted = true → storableText (trim (override.getD "")) = true ∧
    storableText? b.project.description = true
  rows : ctx.creationPermitted = true → ctx.slugTaken = false → b.Fits ctx ∧ b.Resolved

/-! ### The name and the project -/

lemma mem_dropWhile_of_not {α : Type} {p : α → Bool} {a : α} (ha : p a = false) (l : List α) :
    a ∈ l.dropWhile p ↔ a ∈ l := by
  induction l with
  | nil => rfl
  | cons b l ih =>
    rw [List.dropWhile_cons]
    split_ifs with hb
    · rw [ih, List.mem_cons]
      refine ⟨.inr, ?_⟩
      rintro (rfl | h)
      · rw [ha] at hb
        exact absurd hb Bool.false_ne_true
      · exact h
    · rfl

/-- What trimming takes away can be stored. -/
lemma storableText_trim (s : String) : storableText (trim s) = storableText s := by
  have hnul : isTrimmable '\x00' = false := by decide
  rw [storableText, storableText, trim, String.toList_ofList]
  congr 1
  rw [eq_iff_iff, not_iff_not, List.mem_reverse, mem_dropWhile_of_not hnul, List.mem_reverse,
    mem_dropWhile_of_not hnul]

lemma mem_takeUnits {n : ℕ} {cs : List Char} {c : Char} (h : c ∈ takeUnits n cs) :
    c ∈ cs ∨ c = '\uFFFD' := by
  induction cs generalizing n with
  | nil => simp [takeUnits] at h
  | cons d cs ih =>
    rw [takeUnits] at h
    by_cases hwidth : (if d.toNat < 0x10000 then 1 else 2) ≤ n
    · rw [if_pos hwidth, List.mem_cons] at h
      rcases h with rfl | h
      · exact .inl List.mem_cons_self
      · exact (ih h).imp_left (List.mem_cons_of_mem _)
    · rw [if_neg hwidth] at h
      split_ifs at h
      · exact .inr (List.mem_singleton.1 h)
      · nomatch h

lemma storableText_append {s t : String} :
    storableText (s ++ t) = (storableText s && storableText t) := by
  simp [storableText]

/-- The candidates are parameters of a query that takes them exactly if the name can be stored. -/
lemma storable_candidates (name : String) :
    (buildImportNameCandidates name).all storableText = storableText name := by
  have hsuffix : ∀ i ∈ List.range maxImportNameAttempts, storableText (importSuffix (i + 1)) =
      true := by
    decide +kernel
  rw [buildImportNameCandidates, List.all_cons, storableText_trim, Bool.eq_iff_iff,
    Bool.and_eq_true]
  refine ⟨And.left, fun hname => ⟨hname, List.all_eq_true.2 fun c hc => ?_⟩⟩
  obtain ⟨i, hi, rfl⟩ := List.mem_map.1 hc
  rw [storableText_append, hsuffix i hi, Bool.and_true, storableText, String.toList_ofList,
    decide_eq_true_iff]
  intro hmem
  have htake : '\x00' ∈ takeUnits (importNameMaxLength - Js.length (importSuffix (i + 1)))
      (trim name).toList := by
    have hdrop := List.mem_reverse.1 hmem
    exact List.mem_reverse.1 ((List.dropWhile_sublist _).subset hdrop)
  rcases mem_takeUnits htake with h | h
  · rw [← storableText_trim, storableText, decide_eq_true_iff] at hname
    exact hname h
  · exact absurd h (by decide)

/-- An import has a name exactly if there is an override or the name can be stored. -/
lemma importName_ok {db : Tables} (h : importName ctx db override bundleName = .ok name) :
    (trim (override.getD "") = "" → storableText bundleName = true) ∧
      (storableText name = true ↔ storableText (trim (override.getD "")) = true) := by
  rw [importName] at h
  by_cases hempty : trim (override.getD "") = ""
  · rw [if_pos hempty, resolveImportProjectName, checked_ok, storable_candidates] at h
    obtain ⟨hstorable, rfl⟩ := h
    refine ⟨fun _ => hstorable, ?_⟩
    rw [hempty]
    refine iff_of_true ?_ (by decide)
    have hall := List.all_eq_true.1 ((storable_candidates bundleName).trans hstorable)
    split_ifs
    · rw [pickImportName]
      cases hfind : List.find? _ (buildImportNameCandidates bundleName) with
      | none =>
        have hlast : (buildImportNameCandidates bundleName).getLastD "" ∈
            "" :: buildImportNameCandidates bundleName := List.getLastD_mem_cons
        rw [Option.getD_none]
        rcases List.mem_cons.1 hlast with hlast | hlast
        · rw [hlast]
          decide
        · exact hall _ hlast
      | some c => exact hall c (List.mem_of_find?_eq_some hfind)
    · exact hstorable
  · rw [if_neg hempty, ok_iff] at h
    rw [h]
    exact ⟨fun h' => absurd h' hempty, Iff.rfl⟩

/-- Where nothing is taken, an import without an override keeps the name of the payload. -/
lemma importName_of_no_projects {db : Tables} (hprojects : db.projects = [])
    (hempty : trim (override.getD "") = "") (hname : storableText bundleName = true) :
    importName ctx db override bundleName = .ok bundleName := by
  rw [importName, if_pos hempty, resolveImportProjectName, checked_ok, storable_candidates]
  refine ⟨hname, (if_neg ?_).symm⟩
  show ¬ (db.projects.any _) = true
  rw [hprojects, List.any_nil]
  exact Bool.false_ne_true

lemma importName_error {db : Tables} {e : ImportError}
    (h : importName ctx db override bundleName = .error e) :
    trim (override.getD "") = "" ∧ storableText bundleName = false := by
  rw [importName] at h
  by_cases hempty : trim (override.getD "") = ""
  · rw [if_pos hempty, resolveImportProjectName, checked, storable_candidates] at h
    refine ⟨hempty, ?_⟩
    by_contra hname
    rw [if_pos (Bool.not_eq_false _ ▸ hname)] at h
    cases h
  · rw [if_neg hempty] at h
    cases h

/-- The tables with one more project. -/
def Tables.withProject (db : Tables) (row : ProjectRow) : Tables :=
  { db with projects := db.projects ++ [row], nextId := db.nextId + 1 }

lemma fresh_withProject (db : Database) (row : ProjectRow) :
    Fresh (db.toTables.withProject row) db.nextId where
  credentials_lt := fun c hc => (db.credentials_lt c hc).trans_le (Nat.le_succ _)
  versions_lt := fun v hv => (db.versions_lt v hv).trans_le (Nat.le_succ _)
  rotations_lt := fun r hr => (db.rotations_lt r hr).trans_le (Nat.le_succ _)
  statusPages_ne := fun p hp => ((db.statusPages_lt p hp).2).ne
  services_lt := fun s hs => (db.services_lt s hs).trans_le (Nat.le_succ _)
  services_unique := db.services_unique

/-- The project of an import goes in exactly if its texts can be stored. -/
lemma insertProject_ok {db after : Tables} {id : ℕ} {description : Option String} :
    db.insertProject (projectRow ctx id name description) = .ok after ↔
      (storableText name = true ∧ storableText? description = true) ∧
        after = db.withProject (projectRow ctx id name description) := by
  rw [Tables.insertProject, checked_ok, ProjectRow.isValid, projectRow, List.all_nil,
    Bool.and_true, Bool.and_eq_true]
  rfl

/-- The rows of an accepted payload go into a new project exactly if it fits. -/
lemma populate_created {db : Database} {row : ProjectRow} {b : ExportBundle} {result : Tables}
    (h : exportBundleSchema.Accepts b) :
    populateProject ⟨ctx, db.nextId⟩ b (db.toTables.withProject row) = .ok result ↔
      b.Fits ctx ∧ result = (db.toTables.withProject row).populated ⟨ctx, db.nextId⟩ b := by
  rw [← takes_iff_fits h]
  obtain ⟨-, -, -, -, -, -, -, -, ⟨hpages, hservices⟩, -⟩ := h
  refine populateProject_ok (fresh_withProject db row) hpages fun page hpage => ?_
  exact (hservices page hpage).1.trans (by decide)

/-- An import whose project goes in: the slug may still be taken. -/
lemma importProjectBundle_of_project {db : Tables} {b : ExportBundle}
    (hname : importName ctx db override b.project.name = .ok name)
    (hpermitted : ctx.creationPermitted = true)
    (hproject : storableText name = true ∧ storableText? b.project.description = true) :
    importProjectBundle ctx db override b =
      if ctx.slugTaken = true then .ok (.createProjectFailed .projectSlugTaken, db)
      else (populateProject ⟨ctx, db.nextId⟩ b (db.withProject
          (projectRow ctx db.nextId name b.project.description))).map fun after =>
        (.ok db.nextId name (summarizeImportedCounts b), after) := by
  have hcreate : createProject ctx db name b.project.description =
      if ctx.slugTaken = true then .ok (.error .projectSlugTaken)
      else .ok (.ok (projectRow ctx db.nextId name b.project.description,
        db.withProject (projectRow ctx db.nextId name b.project.description))) := by
    have hinsert : db.insertProject (projectRow ctx db.nextId name b.project.description) =
        .ok (db.withProject (projectRow ctx db.nextId name b.project.description)) :=
      insertProject_ok.2 ⟨hproject, rfl⟩
    rw [createProject, if_neg (ne_of_eq_of_ne hpermitted (by decide))]
    dsimp only [bind, Except.bind]
    rw [hinsert]
    rfl
  rw [importProjectBundle, hname]
  dsimp only [bind, Except.bind]
  rw [hcreate]
  by_cases htaken : ctx.slugTaken = true
  · rw [if_pos htaken, if_pos htaken]
    rfl
  · rw [if_neg htaken, if_neg htaken]
    rfl

/-- An import whose project has a text that no column takes. -/
lemma importProjectBundle_of_not_project {db : Tables} {b : ExportBundle}
    (hname : importName ctx db override b.project.name = .ok name)
    (hpermitted : ctx.creationPermitted = true)
    (hproject : ¬ (storableText name = true ∧ storableText? b.project.description = true)) :
    importProjectBundle ctx db override b = .error (.refused "projects") := by
  have hinvalid : (projectRow ctx db.nextId name b.project.description).isValid = false := by
    rw [ProjectRow.isValid, projectRow, List.all_nil, Bool.and_true]
    simpa using hproject
  have hinsert : db.insertProject (projectRow ctx db.nextId name b.project.description) =
      .error (.refused "projects") := by
    rw [Tables.insertProject, checked, hinvalid]
    rfl
  have hcreate : createProject ctx db name b.project.description =
      .error (.refused "projects") := by
    rw [createProject, if_neg (ne_of_eq_of_ne hpermitted (by decide))]
    dsimp only [bind, Except.bind]
    rw [hinsert]
  rw [importProjectBundle, hname]
  dsimp only [bind, Except.bind]
  rw [hcreate]

/-! ### The import is complete -/

lemma complete_populated {db : Database} {row : ProjectRow} {b : ExportBundle}
    (h : exportBundleSchema.Accepts b) :
    Complete db.toTables b ((populateProject ⟨ctx, db.nextId⟩ b
        (db.toTables.withProject row)).map fun after =>
          (.ok db.nextId name (summarizeImportedCounts b), after)) ↔
      b.Fits ctx ∧ b.Resolved := by
  have hpages : b.statusPages.length ≤ 1 := by
    obtain ⟨-, -, -, -, -, -, -, -, ⟨hpages, -⟩, -⟩ := h
    exact hpages
  cases hpopulate : populateProject ⟨ctx, db.nextId⟩ b (db.toTables.withProject row) with
  | error e =>
    refine iff_of_false id fun hboth => ?_
    rw [(populate_created h).2 ⟨hboth.1, rfl⟩] at hpopulate
    nomatch hpopulate
  | ok after =>
    obtain ⟨hfits, rfl⟩ := (populate_created h).1 hpopulate
    have hcounts : ((db.toTables.withProject row).populated ⟨ctx, db.nextId⟩ b).rowCounts =
        db.rowCounts.add b.written := rowCounts_populated hpages
    rw [Except.map, Complete, hcounts, RowCounts.add_right_inj, written_eq_elements_iff]
    refine ⟨fun hcomplete => ⟨hfits, hcomplete.1⟩, fun hboth => ⟨hboth.2, ?_⟩⟩
    rw [written_eq_elements_iff.2 hboth.2]
    rfl

/-- The import of an accepted payload is refused cleanly, or inserts every row and counts them
right, exactly if the database takes its values and all its references resolve. -/
theorem import_complete_iff {db : Database} {override : Option String} {json : Json}
    {b : ExportBundle} (h : parseExportBundle json = some b) :
    Complete db.toTables b (importProjectBundle ctx db.toTables override b) ↔
      Importable ctx override b := by
  have haccepts : exportBundleSchema.Accepts b := exportBundleSchema.accepts_of_decode h
  cases hname : importName ctx db.toTables override b.project.name with
  | error e =>
    obtain ⟨hempty, hstorable⟩ := importName_error hname
    rw [importProjectBundle, hname]
    refine iff_of_false id fun himportable => ?_
    rw [himportable.name hempty] at hstorable
    nomatch hstorable
  | ok name =>
    obtain ⟨hstorable, hsame⟩ := importName_ok hname
    by_cases hpermitted : ctx.creationPermitted = true
    · by_cases hproject : storableText name = true ∧ storableText? b.project.description = true
      · have hrefused : Importable ctx override b ↔
            (ctx.slugTaken = false → b.Fits ctx ∧ b.Resolved) :=
          ⟨fun h => h.rows hpermitted, fun h =>
            ⟨hstorable, fun _ => ⟨hsame.1 hproject.1, hproject.2⟩, fun _ => h⟩⟩
        rw [importProjectBundle_of_project hname hpermitted hproject, hrefused]
        by_cases htaken : ctx.slugTaken = true
        · rw [if_pos htaken]
          exact iff_of_true rfl fun hfree => absurd (htaken.symm.trans hfree) (by decide)
        · rw [if_neg htaken]
          exact (complete_populated haccepts).trans
            (imp_iff_right (Bool.eq_false_iff.2 htaken)).symm
      · rw [importProjectBundle_of_not_project hname hpermitted hproject]
        refine iff_of_false id fun himportable => hproject ?_
        obtain ⟨hover, hdescription⟩ := himportable.project hpermitted
        exact ⟨hsame.2 hover, hdescription⟩
    · have hcreate : createProject ctx db.toTables name b.project.description =
          .ok (.error .projectCreationNotPermitted) := by
        rw [createProject, if_pos (Bool.eq_false_iff.2 hpermitted)]
      rw [importProjectBundle, hname]
      dsimp only [bind, Except.bind]
      rw [hcreate]
      exact iff_of_true rfl
        ⟨hstorable, fun h => absurd h hpermitted, fun h => absurd h hpermitted⟩

section Samples

/-- A context in which nothing stands in the way of a project. -/
def sampleContext : ImportContext :=
  { orgId := 1, userId := 1, now := .epoch
    parseDate := fun s => if s = "1970-01-01T00:00:00.000Z" then some 0 else none
    normalizeName := id, creationPermitted := true, slugTaken := false }

/-- A payload with nothing in it. -/
def emptyBundle : ExportBundle :=
  { project := { name := "vault", description := none, tags := [] }
    credentials := [], credentialDependencies := [], rotations := [], certRecords := []
    domainRecords := [], serviceEndpoints := [], statusPages := [], machineUsers := [] }

/-- A promoted version with a value. -/
def sampleVersion (versionNumber : ℕ) : ExportVersion :=
  { versionNumber, schemaVersion := 1, fieldMeta := .null, value := some "s", promoted := true
    createdAt := some "1970-01-01T00:00:00.000Z" }

/-- A credential with the versions. -/
def sampleCredential (versions : List ExportVersion) : ExportCredential :=
  { name := "DB", description := none, tags := [], expiresAt := none, alertLeadDays := []
    notifiedLeadDays := [], rotationSchedule := none, retentionCount := 3, cacheable := true
    createdAt := some "1970-01-01T00:00:00.000Z", currentVersionNumber := some 1, versions }

/-- A rotation of the first credential from version 1 to version 2. -/
def sampleRotation (status : RotationStatus) : ExportRotation :=
  { credentialIndex := 0, newVersionNumber := 2, previousVersionNumber := 1, status
    initiatedAt := some "1970-01-01T00:00:00.000Z", completedAt := none, promotedAt := none
    retiredAt := none, notes := none, targetFields := none, checklistItems := [] }

/-- A service of the status page for the first endpoint. -/
def sampleService : ExportStatusPageService :=
  { serviceIndex := 0, displayName := "API", sortOrder := 0 }

/-- An endpoint checked so often. -/
def sampleEndpoint (checkFrequencyMinutes : ℤ) : ExportServiceEndpoint :=
  { name := "API", url := "https://api.example", checkFrequencyMinutes
    downThresholdFailures := 3 }

/-- A credential with two versions and a rotation from the first to the second. -/
def rotatedBundle (status : RotationStatus) : ExportBundle :=
  { emptyBundle with
    credentials := [sampleCredential [sampleVersion 1, sampleVersion 2]]
    rotations := [sampleRotation status] }

/-- Accepted payloads that the database refuses, or of which elements are dropped. -/
def incompleteBundles : List ExportBundle :=
  [{ emptyBundle with credentials := [sampleCredential [sampleVersion 1, sampleVersion 1]] },
    { emptyBundle with credentials := [sampleCredential [sampleVersion 2147483648]] },
    { emptyBundle with
      credentials := [{ sampleCredential [sampleVersion 1] with expiresAt := some "soon" }] },
    { emptyBundle with
      credentials := [{ sampleCredential [sampleVersion 1] with name := "D\x00B" }] },
    { emptyBundle with
      credentials := [sampleCredential [sampleVersion 1, sampleVersion 2]]
      rotations := [sampleRotation .promoted, sampleRotation .staged] },
    { emptyBundle with serviceEndpoints := [sampleEndpoint 7] },
    { emptyBundle with
      serviceEndpoints := [sampleEndpoint 5]
      statusPages := [{ services := [sampleService, sampleService] }] },
    { emptyBundle with
      credentialDependencies := [{ credentialIndex := 0, systemName := "ci", systemType := .other
                                   notes := none, linkUrl := none, fieldKey := none }] },
    { emptyBundle with rotations := [sampleRotation .completed] },
    { emptyBundle with statusPages := [{ services := [] }] }]

/-- The outcome is an error, or rows are missing. -/
def fallsShort (before : Tables) (b : ExportBundle) :
    Except ImportError (ImportProjectBundleResult × Tables) → Bool
  | .error _ => true
  | .ok (.createProjectFailed _, _) => false
  | .ok (.ok _ _ _, after) => after.rowCounts ≠ before.rowCounts.add b.elements

lemma not_complete_of_fallsShort {before : Tables} {b : ExportBundle}
    {outcome : Except ImportError (ImportProjectBundleResult × Tables)}
    (h : fallsShort before b outcome = true) : ¬ Complete before b outcome := by
  match outcome with
  | .error _ => exact id
  | .ok (.createProjectFailed _, _) => nomatch h
  | .ok (.ok _ _ _, after) => exact fun hcomplete => (of_decide_eq_true h) hcomplete.1

/-- A payload whose own encoding is accepted is what the encoding is read as. -/
lemma parseExportBundle_encode {b : ExportBundle}
    (h : (parseExportBundle (exportBundleSchema.encode b)).isSome = true) :
    parseExportBundle (exportBundleSchema.encode b) = some b :=
  exportBundleSchema.decode_encode.2 ⟨rfl, exportBundleSchema.isSome_decode_encode.1 h⟩

lemma rotatedBundle_accepted (status : RotationStatus) :
    parseExportBundle (exportBundleSchema.encode (rotatedBundle status)) =
      some (rotatedBundle status) :=
  parseExportBundle_encode (by cases status <;> decide +kernel)

/-- The rotated credential goes in, and is counted. -/
theorem import_complete_rotated : Complete Database.empty.toTables (rotatedBundle .completed)
    (importProjectBundle sampleContext Database.empty.toTables none (rotatedBundle .completed)) := by
  refine (import_complete_iff (rotatedBundle_accepted .completed)).2 ⟨fun _ => by decide,
    fun _ => ⟨by decide, by decide⟩, fun _ _ => ⟨?_, ?_⟩⟩
  · exact
      { credentials := by decide
        versions := by simp [rotatedBundle, sampleCredential, sampleVersion, emptyBundle, maxInteger, storableJson]
        distinctVersions := by decide
        dependencies := by decide
        rotations := by decide
        oneActive := by decide
        certRecords := by decide
        domainRecords := by decide
        endpointTexts := by decide
        endpointChecks := by decide
        services := by decide
        distinctServices := by decide
        machineUsers := by decide }
  · exact
      { dependencies := by decide
        rotations := by decide
        statusPages := fun h => absurd rfl h
        services := nofun }

/-- An import into empty tables is the import under the name of the payload. -/
lemma importProjectBundle_empty {b : ExportBundle} (hname : trim b.project.name = b.project.name)
    (hne : b.project.name ≠ "") (hstorable : storableText b.project.name = true) :
    importProjectBundle ctx Database.empty.toTables none b =
      importProjectBundle ctx Database.empty.toTables (some b.project.name) b := by
  have hoverride : importName ctx Database.empty.toTables (some b.project.name) b.project.name =
      .ok b.project.name := by
    rw [importName, Option.getD_some, hname, if_neg hne]
  rw [importProjectBundle, importProjectBundle, hoverride,
    importName_of_no_projects rfl (by decide) hstorable]

/-- Accepted payloads fail with a database error, or lose rows that are counted all the same. -/
theorem import_incomplete : incompleteBundles.Forall fun b =>
    parseExportBundle (exportBundleSchema.encode b) = some b ∧
      ¬ Complete Database.empty.toTables b
        (importProjectBundle sampleContext Database.empty.toTables none b) := by
  have hrun : ∀ b ∈ incompleteBundles,
      (parseExportBundle (exportBundleSchema.encode b)).isSome = true ∧
        fallsShort Database.empty.toTables b
          (importProjectBundle sampleContext Database.empty.toTables (some "vault") b) = true := by
    decide +kernel
  have hname : ∀ b ∈ incompleteBundles, b.project.name = "vault" := by decide
  refine List.forall_iff_forall_mem.2 fun b hb => ⟨parseExportBundle_encode (hrun b hb).1, ?_⟩
  rw [importProjectBundle_empty] <;> rw [hname b hb]
  · exact not_complete_of_fallsShort (hrun b hb).2
  · decide
  · decide
  · decide

end Samples

end ProjectVault.ProjectExport
