import ProjectVault.ProjectExport.ImportMonitoring

/-!
When an import goes through, and what it leaves behind.
-/

namespace ProjectVault.ProjectExport

open Js

variable {target : ImportTarget}
variable {b : ExportBundle} {r : ExportRotation} {cs : List ExportCredential} {id : ℕ}

/-! ### References inside a payload -/

/-- The `k`-th credential of the payload has a version of the number. -/
def ExportBundle.hasVersion (b : ExportBundle) (k number : ℕ) : Bool :=
  (b.credentials[k]?).any fun c => c.versions.any fun v => v.versionNumber = number

/-- A rotation that names a version the payload does not have. -/
def ExportBundle.isDangling (b : ExportBundle) (r : ExportRotation) : Bool :=
  !(b.hasVersion r.credentialIndex r.newVersionNumber &&
    b.hasVersion r.credentialIndex r.previousVersionNumber)

/-- The ids of the credentials and versions of a payload, numbered from `id`. -/
def ExportBundle.inserted (b : ExportBundle) (id : ℕ) : InsertedCredentials :=
  { newCredentialIds := credentialIdsFrom b.credentials id
    newVersionIdByKey := allVersionIdsFrom b.credentials 0 id fun _ => none }

lemma isSome_versionIdsFrom {k : ℕ} {vs : List ExportVersion} {ids : VersionIds} {key : ℕ × ℕ} :
    (versionIdsFrom k vs id ids key).isSome = true ↔
      (ids key).isSome = true ∨ key.1 = k ∧ ∃ v ∈ vs, v.versionNumber = key.2 := by
  induction vs generalizing id ids with
  | nil => simp [versionIdsFrom]
  | cons v vs ih =>
    rw [versionIdsFrom, ih]
    by_cases hkey : key = (k, v.versionNumber)
    · subst hkey
      simp
    · have hne : ¬ (key.1 = k ∧ v.versionNumber = key.2) := by
        rintro ⟨rfl, hv⟩
        exact hkey (Prod.ext rfl hv.symm)
      rw [Function.update_of_ne hkey]
      constructor
      · rintro (h | ⟨hk, w, hw, hnumber⟩)
        · exact .inl h
        · exact .inr ⟨hk, w, List.mem_cons_of_mem _ hw, hnumber⟩
      · rintro (h | ⟨hk, w, hw, hnumber⟩)
        · exact .inl h
        · rcases List.mem_cons.1 hw with rfl | hw
          · exact absurd ⟨hk, hnumber⟩ hne
          · exact .inr ⟨hk, w, hw, hnumber⟩

lemma isSome_allVersionIdsFrom {k : ℕ} {ids : VersionIds} {key : ℕ × ℕ} :
    (allVersionIdsFrom cs k id ids key).isSome = true ↔
      (ids key).isSome = true ∨ ∃ i c, cs[i]? = some c ∧ key.1 = k + i ∧
        ∃ v ∈ c.versions, v.versionNumber = key.2 := by
  induction cs generalizing k id ids with
  | nil => simp [allVersionIdsFrom]
  | cons c cs ih =>
    rw [allVersionIdsFrom, ih, isSome_versionIdsFrom, or_assoc]
    refine or_congr_right ?_
    constructor
    · rintro (⟨hk, hv⟩ | ⟨i, c', hc', hk, hv⟩)
      · exact ⟨0, c, rfl, hk, hv⟩
      · exact ⟨i + 1, c', hc', by omega, hv⟩
    · rintro ⟨i, c', hc', hk, hv⟩
      cases i with
      | zero =>
        obtain rfl : c = c' := by simpa using hc'
        exact .inl ⟨hk, hv⟩
      | succ i => exact .inr ⟨i, c', hc', by omega, hv⟩

lemma isSome_inserted (b : ExportBundle) (id k number : ℕ) :
    ((b.inserted id).newVersionIdByKey (k, number)).isSome = b.hasVersion k number := by
  rw [Bool.eq_iff_iff]
  refine isSome_allVersionIdsFrom.trans ?_
  simp [ExportBundle.hasVersion, Option.any_eq_true]

/-- A rotation is passed over exactly if it is dangling. -/
lemma isSome_resolve (b : ExportBundle) (id : ℕ) (r : ExportRotation) :
    ((b.inserted id).resolve r).isSome = !b.isDangling r := by
  have hnew := isSome_inserted b id r.credentialIndex r.newVersionNumber
  have hprevious := isSome_inserted b id r.credentialIndex r.previousVersionNumber
  rw [ExportBundle.isDangling, ← hnew, ← hprevious, InsertedCredentials.resolve, Bool.not_not]
  cases (b.inserted id).newVersionIdByKey (r.credentialIndex, r.newVersionNumber) with
  | none => rfl
  | some newId =>
    cases (b.inserted id).newVersionIdByKey (r.credentialIndex, r.previousVersionNumber) with
    | none => rfl
    | some previousId => rfl

lemma index_lt_of_not_dangling (h : b.isDangling r = false) :
    r.credentialIndex < b.credentials.length := by
  simp only [ExportBundle.isDangling, Bool.not_eq_false', Bool.and_eq_true] at h
  obtain ⟨c, hc, -⟩ := (Option.any_eq_true _ _).1 h.1
  exact (List.getElem?_eq_some_iff.1 hc).1

lemma credentialOf_eq (h : r.credentialIndex < b.credentials.length) :
    (b.inserted id).credentialOf r = (credentialIdsFrom b.credentials id).get ⟨r.credentialIndex,
      by rwa [length_credentialIdsFrom]⟩ := by
  rw [InsertedCredentials.credentialOf, List.getD_eq_getElem?_getD, List.getElem?_eq_getElem,
    Option.getD_some]
  rfl

/-- Two rotations of the payload that are active on one credential. -/
def ExportBundle.Clash (b : ExportBundle) (r s : ExportRotation) : Prop :=
  b.isDangling r = false ∧ b.isDangling s = false ∧ r.isActive = true ∧ s.isActive = true ∧
    r.credentialIndex = s.credentialIndex

instance (b : ExportBundle) (r s : ExportRotation) : Decidable (b.Clash r s) :=
  inferInstanceAs (Decidable (_ ∧ _))

lemma clash_iff {s : ExportRotation} :
    (b.inserted id).Clash r s ↔ b.Clash r s := by
  rw [InsertedCredentials.Clash, ExportBundle.Clash, isSome_resolve, isSome_resolve,
    Bool.not_eq_true', Bool.not_eq_true']
  refine and_congr_right fun hr => and_congr_right fun hs => and_congr_right fun _ =>
    and_congr_right fun _ => ?_
  rw [credentialOf_eq (index_lt_of_not_dangling hr), credentialOf_eq (index_lt_of_not_dangling hs)]
  exact List.Nodup.getElem_inj_iff (nodup_credentialIdsFrom _ _)

lemma getElem?_credentialIdsFrom_isSome {i : ℕ} :
    (credentialIdsFrom cs id)[i]?.isSome = decide (i < cs.length) := by
  rw [Bool.eq_iff_iff, decide_eq_true_iff, Option.isSome_iff_exists]
  constructor
  · rintro ⟨c, hc⟩
    have := (List.getElem?_eq_some_iff.1 hc).1
    rwa [length_credentialIdsFrom] at this
  · intro h
    exact ⟨_, List.getElem?_eq_getElem (by rwa [length_credentialIdsFrom])⟩

/-- The dependencies that go in are those whose index is in range. -/
lemma forall_dependenciesInRange {deps : List ExportDependency} {p : ExportDependency → Prop} :
    (∀ q ∈ dependenciesInRange (credentialIdsFrom cs id) deps, p q.2) ↔
      ∀ d ∈ deps, d.credentialIndex < cs.length → p d := by
  simp only [dependenciesInRange, List.mem_filterMap, Option.map_eq_some_iff]
  constructor
  · intro h d hd hlt
    have hlt' : d.credentialIndex < (credentialIdsFrom cs id).length := by
      rwa [length_credentialIdsFrom]
    exact h ((credentialIdsFrom cs id)[d.credentialIndex], d)
      ⟨d, hd, _, List.getElem?_eq_getElem hlt', rfl⟩
  · rintro h _ ⟨d, hd, _, hget, rfl⟩
    have := (List.getElem?_eq_some_iff.1 hget).1
    exact h d hd (by rwa [length_credentialIdsFrom] at this)

lemma length_dependenciesInRange (cs : List ExportCredential) (id : ℕ)
    (deps : List ExportDependency) :
    (dependenciesInRange (credentialIdsFrom cs id) deps).length =
      deps.countP fun d => d.credentialIndex < cs.length := by
  rw [dependenciesInRange, List.length_filterMap_eq_countP]
  refine List.countP_congr fun d _ => ?_
  rw [Option.isSome_map, getElem?_credentialIdsFrom_isSome]

/-! ### The rows of a project -/

/-- Rows inserted into the tables do not meet the rows that are there. -/
structure Fresh (db : Tables) (projectId : ℕ) : Prop where
  credentials_lt : ∀ c ∈ db.credentials, c.id < db.nextId
  versions_lt : ∀ v ∈ db.versions, v.credentialId < db.nextId
  rotations_lt : ∀ r ∈ db.rotations, r.credentialId < db.nextId
  statusPages_ne : ∀ p ∈ db.statusPages, p.projectId ≠ projectId
  services_lt : ∀ s ∈ db.statusPageServices, s.statusPageId < db.nextId
  services_unique : (db.statusPageServices.map fun s => (s.statusPageId, s.serviceId)).Nodup

/-- The services of the payload that name an endpoint of it. -/
def ExportBundle.services (b : ExportBundle) : List ExportStatusPageService :=
  b.statusPages.flatMap fun page => page.services.filter fun s =>
    s.serviceIndex < b.serviceEndpoints.length

/-- The database takes the rows of the payload. -/
structure ExportBundle.Takes (ctx : ImportContext) (b : ExportBundle) : Prop where
  credentials : ∀ c ∈ b.credentials, c.fits ctx = true
  dependencies : ∀ d ∈ b.credentialDependencies, d.credentialIndex < b.credentials.length →
    d.fits = true
  rotations : ∀ r ∈ b.rotations, b.isDangling r = false → r.fits ctx = true
  oneActive : b.rotations.Pairwise fun r s => ¬ b.Clash r s
  certRecords : ∀ c ∈ b.certRecords, c.fits ctx = true
  domainRecords : ∀ d ∈ b.domainRecords, d.fits ctx = true
  serviceEndpoints : ∀ e ∈ b.serviceEndpoints, e.fits = true
  services : ∀ s ∈ b.services, s.fits = true
  distinctServices : (b.services.map ExportStatusPageService.serviceIndex).Nodup
  machineUsers : ∀ m ∈ b.machineUsers, m.fits = true

/-- The tables before the endpoints. -/
def Tables.withoutMonitoring (db : Tables) (target : ImportTarget) (b : ExportBundle) : Tables :=
  let inserted := b.inserted db.nextId
  let db := db.withCredentials target (db.keyVersion.getD 1) b.credentials
  let db := db.withDependencies (dependencyRowsFrom target
    (dependenciesInRange inserted.newCredentialIds b.credentialDependencies) db.nextId)
  let db := db.withRotations target inserted b.rotations
  let db := db.withCertRecords (certRowsFrom target b.certRecords db.nextId)
  db.withDomainRecords (domainRowsFrom target b.domainRecords db.nextId)

/-- The tables with the rows of the payload. -/
def Tables.populated (db : Tables) (target : ImportTarget) (b : ExportBundle) : Tables :=
  let db := db.withoutMonitoring target b
  let newServiceIds := List.range' db.nextId b.serviceEndpoints.length
  let db := db.withEndpoints (endpointRowsFrom target b.serviceEndpoints db.nextId)
  let db := db.withStatusPage target newServiceIds b.statusPages.head?
  db.withMachineUsers
    (b.machineUsers.mapIdx fun i user => machineUserRow target (db.nextId + i) user)

lemma withRotations_frame (target : ImportTarget) (inserted : InsertedCredentials)
    (rs : List ExportRotation) (db : Tables) :
    (db.withRotations target inserted rs).statusPages = db.statusPages ∧
      (db.withRotations target inserted rs).statusPageServices = db.statusPageServices ∧
      db.nextId ≤ (db.withRotations target inserted rs).nextId := by
  induction rs generalizing db with
  | nil => exact ⟨rfl, rfl, le_rfl⟩
  | cons r rs ih =>
    obtain ⟨hpages, hservices, hnext⟩ := ih (db.withRotation target inserted r)
    have hone : (db.withRotation target inserted r).statusPages = db.statusPages ∧
        (db.withRotation target inserted r).statusPageServices = db.statusPageServices ∧
        db.nextId ≤ (db.withRotation target inserted r).nextId := by
      rw [Tables.withRotation]
      cases inserted.resolve r with
      | none => exact ⟨rfl, rfl, le_rfl⟩
      | some ids => exact ⟨rfl, rfl, by dsimp only; omega⟩
    exact ⟨hpages.trans hone.1, hservices.trans hone.2.1, hone.2.2.trans hnext⟩

lemma withoutMonitoring_frame (target : ImportTarget) (b : ExportBundle) (db : Tables) :
    (db.withoutMonitoring target b).statusPages = db.statusPages ∧
      (db.withoutMonitoring target b).statusPageServices = db.statusPageServices ∧
      db.nextId ≤ (db.withoutMonitoring target b).nextId := by
  obtain ⟨hpages, hservices, hnext⟩ := withRotations_frame target (b.inserted db.nextId) b.rotations
    ((db.withCredentials target (db.keyVersion.getD 1) b.credentials).withDependencies
      (dependencyRowsFrom target
        (dependenciesInRange (b.inserted db.nextId).newCredentialIds b.credentialDependencies)
        (afterCredentials b.credentials db.nextId)))
  refine ⟨hpages, hservices, ?_⟩
  calc db.nextId
      ≤ afterCredentials b.credentials db.nextId := le_afterCredentials _ _
    _ ≤ _ := Nat.le_add_right _ _
    _ ≤ _ := hnext
    _ ≤ _ := Nat.le_add_right _ _
    _ ≤ _ := Nat.le_add_right _ _

lemma isSome_getElem?_range' {start n i : ℕ} :
    (List.range' start n)[i]?.isSome = decide (i < n) := by
  rw [Bool.eq_iff_iff, decide_eq_true_iff, Option.isSome_iff_exists]
  constructor
  · rintro ⟨c, hc⟩
    have := (List.getElem?_eq_some_iff.1 hc).1
    rwa [List.length_range'] at this
  · intro h
    exact ⟨_, List.getElem?_eq_getElem (by rwa [List.length_range'])⟩

/-- With at most one page, the services of the payload are those of the page that resolve. -/
lemma services_of_head? (hpages : b.statusPages.length ≤ 1) (start : ℕ) :
    ∀ page ∈ b.statusPages.head?,
      page.resolved (List.range' start b.serviceEndpoints.length) = b.services := by
  intro page hpage
  obtain ⟨rest, hrest⟩ := List.head?_eq_some_iff.1 hpage
  have hnil : rest = [] := by
    rw [hrest, List.length_cons] at hpages
    exact List.eq_nil_of_length_eq_zero (by omega)
  rw [ExportBundle.services, hrest, hnil, List.flatMap_singleton, ExportStatusPage.resolved]
  exact List.filter_congr fun s _ => isSome_getElem?_range'

lemma insertCredentialsAndVersions_ok {db : Tables} {result : InsertedCredentials × Tables}
    (hfresh : Fresh db target.projectId) :
    insertCredentialsAndVersions target b db = .ok result ↔
      (∀ c ∈ b.credentials, c.fits target.ctx = true) ∧
        result = (b.inserted db.nextId,
          db.withCredentials target (db.keyVersion.getD 1) b.credentials) :=
  insertCredentialsFrom_ok hfresh.credentials_lt hfresh.versions_lt

/-- The status page goes in exactly if its services fit and name distinct endpoints. -/
lemma insertStatusPage_ok_of_fresh {db after : Tables} (hfresh : Fresh db target.projectId)
    (hpages : b.statusPages.length ≤ 1)
    (hservices : ∀ page ∈ b.statusPages, page.services.length ≤ maxInteger) :
    insertStatusPage target
        (List.range' (db.withoutMonitoring target b).nextId b.serviceEndpoints.length)
        b.statusPages.head? ((db.withoutMonitoring target b).withEndpoints
          (endpointRowsFrom target b.serviceEndpoints (db.withoutMonitoring target b).nextId)) =
        .ok after ↔
      ((∀ s ∈ b.services, s.fits = true) ∧
        (b.services.map ExportStatusPageService.serviceIndex).Nodup) ∧
      after = ((db.withoutMonitoring target b).withEndpoints
        (endpointRowsFrom target b.serviceEndpoints
          (db.withoutMonitoring target b).nextId)).withStatusPage target
        (List.range' (db.withoutMonitoring target b).nextId b.serviceEndpoints.length)
        b.statusPages.head? := by
  obtain ⟨hpage, hservice, hnext⟩ := withoutMonitoring_frame target b db
  rw [insertStatusPage_ok]
  · refine and_congr_left fun _ => ?_
    cases hhead : b.statusPages.head? with
    | none =>
      have hnil : b.services = [] := by
        rw [ExportBundle.services, List.head?_eq_none_iff.1 hhead]
        rfl
      simp [hnil]
    | some page =>
      rw [← services_of_head? hpages (db.withoutMonitoring target b).nextId page hhead]
      simp
  · intro p hp
    exact hfresh.statusPages_ne p (by rw [← hpage]; exact hp)
  · intro s hs
    exact (hfresh.services_lt s (by rw [← hservice]; exact hs)).trans_le
      (hnext.trans (Nat.le_add_right _ _))
  · rw [show ((db.withoutMonitoring target b).withEndpoints _).statusPageServices =
      db.statusPageServices from hservice]
    exact hfresh.services_unique
  · exact List.nodup_range'
  · intro id hid
    rw [← map_id_endpointRowsFrom target] at hid
    obtain ⟨e, he, rfl⟩ := List.mem_map.1 hid
    exact ⟨e, List.mem_append_right _ he, rfl, projectId_of_mem_endpointRowsFrom he⟩
  · intro page hpage
    exact hservices page (List.mem_of_head? hpage)

/-- The rows of a project go in exactly if the database takes them. -/
theorem populateProject_ok {db result : Tables} (hfresh : Fresh db target.projectId)
    (hpages : b.statusPages.length ≤ 1)
    (hservices : ∀ page ∈ b.statusPages, page.services.length ≤ maxInteger) :
    populateProject target b db = .ok result ↔
      b.Takes target.ctx ∧ result = db.populated target b := by
  have hunblocked : ∀ r : ExportRotation, b.isDangling r = false →
      Unblocked db.rotations ((b.inserted db.nextId).credentialOf r) := by
    intro r hr q hq _ heq
    have hlt := hfresh.rotations_lt q hq
    rw [heq, credentialOf_eq (index_lt_of_not_dangling hr)] at hlt
    have hle := (mem_credentialIdsFrom_bounds (List.get_mem (credentialIdsFrom b.credentials
      db.nextId) ⟨r.credentialIndex, (length_credentialIdsFrom _ _).symm ▸
        index_lt_of_not_dangling hr⟩)).1
    omega
  constructor
  · intro h
    obtain ⟨_, h₁, h⟩ := bind_eq_ok.1 h
    obtain ⟨hcredentials, rfl⟩ := (insertCredentialsAndVersions_ok hfresh).1 h₁
    obtain ⟨_, h₂, h⟩ := bind_eq_ok.1 h
    obtain ⟨hdependencies, rfl⟩ := insertDependencies_ok.1 h₂
    obtain ⟨_, h₃, h⟩ := bind_eq_ok.1 h
    obtain ⟨⟨hrotations, hclash⟩, rfl⟩ := insertRotations_ok.1 h₃
    obtain ⟨_, h₄, h⟩ := bind_eq_ok.1 h
    obtain ⟨_, hcert, hdomain⟩ := bind_eq_ok.1 h₄
    obtain ⟨hcerts, rfl⟩ := insertCerts_ok.1 hcert
    obtain ⟨hdomains, rfl⟩ := insertDomains_ok.1 hdomain
    obtain ⟨_, h₅, h⟩ := bind_eq_ok.1 h
    obtain ⟨_, hendpoint, hpage⟩ := bind_eq_ok.1 h₅
    obtain ⟨hendpoints, rfl⟩ := insertEndpoints_ok.1 hendpoint
    obtain ⟨⟨hfits, hdistinct⟩, rfl⟩ :=
      (insertStatusPage_ok_of_fresh hfresh hpages hservices).1 hpage
    obtain ⟨husers, rfl⟩ := insertMachineUsers_ok.1 h
    refine ⟨?_, rfl⟩
    exact
      { credentials := hcredentials
        dependencies := forall_dependenciesInRange.1 hdependencies
        rotations := fun r hr hdangling =>
          (hrotations r hr (by rw [isSome_resolve, hdangling]; rfl)).1
        oneActive := hclash.imp fun h h' => h (clash_iff.2 h')
        certRecords := hcerts
        domainRecords := hdomains
        serviceEndpoints := hendpoints
        services := hfits
        distinctServices := hdistinct
        machineUsers := husers }
  · rintro ⟨htakes, rfl⟩
    refine bind_eq_ok.2 ⟨_, (insertCredentialsAndVersions_ok hfresh).2
      ⟨htakes.credentials, rfl⟩, ?_⟩
    refine bind_eq_ok.2 ⟨_, insertDependencies_ok.2
      ⟨forall_dependenciesInRange.2 htakes.dependencies, rfl⟩, ?_⟩
    refine bind_eq_ok.2 ⟨_, insertRotations_ok.2 ⟨⟨fun r hr hsome => ?_, ?_⟩, rfl⟩, ?_⟩
    · have hdangling : b.isDangling r = false := by
        rw [isSome_resolve] at hsome
        simpa using hsome
      exact ⟨htakes.rotations r hr hdangling, fun _ => hunblocked r hdangling⟩
    · exact htakes.oneActive.imp fun h h' => h (clash_iff.1 h')
    refine bind_eq_ok.2 ⟨_, bind_eq_ok.2 ⟨_, insertCerts_ok.2 ⟨htakes.certRecords, rfl⟩,
      insertDomains_ok.2 ⟨htakes.domainRecords, rfl⟩⟩, ?_⟩
    refine bind_eq_ok.2 ⟨_, bind_eq_ok.2 ⟨_, insertEndpoints_ok.2 ⟨htakes.serviceEndpoints, rfl⟩,
      (insertStatusPage_ok_of_fresh hfresh hpages hservices).2
        ⟨⟨htakes.services, htakes.distinctServices⟩, rfl⟩⟩, ?_⟩
    exact insertMachineUsers_ok.2 ⟨htakes.machineUsers, rfl⟩

end ProjectVault.ProjectExport
