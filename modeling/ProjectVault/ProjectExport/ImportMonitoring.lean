import ProjectVault.ProjectExport.ImportRows

/-!
What an import inserts for the monitored things, the status page and the machine users of a
payload, and when the database takes it.
-/

namespace ProjectVault.ProjectExport

open Js

variable {target : ImportTarget}

/-! ### Certificates and domains -/

/-- The database takes the certificate. -/
def ExportCertRecord.fits (ctx : ImportContext) (c : ExportCertRecord) : Bool :=
  dateFits ctx c.expiresAt && (charLengthBetween 1 256 c.domain && storableText c.domain)

/-- The database takes the domain. -/
def ExportDomainRecord.fits (ctx : ImportContext) (d : ExportDomainRecord) : Bool :=
  dateFits ctx d.renewalDate && (charLengthBetween 1 256 d.domainName && storableText d.domainName)

/-- The rows of the certificates, numbered from `id`. -/
def certRowsFrom (target : ImportTarget) : List ExportCertRecord → ℕ → List CertRow
  | [], _ => []
  | c :: cs, id =>
    certRow target id c (dateOf target.ctx c.expiresAt) :: certRowsFrom target cs (id + 1)

/-- The rows of the domains, numbered from `id`. -/
def domainRowsFrom (target : ImportTarget) : List ExportDomainRecord → ℕ → List DomainRow
  | [], _ => []
  | d :: ds, id =>
    domainRow target id d (dateOf target.ctx d.renewalDate) :: domainRowsFrom target ds (id + 1)

@[simp] lemma length_certRowsFrom (cs : List ExportCertRecord) (id : ℕ) :
    (certRowsFrom target cs id).length = cs.length := by
  induction cs generalizing id with
  | nil => rfl
  | cons c cs ih => rw [certRowsFrom, List.length_cons, List.length_cons, ih]

@[simp] lemma length_domainRowsFrom (ds : List ExportDomainRecord) (id : ℕ) :
    (domainRowsFrom target ds id).length = ds.length := by
  induction ds generalizing id with
  | nil => rfl
  | cons d ds ih => rw [domainRowsFrom, List.length_cons, List.length_cons, ih]

lemma certRows_ok {cs : List ExportCertRecord} {id : ℕ} {rows : List CertRow} :
    (certRows target cs id = .ok rows ∧ rows.all CertRow.isValid = true) ↔
      (∀ c ∈ cs, c.fits target.ctx = true) ∧ rows = certRowsFrom target cs id := by
  induction cs generalizing id rows with
  | nil =>
    rw [certRows, ok_iff]
    constructor
    · rintro ⟨rfl, -⟩
      exact ⟨by simp, rfl⟩
    · rintro ⟨-, rfl⟩
      exact ⟨rfl, rfl⟩
  | cons c cs ih =>
    simp only [certRows, bind_eq_ok, dateColumn_ok]
    constructor
    · rintro ⟨⟨_, ⟨hdate, rfl⟩, rest, hrest, hrows⟩, hvalid⟩
      cases hrows
      obtain ⟨hcolumns, hvalid⟩ := Bool.and_eq_true_iff.1 (List.all_cons ▸ hvalid)
      obtain ⟨hall, rfl⟩ := ih.1 ⟨hrest, hvalid⟩
      refine ⟨List.forall_mem_cons.2 ⟨?_, hall⟩, rfl⟩
      exact Bool.and_eq_true_iff.2 ⟨hdate, hcolumns⟩
    · rintro ⟨hfits, rfl⟩
      obtain ⟨hfirst, hrest⟩ := List.forall_mem_cons.1 hfits
      obtain ⟨hdate, hcolumns⟩ := Bool.and_eq_true_iff.1 hfirst
      obtain ⟨hrows, hvalid⟩ := ih.2 ⟨hrest, rfl⟩
      refine ⟨⟨_, ⟨hdate, rfl⟩, _, hrows, rfl⟩, ?_⟩
      rw [certRowsFrom, List.all_cons, Bool.and_eq_true]
      exact ⟨hcolumns, hvalid⟩

lemma domainRows_ok {ds : List ExportDomainRecord} {id : ℕ} {rows : List DomainRow} :
    (domainRows target ds id = .ok rows ∧ rows.all DomainRow.isValid = true) ↔
      (∀ d ∈ ds, d.fits target.ctx = true) ∧ rows = domainRowsFrom target ds id := by
  induction ds generalizing id rows with
  | nil =>
    rw [domainRows, ok_iff]
    constructor
    · rintro ⟨rfl, -⟩
      exact ⟨by simp, rfl⟩
    · rintro ⟨-, rfl⟩
      exact ⟨rfl, rfl⟩
  | cons d ds ih =>
    simp only [domainRows, bind_eq_ok, dateColumn_ok]
    constructor
    · rintro ⟨⟨_, ⟨hdate, rfl⟩, rest, hrest, hrows⟩, hvalid⟩
      cases hrows
      obtain ⟨hcolumns, hvalid⟩ := Bool.and_eq_true_iff.1 (List.all_cons ▸ hvalid)
      obtain ⟨hall, rfl⟩ := ih.1 ⟨hrest, hvalid⟩
      refine ⟨List.forall_mem_cons.2 ⟨?_, hall⟩, rfl⟩
      exact Bool.and_eq_true_iff.2 ⟨hdate, hcolumns⟩
    · rintro ⟨hfits, rfl⟩
      obtain ⟨hfirst, hrest⟩ := List.forall_mem_cons.1 hfits
      obtain ⟨hdate, hcolumns⟩ := Bool.and_eq_true_iff.1 hfirst
      obtain ⟨hrows, hvalid⟩ := ih.2 ⟨hrest, rfl⟩
      refine ⟨⟨_, ⟨hdate, rfl⟩, _, hrows, rfl⟩, ?_⟩
      rw [domainRowsFrom, List.all_cons, Bool.and_eq_true]
      exact ⟨hcolumns, hvalid⟩

/-- The tables with the certificates of the payload. -/
def Tables.withCertRecords (db : Tables) (rows : List CertRow) : Tables :=
  { db with certRecords := db.certRecords ++ rows, nextId := db.nextId + rows.length }

/-- The tables with the domains of the payload. -/
def Tables.withDomainRecords (db : Tables) (rows : List DomainRow) : Tables :=
  { db with domainRecords := db.domainRecords ++ rows, nextId := db.nextId + rows.length }

/-- The certificates go in exactly if each of them fits. -/
lemma insertCerts_ok {certs : List ExportCertRecord} {db result : Tables} :
    insertCerts target certs db = .ok result ↔
      (∀ c ∈ certs, c.fits target.ctx = true) ∧
        result = db.withCertRecords (certRowsFrom target certs db.nextId) := by
  rw [insertCerts]
  by_cases hnil : certs = []
  · rw [if_pos hnil, hnil, ok_iff]
    simp [certRowsFrom, Tables.withCertRecords]
  · rw [if_neg hnil, bind_eq_ok]
    simp only [Tables.insertCertRecords, checked_ok, ← and_assoc, certRows_ok]
    constructor
    · rintro ⟨_, ⟨hfits, rfl⟩, rfl⟩
      exact ⟨hfits, rfl⟩
    · rintro ⟨hfits, rfl⟩
      exact ⟨_, ⟨hfits, rfl⟩, rfl⟩

lemma insertDomains_ok {domains : List ExportDomainRecord} {db result : Tables} :
    insertDomains target domains db = .ok result ↔
      (∀ d ∈ domains, d.fits target.ctx = true) ∧
        result = db.withDomainRecords (domainRowsFrom target domains db.nextId) := by
  rw [insertDomains]
  by_cases hnil : domains = []
  · rw [if_pos hnil, hnil, ok_iff]
    simp [domainRowsFrom, Tables.withDomainRecords]
  · rw [if_neg hnil, bind_eq_ok]
    simp only [Tables.insertDomainRecords, checked_ok, ← and_assoc, domainRows_ok]
    constructor
    · rintro ⟨_, ⟨hfits, rfl⟩, rfl⟩
      exact ⟨hfits, rfl⟩
    · rintro ⟨hfits, rfl⟩
      exact ⟨_, ⟨hfits, rfl⟩, rfl⟩

/-! ### Endpoints -/

/-- The database takes the endpoint. -/
def ExportServiceEndpoint.fits (e : ExportServiceEndpoint) : Bool :=
  charLengthBetween 1 256 e.name && charLengthBetween 1 2048 e.url && storableText e.name &&
    storableText e.url && e.checkFrequencyMinutes ∈ [1, 5, 15, 30] &&
    1 ≤ e.downThresholdFailures && e.downThresholdFailures ≤ 10

/-- The rows of the endpoints, numbered from `id`. -/
def endpointRowsFrom (target : ImportTarget) : List ExportServiceEndpoint → ℕ → List EndpointRow
  | [], _ => []
  | e :: es, id => endpointRow target id e :: endpointRowsFrom target es (id + 1)

@[simp] lemma length_endpointRowsFrom (es : List ExportServiceEndpoint) (id : ℕ) :
    (endpointRowsFrom target es id).length = es.length := by
  induction es generalizing id with
  | nil => rfl
  | cons e es ih => rw [endpointRowsFrom, List.length_cons, List.length_cons, ih]

lemma map_id_endpointRowsFrom (target : ImportTarget) (es : List ExportServiceEndpoint) (id : ℕ) :
    (endpointRowsFrom target es id).map EndpointRow.id = List.range' id es.length := by
  induction es generalizing id with
  | nil => rfl
  | cons e es ih =>
    rw [endpointRowsFrom, List.map_cons, ih, List.length_cons, List.range'_succ]
    rfl

lemma projectId_of_mem_endpointRowsFrom {es : List ExportServiceEndpoint} {id : ℕ}
    {e : EndpointRow} (h : e ∈ endpointRowsFrom target es id) : e.projectId = target.projectId := by
  induction es generalizing id with
  | nil => simp [endpointRowsFrom] at h
  | cons first es ih =>
    rw [endpointRowsFrom, List.mem_cons] at h
    rcases h with rfl | h
    · rfl
    · exact ih h

/-- The tables with the endpoints of the payload. -/
def Tables.withEndpoints (db : Tables) (rows : List EndpointRow) : Tables :=
  { db with serviceEndpoints := db.serviceEndpoints ++ rows, nextId := db.nextId + rows.length }

lemma insertEndpoints_ok {es : List ExportServiceEndpoint} {newServiceIds : List ℕ} {db : Tables}
    {result : List ℕ × Tables} :
    insertEndpoints target es newServiceIds db = .ok result ↔
      (∀ e ∈ es, e.fits = true) ∧
        result = (newServiceIds ++ List.range' db.nextId es.length,
          db.withEndpoints (endpointRowsFrom target es db.nextId)) := by
  induction es generalizing newServiceIds db with
  | nil =>
    rw [insertEndpoints, ok_iff]
    simp [endpointRowsFrom, Tables.withEndpoints]
  | cons e es ih =>
    rw [insertEndpoints, bind_eq_ok]
    simp only [Tables.insertEndpoint, checked_ok]
    constructor
    · rintro ⟨_, ⟨hfirst, rfl⟩, hrun⟩
      obtain ⟨hrest, rfl⟩ := ih.1 hrun
      refine ⟨List.forall_mem_cons.2 ⟨hfirst, hrest⟩, ?_⟩
      simp [endpointRowsFrom, Tables.withEndpoints, List.range'_succ, Nat.add_assoc,
        Nat.add_comm 1]
    · rintro ⟨hfits, rfl⟩
      obtain ⟨hfirst, hrest⟩ := List.forall_mem_cons.1 hfits
      refine ⟨_, ⟨hfirst, rfl⟩, ih.2 ⟨hrest, ?_⟩⟩
      simp [endpointRowsFrom, Tables.withEndpoints, List.range'_succ, Nat.add_assoc,
        Nat.add_comm 1]

/-! ### The status page -/

/-- The database takes the service. -/
def ExportStatusPageService.fits (s : ExportStatusPageService) : Bool :=
  charLengthBetween 1 100 s.displayName && storableText s.displayName

/-- The services of the page that name an imported endpoint. -/
def ExportStatusPage.resolved (page : ExportStatusPage) (newServiceIds : List ℕ) :
    List ExportStatusPageService :=
  page.services.filter fun svc => newServiceIds[svc.serviceIndex]?.isSome

/-- The rows of the services of a page, numbered from `id`. -/
def statusPageServiceRowsFrom (target : ImportTarget) (statusPageId : ℕ)
    (services : List StatusPageServiceInput) (id : ℕ) : List StatusPageServiceRow :=
  services.mapIdx fun i service => statusPageServiceRow target statusPageId (id + i) i service

/-- The tables with the status page of the payload. -/
def Tables.withStatusPage (db : Tables) (target : ImportTarget) (newServiceIds : List ℕ) :
    Option ExportStatusPage → Tables
  | none => db
  | some page =>
    if newServiceIds = [] then db
    else
      { db with
        statusPages := db.statusPages ++ [statusPageRow target db.nextId],
        statusPageServices := db.statusPageServices ++
          statusPageServiceRowsFrom target db.nextId (importedServices newServiceIds page)
            (db.nextId + 1),
        nextId := db.nextId + 1 + (importedServices newServiceIds page).length }

section StatusPage

variable {page : ExportStatusPage} {newServiceIds : List ℕ}

lemma perm_importedServices : (importedServices newServiceIds page).Perm
    ((page.resolved newServiceIds).map fun svc =>
      { serviceId := newServiceIds.getD svc.serviceIndex 0, displayName := svc.displayName }) :=
  (List.perm_insertionSort _ _).map _

lemma mem_importedServices_serviceId {service : StatusPageServiceInput}
    (h : service ∈ importedServices newServiceIds page) : service.serviceId ∈ newServiceIds := by
  obtain ⟨svc, hsvc, rfl⟩ := List.mem_map.1 (perm_importedServices.mem_iff.1 h)
  obtain ⟨id, hid⟩ := Option.isSome_iff_exists.1 (List.mem_filter.1 hsvc).2
  show newServiceIds.getD svc.serviceIndex 0 ∈ newServiceIds
  rw [List.getD_eq_getElem?_getD, hid]
  exact List.mem_of_getElem? hid

lemma nodup_serviceIds (hids : newServiceIds.Nodup) :
    ((importedServices newServiceIds page).map StatusPageServiceInput.serviceId).Nodup ↔
      ((page.resolved newServiceIds).map ExportStatusPageService.serviceIndex).Nodup := by
  have hlt : ∀ i ∈ (page.resolved newServiceIds).map ExportStatusPageService.serviceIndex,
      i < newServiceIds.length := by
    intro i hi
    obtain ⟨svc, hsvc, rfl⟩ := List.mem_map.1 hi
    obtain ⟨id, hid⟩ := Option.isSome_iff_exists.1 (List.mem_filter.1 hsvc).2
    exact (List.getElem?_eq_some_iff.1 hid).1
  have hmap : (page.resolved newServiceIds).map (StatusPageServiceInput.serviceId ∘ fun svc =>
      { serviceId := newServiceIds.getD svc.serviceIndex 0, displayName := svc.displayName }) =
      ((page.resolved newServiceIds).map ExportStatusPageService.serviceIndex).map
        fun i => newServiceIds.getD i 0 := by
    rw [List.map_map]
    rfl
  rw [(perm_importedServices.map StatusPageServiceInput.serviceId).nodup_iff, List.map_map, hmap]
  constructor
  · exact List.Nodup.of_map _
  · refine List.Nodup.map_on fun i hi j hj heq => ?_
    have hi := hlt i hi
    have hj := hlt j hj
    rw [List.getD_eq_getElem?_getD, List.getD_eq_getElem?_getD, List.getElem?_eq_getElem hi,
      List.getElem?_eq_getElem hj, Option.getD_some, Option.getD_some] at heq
    exact (List.Nodup.getElem_inj_iff hids).1 heq

lemma valid_statusPageServiceRowsFrom {statusPageId id : ℕ}
    (hlength : page.services.length ≤ maxInteger) :
    (∀ r ∈ statusPageServiceRowsFrom target statusPageId (importedServices newServiceIds page) id,
      r.isValid = true) ↔ ∀ s ∈ page.resolved newServiceIds, s.fits = true := by
  have hlen : (importedServices newServiceIds page).length ≤ maxInteger := by
    rw [perm_importedServices.length_eq, List.length_map]
    exact (List.length_filter_le _ _).trans hlength
  have hfits : (∀ r ∈ statusPageServiceRowsFrom target statusPageId
      (importedServices newServiceIds page) id, r.isValid = true) ↔
      ∀ s ∈ importedServices newServiceIds page,
        (charLengthBetween 1 100 s.displayName && storableText s.displayName) = true := by
    constructor
    · intro h s hs
      obtain ⟨i, hi, rfl⟩ := List.getElem_of_mem hs
      exact (Bool.and_eq_true_iff.1 (h _ (List.mem_mapIdx.2 ⟨i, hi, rfl⟩))).1
    · intro h r hr
      obtain ⟨i, hi, rfl⟩ := List.mem_mapIdx.1 hr
      refine Bool.and_eq_true_iff.2 ⟨h _ (List.getElem_mem hi), ?_⟩
      exact decide_eq_true (by omega : i ≤ maxInteger)
  rw [hfits]
  constructor
  · intro h s hs
    exact h _ (perm_importedServices.mem_iff.2 (List.mem_map_of_mem hs))
  · intro h s hs
    obtain ⟨svc, hsvc, rfl⟩ := List.mem_map.1 (perm_importedServices.mem_iff.1 hs)
    exact h svc hsvc

/-- A fresh page takes services that are valid and name distinct endpoints of the project. -/
lemma updateStatusPageServices_ok {services : List StatusPageServiceInput} {db result : Tables}
    (row : StatusPageRow) {pages : List StatusPageRow} (hrows : db.statusPages = pages ++ [row])
    (hrow : row.projectId = target.projectId)
    (hpages : ∀ p ∈ pages, p.projectId ≠ target.projectId)
    (hservices : ∀ s ∈ db.statusPageServices, s.statusPageId ≠ row.id)
    (hunique : (db.statusPageServices.map fun s => (s.statusPageId, s.serviceId)).Nodup)
    (hendpoints : ∀ s ∈ services, ∃ e ∈ db.serviceEndpoints, e.id = s.serviceId ∧
      e.projectId = target.projectId) :
    updateStatusPageServices target services db = .ok result ↔
      ((∀ r ∈ statusPageServiceRowsFrom target row.id services db.nextId, r.isValid = true) ∧
        (services.map StatusPageServiceInput.serviceId).Nodup) ∧
      result = { db with
        statusPageServices := db.statusPageServices ++
          statusPageServiceRowsFrom target row.id services db.nextId,
        nextId := db.nextId + services.length } := by
  have hfind : db.statusPages.find? (fun p => decide (p.projectId = target.projectId)) = some row := by
    rw [hrows, List.find?_append, List.find?_eq_none.2 fun p hp => by simp [hpages p hp]]
    simp [hrow]
  have hids : ((db.serviceEndpoints.filter fun e =>
      decide (e.id ∈ (services.map StatusPageServiceInput.serviceId).toFinset) &&
        decide (e.projectId = target.projectId)).map EndpointRow.id).toFinset =
      (services.map StatusPageServiceInput.serviceId).toFinset := by
    ext id
    simp only [List.mem_toFinset, List.mem_map, List.mem_filter, Bool.and_eq_true, decide_eq_true_iff]
    constructor
    · rintro ⟨e, ⟨-, hmem, -⟩, rfl⟩
      exact hmem
    · rintro ⟨s, hs, rfl⟩
      obtain ⟨e, he, hid, hproject⟩ := hendpoints s hs
      exact ⟨e, ⟨he, ⟨s, hs, hid.symm⟩, hproject⟩, hid⟩
  have hkeep : (db.statusPageServices.filter fun s => decide (s.statusPageId ≠ row.id)) =
      db.statusPageServices :=
    List.filter_eq_self.2 fun s hs => decide_eq_true (hservices s hs)
  have hkeys : (statusPageServiceRowsFrom target row.id services db.nextId).map
      (fun s => (s.statusPageId, s.serviceId)) =
        (services.map StatusPageServiceInput.serviceId).map fun id => (row.id, id) := by
    refine List.ext_getElem (by simp [statusPageServiceRowsFrom]) fun i hi hi' => ?_
    simp [statusPageServiceRowsFrom, statusPageServiceRow]
  have hnodup : ((db.statusPageServices ++
      statusPageServiceRowsFrom target row.id services db.nextId).map
        fun s => (s.statusPageId, s.serviceId)).Nodup ↔
      (services.map StatusPageServiceInput.serviceId).Nodup := by
    rw [List.map_append, hkeys, List.nodup_append]
    constructor
    · rintro ⟨-, hnew, -⟩
      exact List.Nodup.of_map _ hnew
    · intro h
      refine ⟨hunique, h.map fun a b hab => (Prod.mk.inj hab).2, ?_⟩
      intro key hkey other hother heq
      obtain ⟨s, hs, rfl⟩ := List.mem_map.1 hkey
      obtain ⟨id, -, rfl⟩ := List.mem_map.1 hother
      exact hservices s hs (Prod.mk.inj heq).1
  rw [updateStatusPageServices, hfind]
  simp only [hids, ne_eq, not_true_eq_false, and_false, if_false, Tables.insertStatusPageServices,
    checked_ok, Bool.and_eq_true, List.all_eq_true, uniqueIn, decide_eq_true_iff]
  simp only [← ne_eq, hkeep]
  rw [← hnodup]
  simp [statusPageServiceRowsFrom]

/-- The page goes in exactly if its services fit and name distinct endpoints. -/
lemma insertStatusPage_ok {page? : Option ExportStatusPage} {db result : Tables}
    (hpages : ∀ p ∈ db.statusPages, p.projectId ≠ target.projectId)
    (hservices : ∀ s ∈ db.statusPageServices, s.statusPageId < db.nextId)
    (hunique : (db.statusPageServices.map fun s => (s.statusPageId, s.serviceId)).Nodup)
    (hids : newServiceIds.Nodup)
    (hendpoints : ∀ id ∈ newServiceIds, ∃ e ∈ db.serviceEndpoints, e.id = id ∧
      e.projectId = target.projectId)
    (hlength : ∀ page ∈ page?, page.services.length ≤ maxInteger) :
    insertStatusPage target newServiceIds page? db = .ok result ↔
      (∀ page ∈ page?, (∀ s ∈ page.resolved newServiceIds, s.fits = true) ∧
        ((page.resolved newServiceIds).map ExportStatusPageService.serviceIndex).Nodup) ∧
      result = db.withStatusPage target newServiceIds page? := by
  cases page? with
  | none =>
    rw [insertStatusPage, ok_iff]
    simp [Tables.withStatusPage]
  | some page =>
    by_cases hnil : newServiceIds = []
    · have hnone : page.resolved newServiceIds = [] := by
        rw [ExportStatusPage.resolved, hnil, List.filter_eq_nil_iff]
        simp
      rw [insertStatusPage, if_pos hnil, ok_iff, Tables.withStatusPage, if_pos hnil]
      simp [hnone]
    · have hfree : (db.statusPages.any fun p => decide (p.projectId = target.projectId)) = false := by
        rw [List.any_eq_false]
        intro p hp
        simp [hpages p hp]
      have hpage : (∀ p ∈ some page, (∀ s ∈ p.resolved newServiceIds, s.fits = true) ∧
          ((p.resolved newServiceIds).map ExportStatusPageService.serviceIndex).Nodup) ↔
          (∀ r ∈ statusPageServiceRowsFrom target db.nextId
            (importedServices newServiceIds page) (db.nextId + 1), r.isValid = true) ∧
          ((importedServices newServiceIds page).map StatusPageServiceInput.serviceId).Nodup := by
        rw [valid_statusPageServiceRowsFrom (hlength page rfl), nodup_serviceIds hids]
        simp
      rw [insertStatusPage, if_neg hnil, bind_eq_ok, hpage, Tables.withStatusPage, if_neg hnil,
        enableStatusPage, hfree]
      simp only [Bool.false_eq_true, if_false, Except.ok.injEq, exists_eq_left']
      by_cases hempty : importedServices newServiceIds page = []
      · rw [if_pos hempty, ok_iff, hempty]
        simp [statusPageServiceRowsFrom]
      · rw [if_neg hempty]
        exact updateStatusPageServices_ok (statusPageRow target db.nextId) rfl rfl hpages
          (fun s hs => (hservices s hs).ne) hunique
          fun s hs => hendpoints _ (mem_importedServices_serviceId hs)

end StatusPage

/-! ### Machine users -/

/-- The database takes the machine user. -/
def ExportMachineUser.fits (m : ExportMachineUser) : Bool :=
  charLengthBetween 1 128 m.name && storableText m.name && storableText? m.description

/-- The tables with the machine users of the payload. -/
def Tables.withMachineUsers (db : Tables) (rows : List MachineUserRow) : Tables :=
  { db with machineUsers := db.machineUsers ++ rows, nextId := db.nextId + rows.length }

lemma insertMachineUsers_ok {bundle : ExportBundle} {db result : Tables} :
    insertMachineUsers target bundle db = .ok result ↔
      (∀ m ∈ bundle.machineUsers, m.fits = true) ∧
        result = db.withMachineUsers
          (bundle.machineUsers.mapIdx fun i user => machineUserRow target (db.nextId + i) user) := by
  rw [insertMachineUsers]
  by_cases hnil : bundle.machineUsers = []
  · rw [if_pos hnil, hnil, ok_iff]
    simp [Tables.withMachineUsers]
  · rw [if_neg hnil, Tables.insertMachineUsers, checked_ok, List.all_eq_true]
    exact and_congr (forall_mem_mapIdx fun _ _ => rfl) Iff.rfl

end ProjectVault.ProjectExport
