import ProjectVault.ProjectExport.Export
import ProjectVault.ProjectExport.ImportOutcome

/-!
What an imported project starts with.
-/

namespace ProjectVault.ProjectExport

open Js

variable {ctx : ImportContext} {b : ExportBundle}

/-! ### Inert projects -/

/-- An active rotation of the credential: it blocks the archive and the next rotation, and a
retirement, a resumption or an abandonment acts on it. -/
def Tables.hasActiveRotation (db : Tables) (credentialId : ℕ) : Bool :=
  db.rotations.any fun r => r.credentialId = credentialId && r.isActive

/-- `findBlockingRotationIds`. -/
def Tables.findBlockingRotationIds (db : Tables) (projectId : ℕ) : List ℕ :=
  (db.rotations.filter fun r => r.projectId = projectId && r.isActive).map RotationRow.id

/-- No rotation the import inserts is active, and none stands in the way of a credential it
inserts. -/
def Inert (before : Tables) :
    Except ImportError (ImportProjectBundleResult × Tables) → Prop
  | .error _ => True
  | .ok (_, after) =>
    (∀ r ∈ after.rotations.drop before.rotations.length, r.isActive = false) ∧
      ∀ c ∈ after.credentials.drop before.credentials.length,
        after.hasActiveRotation c.id = false

/-! ### Imports that go in -/

/-- What has to hold for the rows of an accepted payload to go in. -/
structure Commits (ctx : ImportContext) (override : Option String) (b : ExportBundle) : Prop where
  name : trim (override.getD "") = "" → storableText b.project.name = true
  project : storableText (trim (override.getD "")) = true ∧
    storableText? b.project.description = true
  permitted : ctx.creationPermitted = true
  free : ctx.slugTaken = false
  rows : b.Fits ctx

/-- An import writes nothing, or writes the rows of the payload. -/
lemma importProjectBundle_cases {db : Database} {override : Option String}
    {result : ImportProjectBundleResult} {after : Tables} (haccepts : exportBundleSchema.Accepts b)
    (h : importProjectBundle ctx db.toTables override b = .ok (result, after)) :
    after = db.toTables ∨ Commits ctx override b ∧ ∃ name,
      result = .ok db.nextId name (summarizeImportedCounts b) ∧
      after = (db.withProject (projectRow ctx db.nextId name b.project.description)).populated
        ⟨ctx, db.nextId⟩ b := by
  cases hname : importName ctx db.toTables override b.project.name with
  | error e =>
    rw [importProjectBundle, hname] at h
    cases h
  | ok name =>
    obtain ⟨hstorable, hsame⟩ := importName_ok hname
    by_cases hpermitted : ctx.creationPermitted = true
    · by_cases hproject : storableText name = true ∧ storableText? b.project.description = true
      · rw [importProjectBundle_of_project hname hpermitted hproject] at h
        by_cases htaken : ctx.slugTaken = true
        · rw [if_pos htaken, ok_iff] at h
          exact .inl (congrArg Prod.snd h)
        · rw [if_neg htaken] at h
          cases hpopulate : populateProject ⟨ctx, db.nextId⟩ b (db.withProject
              (projectRow ctx db.nextId name b.project.description)) with
          | error e =>
            rw [hpopulate] at h
            cases h
          | ok populated =>
            rw [hpopulate, Except.map, ok_iff, Prod.mk.injEq] at h
            obtain ⟨hfits, hpopulated⟩ := (populate_created haccepts).1 hpopulate
            refine .inr ⟨⟨hstorable, ⟨hsame.1 hproject.1, hproject.2⟩, hpermitted,
              Bool.eq_false_iff.2 htaken, hfits⟩, name, h.1, ?_⟩
            rw [h.2, hpopulated]
      · rw [importProjectBundle_of_not_project hname hpermitted hproject] at h
        cases h
    · have hcreate : createProject ctx db.toTables name b.project.description =
          .ok (.error .projectCreationNotPermitted) := by
        rw [createProject, if_pos (Bool.eq_false_iff.2 hpermitted)]
      rw [importProjectBundle, hname] at h
      dsimp only [bind, Except.bind] at h
      rw [hcreate] at h
      exact .inl (congrArg Prod.snd (ok_iff.1 h))

/-- A payload for which everything holds goes in. -/
lemma importProjectBundle_of_commits (db : Database) {override : Option String}
    (haccepts : exportBundleSchema.Accepts b) (h : Commits ctx override b) :
    ∃ name, importProjectBundle ctx db.toTables override b =
      .ok (.ok db.nextId name (summarizeImportedCounts b),
        (db.withProject (projectRow ctx db.nextId name b.project.description)).populated
          ⟨ctx, db.nextId⟩ b) := by
  cases hname : importName ctx db.toTables override b.project.name with
  | error e =>
    obtain ⟨hempty, hstorable⟩ := importName_error hname
    rw [h.name hempty] at hstorable
    nomatch hstorable
  | ok name =>
    refine ⟨name, ?_⟩
    rw [importProjectBundle_of_project hname h.permitted
        ⟨(importName_ok hname).2.2 h.project.1, h.project.2⟩,
      if_neg (ne_of_eq_of_ne h.free (by decide)), (populate_created haccepts).2 ⟨h.rows, rfl⟩]
    rfl

/-! ### The rows that went in -/

section Rows

variable (target : ImportTarget)

lemma map_id_credentialRowsFrom (cs : List ExportCredential) (id : ℕ) :
    (credentialRowsFrom target cs id).map CredentialRow.id = credentialIdsFrom cs id := by
  induction cs generalizing id with
  | nil => rfl
  | cons c cs ih => rw [credentialRowsFrom, List.map_cons, ih, credentialIdsFrom, credentialRow]

/-- The rotations that went in have the statuses of those that find their versions. -/
lemma withRotations_statuses (id : ℕ) (rs : List ExportRotation) (db : Tables) :
    ∃ news, (db.withRotations target (b.inserted id) rs).rotations = db.rotations ++ news ∧
      news.map RotationRow.status =
        (rs.filter fun r => !b.isDangling r).map ExportRotation.status := by
  induction rs generalizing db with
  | nil => exact ⟨[], (List.append_nil _).symm, rfl⟩
  | cons r rs ih =>
    obtain ⟨news, hnews, hstatuses⟩ := ih (db.withRotation target (b.inserted id) r)
    have hone := isSome_resolve b id r
    rw [Tables.withRotations, List.foldl_cons, ← Tables.withRotations, hnews,
      Tables.withRotation]
    cases hresolve : (b.inserted id).resolve r with
    | none =>
      rw [hresolve] at hone
      have hdangling : (!b.isDangling r) = false := hone.symm
      exact ⟨news, rfl, by rw [hstatuses, List.filter_cons_of_neg (by simp [hdangling])]⟩
    | some ids =>
      rw [hresolve] at hone
      have hdangling : (!b.isDangling r) = true := hone.symm
      refine ⟨_, List.append_assoc _ _ _, ?_⟩
      rw [List.map_append, hstatuses, List.filter_cons_of_pos (by simp [hdangling])]
      rfl

lemma withStatusPage_frame (ids : List ℕ) (page : Option ExportStatusPage) (db : Tables) :
    (db.withStatusPage target ids page).rotations = db.rotations ∧
      (db.withStatusPage target ids page).credentials = db.credentials := by
  cases page with
  | none => exact ⟨rfl, rfl⟩
  | some page =>
    rw [Tables.withStatusPage]
    split_ifs <;> exact ⟨rfl, rfl⟩

lemma populated_rotations (db : Tables) :
    ∃ news, (db.populated target b).rotations = db.rotations ++ news ∧
      news.map RotationRow.status =
        (b.rotations.filter fun r => !b.isDangling r).map ExportRotation.status := by
  have hpage := (withStatusPage_frame target
    (List.range' (db.withoutMonitoring target b).nextId b.serviceEndpoints.length)
    b.statusPages.head? ((db.withoutMonitoring target b).withEndpoints
      (endpointRowsFrom target b.serviceEndpoints (db.withoutMonitoring target b).nextId))).1
  obtain ⟨news, hnews, hstatuses⟩ := withRotations_statuses (b := b) target db.nextId
    b.rotations ((db.withCredentials target (db.keyVersion.getD 1) b.credentials).withDependencies
      (dependencyRowsFrom target
        (dependenciesInRange (b.inserted db.nextId).newCredentialIds b.credentialDependencies)
        (afterCredentials b.credentials db.nextId)))
  exact ⟨news, hpage.trans hnews, hstatuses⟩

lemma populated_credentials (db : Tables) :
    (db.populated target b).credentials =
      db.credentials ++ credentialRowsFrom target b.credentials db.nextId := by
  have hpage := (withStatusPage_frame target
    (List.range' (db.withoutMonitoring target b).nextId b.serviceEndpoints.length)
    b.statusPages.head? ((db.withoutMonitoring target b).withEndpoints
      (endpointRowsFrom target b.serviceEndpoints (db.withoutMonitoring target b).nextId))).2
  have hrotations := congrArg Tables.credentials (withRotations_others target
    (b.inserted db.nextId) b.rotations
      ((db.withCredentials target (db.keyVersion.getD 1) b.credentials).withDependencies
        (dependencyRowsFrom target
          (dependenciesInRange (b.inserted db.nextId).newCredentialIds b.credentialDependencies)
          (afterCredentials b.credentials db.nextId))))
  exact hpage.trans hrotations

end Rows

/-- No rotation of the rows is active exactly if none of an active status finds its versions. -/
lemma inactive_iff {news : List RotationRow} (hnews : news.map RotationRow.status =
    (b.rotations.filter fun r => !b.isDangling r).map ExportRotation.status) :
    (∀ r ∈ news, r.isActive = false) ↔
      ∀ r ∈ b.rotations, r.isActive = true → b.isDangling r = true := by
  have hmap : (∀ r ∈ news, r.isActive = false) ↔
      ∀ s ∈ news.map RotationRow.status, s ∉ activeRotationStatuses := by
    simp [RotationRow.isActive]
  rw [hmap, hnews]
  rw [List.forall_mem_map]
  constructor
  · intro h r hr hactive
    by_contra hdangling
    exact h r (List.mem_filter.2 ⟨hr, by simpa using hdangling⟩) (of_decide_eq_true hactive)
  · intro h r hr hactive
    obtain ⟨hr, hdangling⟩ := List.mem_filter.1 hr
    rw [h r hr (decide_eq_true hactive)] at hdangling
    nomatch hdangling

/-- The import of an accepted payload inserts no active rotation exactly if it writes nothing, or
each rotation of an active status names a version the payload does not have. -/
theorem import_inert_iff {db : Database} {override : Option String} {json : Json}
    (h : parseExportBundle json = some b) :
    Inert db.toTables (importProjectBundle ctx db.toTables override b) ↔
      (Commits ctx override b →
        ∀ r ∈ b.rotations, r.isActive = true → b.isDangling r = true) := by
  have haccepts : exportBundleSchema.Accepts b := exportBundleSchema.accepts_of_decode h
  constructor
  · intro hinert hcommits
    obtain ⟨name, hrun⟩ := importProjectBundle_of_commits db haccepts hcommits
    obtain ⟨news, hrotations, hstatuses⟩ := populated_rotations (b := b)
      ⟨ctx, db.nextId⟩
      (db.withProject (projectRow ctx db.nextId name b.project.description))
    rw [hrun] at hinert
    refine (inactive_iff hstatuses).1 fun r hr => hinert.1 r ?_
    rw [hrotations]
    show r ∈ List.drop db.rotations.length (db.rotations ++ news)
    rwa [List.drop_left]
  · intro hcondition
    cases hrun : importProjectBundle ctx db.toTables override b with
    | error e => exact trivial
    | ok outcome =>
      obtain ⟨result, after⟩ := outcome
      rcases importProjectBundle_cases haccepts hrun with hsame | ⟨hcommits, name, -, rfl⟩
      · refine ⟨fun r hr => ?_, fun c hc => ?_⟩
        · rw [hsame, List.drop_length] at hr
          nomatch hr
        · rw [hsame, List.drop_length] at hc
          nomatch hc
      · obtain ⟨news, hrotations, hstatuses⟩ := populated_rotations (b := b)
          ⟨ctx, db.nextId⟩
          (db.withProject (projectRow ctx db.nextId name b.project.description))
        have hinactive := (inactive_iff hstatuses).2 (hcondition hcommits)
        have hcredentials := populated_credentials (b := b) ⟨ctx, db.nextId⟩
          (db.withProject (projectRow ctx db.nextId name b.project.description))
        rw [Inert, hrotations, hcredentials]
        refine ⟨fun r hr => hinactive r ?_, fun c hc => ?_⟩
        · have hr : r ∈ List.drop db.rotations.length (db.rotations ++ news) := hr
          rwa [List.drop_left] at hr
        · have hc : c ∈ List.drop db.credentials.length (db.credentials ++
              credentialRowsFrom ⟨ctx, db.nextId⟩ b.credentials (db.nextId + 1)) := hc
          rw [List.drop_left] at hc
          have hid : c.id ∈ credentialIdsFrom b.credentials (db.nextId + 1) := by
            rw [← map_id_credentialRowsFrom ⟨ctx, db.nextId⟩]
            exact List.mem_map_of_mem hc
          have hlt := (mem_credentialIdsFrom_bounds hid).1
          rw [Tables.hasActiveRotation, hrotations, List.any_eq_false]
          intro r hr
          rcases List.mem_append.1 hr with hr | hr
          · have := db.rotations_lt r hr
            have hne : r.credentialId ≠ c.id := by omega
            simp [hne]
          · simp [hinactive r hr]

/-- A completed rotation comes in at rest. -/
theorem import_inert_completed : Inert Database.empty.toTables
    (importProjectBundle sampleContext Database.empty.toTables none
      (rotatedBundle .completed)) :=
  (import_inert_iff (rotatedBundle_accepted .completed)).2 fun _ => by decide

/-- An active rotation among those inserted. -/
def insertsActive (before : Tables) :
    Except ImportError (ImportProjectBundleResult × Tables) → Bool
  | .error _ => false
  | .ok (_, after) => (after.rotations.drop before.rotations.length).any RotationRow.isActive

lemma not_inert_of_insertsActive {before : Tables}
    {outcome : Except ImportError (ImportProjectBundleResult × Tables)}
    (h : insertsActive before outcome = true) : ¬ Inert before outcome := by
  match outcome with
  | .error _ => nomatch h
  | .ok (_, after) =>
    obtain ⟨r, hr, hactive⟩ := List.any_eq_true.1 h
    intro hinert
    rw [hinert.1 r hr] at hactive
    nomatch hactive

/-- A payload with a rotation that was promoted at the time of the export comes in with an active
rotation. -/
theorem import_promoted :
    parseExportBundle (exportBundleSchema.encode
        (rotatedBundle (coerceRotationStatusForExport .promoted))) =
        some (rotatedBundle (coerceRotationStatusForExport .promoted)) ∧
      ¬ Inert Database.empty.toTables (importProjectBundle sampleContext Database.empty.toTables
        none (rotatedBundle (coerceRotationStatusForExport .promoted))) :=
  ⟨rotatedBundle_accepted _, not_inert_of_insertsActive (by decide +kernel)⟩

end ProjectVault.ProjectExport
