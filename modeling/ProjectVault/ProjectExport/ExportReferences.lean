import ProjectVault.ProjectExport.ImportInert

/-!
What the importer finds again of an export (`project-export/service.ts`, `import-service.ts`).
-/

namespace ProjectVault.ProjectExport

open Js

variable {f : DateFormat} {db : Tables} {projectId : ℕ} {b : ExportBundle}

/-- The rotations of a project are of its credentials, and so are their versions. -/
structure Tables.Referential (db : Tables) (projectId : ℕ) : Prop where
  rotations : ∀ r ∈ db.rotations, r.projectId = projectId →
    ∃ c ∈ db.credentials, c.id = r.credentialId ∧ c.projectId = projectId
  versions : ∀ r ∈ db.rotations, ∀ v ∈ db.versions,
    v.id = r.newVersionId ∨ v.id = r.previousVersionId → v.credentialId = r.credentialId

/-- What a traversal that succeeds has made of each element. -/
lemma getElem?_of_mapM_ok {ε α β : Type} {g : α → Except ε β} {l : List α} {l' : List β}
    (h : l.mapM g = .ok l') : l'.length = l.length ∧
      ∀ (i : ℕ) a, l[i]? = some a → ∃ c, l'[i]? = some c ∧ g a = .ok c := by
  induction l generalizing l' with
  | nil =>
    cases h
    exact ⟨rfl, by simp⟩
  | cons a l ih =>
    rw [List.mapM_cons] at h
    obtain ⟨c, hc, h⟩ := bind_eq_ok.mp h
    obtain ⟨cs, hcs, h⟩ := bind_eq_ok.mp h
    cases h
    obtain ⟨hlength, hget⟩ := ih hcs
    refine ⟨congrArg (· + 1) hlength, fun i a' hi => ?_⟩
    cases i with
    | zero =>
      cases hi
      exact ⟨c, rfl, hc⟩
    | succ i => exact hget i a' hi

/-- An exported credential has a version with the number of each of its rows. -/
lemma hasNumber_of_export {c : CredentialRow} {ec : ExportCredential}
    (h : buildExportCredential f db c = .ok ec) {v : VersionRow} (hv : v ∈ db.versions)
    (hc : v.credentialId = c.id) :
    ec.versions.any (fun ev => ev.versionNumber = v.versionNumber) = true := by
  obtain ⟨versions, hversions, h⟩ := bind_eq_ok.mp h
  cases h
  have hrow : v ∈ versionRowsOf db c.id :=
    (Db.mem_sortAsc _).2 (List.mem_filter.2 ⟨hv, decide_eq_true hc⟩)
  obtain ⟨i, hi⟩ := List.mem_iff_getElem?.1 hrow
  obtain ⟨ev, hev, hbuilt⟩ := (getElem?_of_mapM_ok hversions).2 i v hi
  obtain ⟨value, -, hbuilt⟩ := bind_eq_ok.mp hbuilt
  cases hbuilt
  exact List.any_eq_true.2 ⟨_, List.mem_of_getElem? hev, decide_eq_true rfl⟩

lemma exists_credentialIndex (rows : List CredentialRow) (id : ℕ) (h : ∃ c ∈ rows, c.id = id) :
    ∃ (i : ℕ) (c : CredentialRow), (rows.findIdx? fun c => c.id = id) = some i ∧
      rows[i]? = some c ∧ c.id = id := by
  obtain ⟨c, hc, hid⟩ := h
  cases hi : rows.findIdx? fun c => c.id = id with
  | none => exact absurd (List.findIdx?_eq_none_iff.1 hi c hc) (by simp [hid])
  | some i =>
    obtain ⟨hlt, hp, -⟩ := List.findIdx?_eq_some_iff_getElem.1 hi
    exact ⟨i, rows[i], rfl, List.getElem?_eq_getElem hlt, of_decide_eq_true hp⟩

/-- An exported rotation refers to an exported credential and to versions of it. -/
lemma not_isDangling (href : db.Referential projectId)
    (hget : ∀ (i : ℕ) c, (credentialRowsOf db projectId)[i]? = some c →
      ∃ ec, b.credentials[i]? = some ec ∧ buildExportCredential f db c = .ok ec)
    {rotation : RotationRow} (hrow : rotation ∈ db.rotations) (hp : rotation.projectId = projectId)
    {r : ExportRotation}
    (hr : r ∈ buildExportRotation f db (credentialRowsOf db projectId) rotation) :
    b.isDangling r = false := by
  rw [buildExportRotation] at hr
  split at hr
  · rename_i new previous hnew hprevious
    obtain ⟨c, hc, hcid, hcproject⟩ := href.rotations rotation hrow hp
    obtain ⟨i, row, hi, hi', hid⟩ := exists_credentialIndex (credentialRowsOf db projectId)
      rotation.credentialId ⟨c, by simp [credentialRowsOf, hc, hcproject], hcid⟩
    obtain ⟨ec, hec, hbuilt⟩ := hget i row hi'
    have hnumber : ∀ v ∈ db.versions, v.id = rotation.newVersionId ∨
        v.id = rotation.previousVersionId →
        ec.versions.any (fun ev => ev.versionNumber = v.versionNumber) = true := fun v hv hvid =>
      hasNumber_of_export hbuilt hv ((href.versions rotation hrow v hv hvid).trans hid.symm)
    rw [List.mem_singleton.1 hr]
    simp only [ExportBundle.isDangling, ExportBundle.hasVersion, hi, Option.getD_some, hec,
      Option.any_some]
    rw [hnumber new (List.mem_of_find?_eq_some hnew) (.inl (by simpa using List.find?_some hnew)),
      hnumber previous (List.mem_of_find?_eq_some hprevious)
        (.inr (by simpa using List.find?_some hprevious))]
    rfl
  · cases hr

/-- **The importer finds everything an export refers to**, but for the status page of a project
without endpoints. -/
theorem export_resolved_iff (href : db.Referential projectId)
    (h : buildExportBundle f db projectId = .ok b) :
    b.Resolved ↔ ((∃ p ∈ db.statusPages, p.projectId = projectId) →
      ∃ e ∈ db.serviceEndpoints, e.projectId = projectId) := by
  rw [buildExportBundle] at h
  split at h
  · cases h
  obtain ⟨credentials, hcredentials, h⟩ := bind_eq_ok.mp h
  cases h
  obtain ⟨hlength, hget⟩ := getElem?_of_mapM_ok hcredentials
  have hpage : (∃ p ∈ db.statusPages, p.projectId = projectId) ↔
      (db.statusPages.find? fun p => p.projectId = projectId).isSome = true := by simp
  have hservices : serviceRowsOf db projectId ≠ [] ↔
      ∃ e ∈ db.serviceEndpoints, e.projectId = projectId := by
    rw [← List.length_pos_iff, List.length_pos_iff_exists_mem]
    simp [serviceRowsOf]
  refine ⟨fun hres hp => ?_, fun hpages => ⟨?_, ?_, ?_, ?_⟩⟩
  · obtain ⟨page, hpage⟩ := Option.isSome_iff_exists.1 (hpage.1 hp)
    exact hservices.1 fun hnil => hres.statusPages (by simp [hpage]) (by simp [hnil])
  · intro d hd
    obtain ⟨dep, hdep, rfl⟩ := List.mem_map.1 hd
    obtain ⟨i, c, hi, hc, -⟩ := exists_credentialIndex (credentialRowsOf db projectId)
      dep.credentialId (by simpa using (List.mem_filter.1 hdep).2)
    rw [buildExportDependency, hi, hlength]
    exact (List.getElem?_eq_some_iff.1 hc).1
  · intro r hr
    obtain ⟨rotation, hrow, hr⟩ := List.mem_flatMap.1 hr
    rw [Db.mem_sortAsc, List.mem_filter, decide_eq_true_iff] at hrow
    exact not_isDangling href hget hrow.1 hrow.2 hr
  · intro hne hnil
    refine hservices.2 (hpages (hpage.2 ?_)) (List.map_eq_nil_iff.1 hnil)
    simpa [Option.isSome_iff_ne_none] using hne
  · intro p hp s hs
    obtain ⟨page, -, rfl⟩ := Option.map_eq_some_iff.1 (Option.mem_toList.1 hp)
    obtain ⟨service, -, hservice⟩ := List.mem_filterMap.1 hs
    obtain ⟨i, hi, rfl⟩ := Option.map_eq_some_iff.1 hservice
    rw [List.length_map]
    exact (List.findIdx?_eq_some_iff_getElem.1 hi).1

def pageWithoutEndpoints : Tables :=
  { Tables.empty with
    projects := [⟨1, 1, "Vault", none, [], none, none⟩]
    statusPages := [⟨2, 1, 1, none⟩] }

theorem export_resolved_pageWithoutEndpoints :
    ∃ b, buildExportBundle (fun _ => "") pageWithoutEndpoints 1 = .ok b ∧ ¬ b.Resolved := by
  refine ⟨_, rfl, fun hres => ?_⟩
  have href : pageWithoutEndpoints.Referential 1 := ⟨by decide, by decide⟩
  obtain ⟨e, he, -⟩ := (export_resolved_iff href rfl).1 hres ⟨_, List.mem_cons_self, rfl⟩
  cases he

end ProjectVault.ProjectExport
