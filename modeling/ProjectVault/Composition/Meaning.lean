import ProjectVault.Composition.Overlay

/-!
What an overlay without problems means (`composition-kit/src/overlay.ts`).
-/

namespace Composition

open Js

variable {rt : Runtime} {input : OverlayInput}
variable {removals : List Removal} {out : OverlayResult} {path : String}

/-! ### Meaning -/

/-- A removal entry of the manifest matches the host file. -/
def RemovedBy (input : OverlayInput) (path : String) : Prop :=
  ∃ entry ∈ input.manifest.remove, ∃ matched,
    matchRemoval entry input.host.files.keys = .ok matched ∧ path ∈ matched

/-- The hash of the host file at a path. -/
def hostHash (input : OverlayInput) (path : String) : String :=
  input.hash ((input.host.files.get? path).getD "")

/-- The drift of the overrides and replacements of a plan: those whose host file no longer has the
hash they record. -/
def driftOf (input : OverlayInput) (overrides : List OverrideRecord)
    (replacements : List ReplacementRecord) : List (DriftKind × String) :=
  (overrides.filter fun r => r.hostSha256 ≠ hostHash input r.path).map
      (fun r => (.override, r.path)) ++
    (replacements.filter fun r => r.hostSha256 ≠ hostHash input r.hostPath).map
      fun r => (.replacement, r.target)

/-- What a plan without problems means. -/
structure Composes (input : OverlayInput) (out : OverlayResult) : Prop where
  /-- The host files that no removal matches, updated by the pack. -/
  files_pack : ∀ path ∈ packOverlay input.pack,
    out.files.get? path = (input.pack.files.get? path).map .file
  files_removed : ∀ path, path ∉ packOverlay input.pack → RemovedBy input path →
    out.files.get? path = none
  files_host : ∀ path, path ∉ packOverlay input.pack → ¬ RemovedBy input path →
    out.files.get? path = (input.host.files.get? path).map .file
  /-- A pack file at a host path is a declared override. -/
  declared : ∀ path ∈ packOverlay input.pack, path ∈ input.host.files.keys →
    path ∈ input.manifest.overrides.map (·.path) ∧ path ∈ out.overrides.map (·.path)
  /-- Overrides and additions are the overlay paths of the pack. -/
  overlay : (out.overrides.map (·.path) ++ out.additions.map (·.path)).Perm (packOverlay input.pack)
  /-- No composed path lies under a removed entry. -/
  removed : ∀ path ∈ out.files.keys, ∀ entry ∈ input.manifest.remove, liesUnder entry path = false
  /-- A replaced host file is neither overridden nor removed. -/
  replaced : ∀ r ∈ out.replacements, r.hostPath ∈ input.host.files.keys ∧
    r.hostPath ∉ out.overrides.map (·.path) ∧ ¬ RemovedBy input r.hostPath
  /-- The recorded hash is the accepted one, or else the declared one. -/
  accepted_override : ∀ r ∈ out.overrides, ∃ d ∈ input.manifest.overrides, d.path = r.path ∧
    r.hostSha256 = ((input.accepted.overrides.get? r.path).map (·.hostSha256)).getD d.hostSha256
  accepted_replacement : ∀ r ∈ out.replacements, ∃ e,
    input.manifest.replacements.get? r.target = some e ∧
    r.hostSha256 =
      ((input.accepted.replacements.get? r.target).map (·.hostSha256)).getD e.hostSha256
  /-- The drift is that of the overrides and replacements. -/
  drift : out.drift.map (fun d => (d.kind, d.key)) = driftOf input out.overrides out.replacements

/-- No pack path is spelled like a host path that stays, in another case. -/
def KeepsCase (rt : Runtime) (input : OverlayInput) : Prop :=
  ∀ path ∈ packOverlay input.pack, ∀ hostPath ∈ input.host.files.keys,
    (∀ entry ∈ input.manifest.remove, liesUnder entry hostPath = false) →
    rt.toLowerCase hostPath = rt.toLowerCase path → hostPath = path

/-! ### Removals -/

/-- The removals planned for the first entries. -/
structure Removes (input : OverlayInput) (entries : List String) (out : Removals) : Prop where
  paths : out.removals.map (·.record.path) = entries
  matched : ∀ path, path ∈ out.removals.flatMap (·.paths) ↔ ∃ entry ∈ entries, ∃ matched,
    matchRemoval entry input.host.files.keys = .ok matched ∧ path ∈ matched
  valid : ∀ entry ∈ entries, ∃ matched, matchRemoval entry input.host.files.keys = .ok matched

lemma removes_foldl (entries : List String)
    (h : (entries.foldl (planRemovalEntry input) ⟨[], [], []⟩).problems = []) :
    Removes input entries (entries.foldl (planRemovalEntry input) ⟨[], [], []⟩) := by
  induction entries using List.reverseRecOn with
  | nil => exact ⟨rfl, by simp, by simp⟩
  | append_singleton entries entry ih =>
    rw [List.foldl_append, List.foldl_cons, List.foldl_nil] at h ⊢
    set out := entries.foldl (planRemovalEntry input) ⟨[], [], []⟩
    rw [planRemovalEntry] at h ⊢
    cases hmatch : matchRemoval entry input.host.files.keys with
    | error problem => simp [hmatch] at h
    | ok found =>
      simp only [hmatch] at h ⊢
      obtain ⟨hpaths, hmatched, hvalid⟩ := ih h
      refine ⟨?_, fun path => ?_, ?_⟩
      · rw [List.map_append, hpaths]
        rfl
      · rw [List.flatMap_append, List.mem_append, hmatched]
        simp only [List.flatMap_cons, List.flatMap_nil, List.append_nil, planRemoval,
          mem_sortedCodeUnits, List.mem_append, List.mem_singleton]
        constructor
        · rintro (⟨e, he, rest⟩ | hpath)
          · exact ⟨e, .inl he, rest⟩
          · exact ⟨entry, .inr rfl, found, hmatch, hpath⟩
        · rintro ⟨e, he | rfl, matched, hm, hpath⟩
          · exact .inl ⟨e, he, matched, hm, hpath⟩
          · rw [hmatch] at hm
            exact .inr (Except.ok.inj hm ▸ hpath)
      · intro e he
        rcases List.mem_append.1 he with hold | hnew
        · exact hvalid e hold
        · rw [List.mem_singleton.1 hnew]
          exact ⟨found, hmatch⟩

/-- A host path is relative. -/
lemma Host.ne_of_absolute (host : Host) {entry : String} (hpath : path ∈ host.files.keys)
    (hentry : startsWith entry "/" = true) : path ≠ entry := by
  rintro rfl
  obtain ⟨directory, hdirectory, hstart⟩ := host.owned path hpath
  have hrelative : ∀ d ∈ ownedDirectories, (d ++ "/").toList.head?.any (· ≠ '/') = true := by
    decide
  obtain ⟨rest, hrest⟩ := List.isPrefixOf_iff_prefix.1 hstart
  obtain ⟨rest', hrest'⟩ := List.isPrefixOf_iff_prefix.1 hentry
  have hhead := hrelative directory hdirectory
  cases hname : (directory ++ "/").toList with
  | nil => simp [hname] at hhead
  | cons c tail =>
    rw [hname] at hhead hrest
    rw [← hrest', show "/".toList = ['/'] from rfl] at hrest
    cases hrest
    exact absurd hhead (by simp)

lemma mem_matched_iff {entry : String} {matched : List String}
    (h : matchRemoval entry input.host.files.keys = .ok matched)
    (hpath : path ∈ input.host.files.keys) : path ∈ matched ↔ liesUnder entry path = true := by
  rw [matchRemoval] at h
  rw [liesUnder]
  split_ifs at h with hroute hfile
  · rw [if_pos hroute, ← Except.ok.inj h, List.mem_filter]
    have hne := input.host.ne_of_absolute hpath hroute
    simp [hpath, hne]
  · rw [if_neg hroute, ← Except.ok.inj h, List.mem_filter]
    simp [hpath]

lemma underRemoved_eq_none_iff :
    underRemoved path removals = none ↔
      ∀ entry ∈ removals.map (·.record.path), liesUnder entry path = false := by
  simp [underRemoved, List.find?_eq_none]

lemma removes_planRemovals (h : (planRemovals input).problems = []) :
    Removes input input.manifest.remove (planRemovals input) :=
  removes_foldl _ h

lemma removedBy_iff (h : (planRemovals input).problems = []) (hpath : path ∈ input.host.files.keys)
    :
    RemovedBy input path ↔ ∃ entry ∈ input.manifest.remove, liesUnder entry path = true := by
  constructor
  · rintro ⟨entry, hentry, matched, hmatched, hmem⟩
    exact ⟨entry, hentry, (mem_matched_iff hmatched hpath).1 hmem⟩
  · rintro ⟨entry, hentry, hunder⟩
    obtain ⟨matched, hmatched⟩ := (removes_planRemovals h).valid entry hentry
    exact ⟨entry, hentry, matched, hmatched, (mem_matched_iff hmatched hpath).2 hunder⟩

lemma get?_foldl_delete (paths : List String) (m : Map FileSource) (k : String) :
    (paths.foldl Map.delete m).get? k = if k ∈ paths then none else m.get? k := by
  induction paths generalizing m with
  | nil => simp
  | cons path paths ih =>
    rw [List.foldl_cons, ih, Map.get?_delete]
    by_cases hk : k ∈ paths
    · simp [hk]
    · simp [hk]

/-- Removals change the files, and nothing else that is planned later. -/
lemma foldl_applyRemoval (removals : List Removal) (out : OverlayResult) :
    (∀ k, (removals.foldl applyRemoval out).files.get? k =
        if k ∈ removals.flatMap (·.paths) then none else out.files.get? k) ∧
      (removals.foldl applyRemoval out).overrides = out.overrides ∧
      (removals.foldl applyRemoval out).additions = out.additions ∧
      (removals.foldl applyRemoval out).replacements = out.replacements ∧
      (removals.foldl applyRemoval out).drift = out.drift ∧
      (removals.foldl applyRemoval out).problems = out.problems := by
  induction removals generalizing out with
  | nil => simp
  | cons removal removals ih =>
    rw [List.foldl_cons]
    obtain ⟨hfiles, hrest⟩ := ih (applyRemoval out removal)
    refine ⟨fun k => ?_, hrest⟩
    rw [hfiles, List.flatMap_cons]
    show (if _ then none else (removal.paths.foldl Map.delete out.files).get? k) = _
    rw [get?_foldl_delete]
    by_cases hk : k ∈ removals.flatMap (·.paths)
    · simp [hk]
    · simp [hk]

/-! ### Overrides and additions -/

/-- What the pass over the pack has done to the first paths. -/
structure Overlaid (input : OverlayInput) (before : Map FileSource) (done : List String)
    (out : OverlayResult) : Prop where
  files : ∀ path, out.files.get? path =
    if path ∈ done then some (.file ((input.pack.files.get? path).getD "")) else before.get? path
  declared : ∀ path ∈ done, path ∈ input.host.files.keys →
    path ∈ (declaredOverrides input.manifest).keys ∧ path ∈ out.overrides.map (·.path)
  overlay : (out.overrides.map (·.path) ++ out.additions.map (·.path)).Perm done
  accepted : ∀ r ∈ out.overrides, ∃ d, (declaredOverrides input.manifest).get? r.path = some d ∧
    r.hostSha256 = ((input.accepted.overrides.get? r.path).map (·.hostSha256)).getD d.hostSha256
  drift : out.drift.map (fun d => (d.kind, d.key)) = driftOf input out.overrides []
  replacements : out.replacements = []

lemma driftOf_append (overrides : List OverrideRecord) (r : OverrideRecord) :
    driftOf input (overrides ++ [r]) [] = driftOf input overrides [] ++
      if r.hostSha256 ≠ hostHash input r.path then [(.override, r.path)] else [] := by
  simp only [driftOf, List.filter_append, List.map_append, List.filter_nil, List.map_nil,
    List.append_nil]
  by_cases hr : r.hostSha256 = hostHash input r.path
  · simp [hr]
  · simp [hr]

/-- One path of the pack. -/
lemma Overlaid.step {before : Map FileSource} {done : List String}
    (h : Overlaid input before done out)
    (hproblems : (planOverride input (declaredOverrides input.manifest) out path).problems = []) :
    Overlaid input before (done ++ [path])
      (planOverride input (declaredOverrides input.manifest) out path) := by
  rw [planOverride] at hproblems ⊢
  cases hhost : input.host.files.get? path with
  | none =>
    have hnot := Map.get?_eq_none_iff.1 hhost
    refine ⟨fun k => ?_, fun p hp hin => ?_, ?_, h.accepted, h.drift, h.replacements⟩
    · rw [Map.get?_set, h.files]
      by_cases hk : k = path
      · simp [hk]
      · simp [hk]
    · rcases List.mem_append.1 hp with hold | hnew
      · exact h.declared p hold hin
      · exact absurd (List.mem_singleton.1 hnew ▸ hin) hnot
    · rw [List.map_append, ← List.append_assoc]
      exact h.overlay.append_right _
  | some hostAbs =>
    simp only [hhost] at hproblems ⊢
    cases hdeclared : (declaredOverrides input.manifest).get? path with
    | none => simp [hdeclared, planCollision] at hproblems
    | some d =>
      simp only [hdeclared, planCollision] at hproblems ⊢
      have hhash : input.hash hostAbs = hostHash input path := by
        rw [hostHash, hhost]
        rfl
      refine ⟨fun k => ?_, fun p hp hin => ?_, ?_, ?_, ?_, h.replacements⟩
      · rw [Map.get?_set, h.files]
        by_cases hk : k = path
        · simp [hk]
        · simp [hk]
      · rw [List.map_append, List.mem_append]
        rcases List.mem_append.1 hp with hold | hnew
        · obtain ⟨hkey, hrecord⟩ := h.declared p hold hin
          exact ⟨hkey, .inl hrecord⟩
        · obtain rfl := List.mem_singleton.1 hnew
          exact ⟨Map.mem_keys_of_get? hdeclared, .inr List.mem_cons_self⟩
      · rw [List.map_append, List.append_assoc]
        refine (List.Perm.append_left _ List.perm_append_comm).trans ?_
        rw [← List.append_assoc]
        exact h.overlay.append_right _
      · intro r hr
        rcases List.mem_append.1 hr with hold | hnew
        · exact h.accepted r hold
        · obtain rfl := List.mem_singleton.1 hnew
          exact ⟨d, hdeclared, rfl⟩
      · rw [List.map_append, h.drift, h.replacements, driftOf_append, hhash]
        simp only
        split_ifs <;> rfl

lemma problems_of_planOverride {declared : Map RouteOverride}
    (h : (planOverride input declared out path).problems = []) : out.problems = [] := by
  rw [planOverride] at h
  cases hhost : input.host.files.get? path with
  | none => simpa only [hhost] using h
  | some hostAbs =>
    cases hdeclared : declared.get? path with
    | none => simp [hhost, hdeclared, planCollision] at h
    | some d => simpa only [hhost, hdeclared, planCollision] using h

/-- The pass over the pack. -/
lemma overlaid_foldl (hbefore : Overlaid input out.files [] out) (paths : List String)
    (h : (paths.foldl (planOverride input (declaredOverrides input.manifest)) out).problems = []) :
    out.problems = [] ∧ Overlaid input out.files paths
      (paths.foldl (planOverride input (declaredOverrides input.manifest)) out) := by
  induction paths using List.reverseRecOn with
  | nil => exact ⟨h, hbefore⟩
  | append_singleton paths path ih =>
    rw [List.foldl_append, List.foldl_cons, List.foldl_nil] at h ⊢
    obtain ⟨hproblems, hdone⟩ := ih (problems_of_planOverride h)
    exact ⟨hproblems, hdone.step h⟩

/-! ### Replacements -/

/-- What the pass over the replacements has done. -/
structure Replaces (input : OverlayInput) (removals : List Removal) (before out : OverlayResult) :
    Prop where
  files : out.files = before.files
  overrides : out.overrides = before.overrides
  additions : out.additions = before.additions
  replaced : ∀ r ∈ out.replacements, r.hostPath ∈ input.host.files.keys ∧
    r.hostPath ∉ input.manifest.overrides.map (·.path) ∧ underRemoved r.hostPath removals = none
  accepted : ∀ r ∈ out.replacements, ∃ e,
    input.manifest.replacements.get? r.target = some e ∧
    r.hostSha256 =
      ((input.accepted.replacements.get? r.target).map (·.hostSha256)).getD e.hostSha256
  drift : out.drift.map (fun d => (d.kind, d.key)) = driftOf input out.overrides out.replacements

/-- A replacement that conflicts with nothing. -/
lemma Replaces.add {before : OverlayResult} (h : Replaces input removals before out)
    {target hostPath withRel : String} {e : Replacement}
    (he : input.manifest.replacements.get? target = some e)
    (hhost : hostPath ∈ input.host.files.keys)
    (hconflict : replacementConflict target hostPath input removals = none) :
    Replaces input removals before (planReplacement target e hostPath withRel input out) := by
  rw [replacementConflict] at hconflict
  split_ifs at hconflict with hoverlaid
  refine ⟨h.files, h.overrides, h.additions, fun r hr => ?_, fun r hr => ?_, ?_⟩
  · rcases List.mem_append.1 hr with hold | hnew
    · exact h.replaced r hold
    · obtain rfl := List.mem_singleton.1 hnew
      refine ⟨hhost, fun hmem => hoverlaid ?_, Option.map_eq_none_iff.1 hconflict⟩
      obtain ⟨d, hd, heq⟩ := List.mem_map.1 hmem
      exact List.any_eq_true.2 ⟨d, hd, beq_iff_eq.2 heq⟩
  · rcases List.mem_append.1 hr with hold | hnew
    · exact h.accepted r hold
    · obtain rfl := List.mem_singleton.1 hnew
      exact ⟨e, he, rfl⟩
  · simp only [planReplacement, List.map_append, h.drift]
    simp only [driftOf, List.filter_append, List.map_append, List.append_assoc, hostHash]
    congr 2
    split_ifs with hdrift
    · simp [hdrift]
    · simp [not_not.1 hdrift]

lemma mem_keys_of_replacementTarget {target hostPath : String}
    (h : replacementTarget input target = .ok hostPath) : hostPath ∈ input.host.files.keys := by
  rw [replacementTarget] at h
  split_ifs at h
  split at h
  · exact absurd h (by simp)
  · next found hresolved =>
      rw [← Except.ok.inj h]
      have hmem : found ∈ resolveLibTarget target input.host.files.keys := by
        rw [hresolved]
        exact List.mem_cons_self
      rw [resolveLibTarget, List.mem_filter] at hmem
      simpa using hmem.2
  · exact absurd h (by simp)

/-- One target. -/
lemma Replaces.step {before : OverlayResult} {state : Map String × OverlayResult}
    (h : state.2.problems = [] → Replaces input removals before state.2) {e : String × Replacement}
    (he : e ∈ input.manifest.replacements.entries)
    (hproblems : (planReplacementEntry input removals state e).2.problems = []) :
    state.2.problems = [] ∧
      Replaces input removals before (planReplacementEntry input removals state e).2 := by
  obtain ⟨claimedBy, out⟩ := state
  obtain ⟨target, entry⟩ := e
  rw [planReplacementEntry] at hproblems ⊢
  cases htarget : replacementTarget input target with
  | error problem => simp [htarget] at hproblems
  | ok hostPath =>
    simp only [htarget] at hproblems ⊢
    cases hwith : normalizePackPath entry.withRel with
    | none =>
      simp only [hwith] at hproblems ⊢
      exact ⟨hproblems, h hproblems⟩
    | some withRel =>
      simp only [hwith] at hproblems ⊢
      split_ifs at hproblems ⊢
      · exact ⟨hproblems, h hproblems⟩
      · cases hclaimed : claimedBy.get? hostPath with
        | some first => simp [hclaimed] at hproblems
        | none =>
          simp only [hclaimed] at hproblems ⊢
          cases hconflict : replacementConflict target hostPath input removals with
          | some conflict => simp [hconflict] at hproblems
          | none =>
            simp only [hconflict] at hproblems ⊢
            exact ⟨hproblems, (h hproblems).add (Map.get?_eq_some_iff.2 he)
              (mem_keys_of_replacementTarget htarget) hconflict⟩

/-- The pass over the replacements. -/
lemma replaces_foldl (hbefore : out.problems = [] → Replaces input removals out out)
    (entries : List (String × Replacement))
    (hsub : ∀ e ∈ entries, e ∈ input.manifest.replacements.entries)
    (h : (entries.foldl (planReplacementEntry input removals) (Map.empty, out)).2.problems = []) :
    out.problems = [] ∧ Replaces input removals out
      (entries.foldl (planReplacementEntry input removals) (Map.empty, out)).2 := by
  induction entries using List.reverseRecOn with
  | nil => exact ⟨h, hbefore h⟩
  | append_singleton entries e ih =>
    rw [List.foldl_append, List.foldl_cons, List.foldl_nil] at h ⊢
    have hih := ih fun e' he' => hsub e' (List.mem_append_left _ he')
    obtain ⟨hproblems, hstep⟩ :=
      Replaces.step (fun hp => (hih hp).2) (hsub e (by simp)) h
    exact ⟨(hih hproblems).1, hstep⟩

/-! ### The plan -/

/-- Nothing of the pack lies under a removed entry. -/
lemma underRemoved_of_contradictionProblems {packPaths declared : List String}
    (h : contradictionProblems packPaths declared removals = []) (hpath : path ∈ packPaths) :
    underRemoved path removals = none := by
  rw [contradictionProblems, List.filterMap_eq_nil_iff] at h
  have hnone := h path (by simp [hpath])
  simpa using hnone

/-- The passes of a plan without problems. -/
structure Planned (rt : Runtime) (input : OverlayInput) (removed overlaid out : OverlayResult) :
    Prop where
  problems : planProblems rt input = []
  removes : ∀ k, removed.files.get? k =
    if k ∈ (planRemovals input).removals.flatMap (·.paths) then none
    else (input.host.files.get? k).map .file
  overlays : Overlaid input removed.files (packOverlay input.pack) overlaid
  replaces : Replaces input (planRemovals input).removals overlaid out

/-- A plan without problems has gone through its passes. -/
lemma planned_planOverlay (h : (planOverlay rt input).problems = []) :
    ∃ removed overlaid, Planned rt input removed overlaid (planOverlay rt input) := by
  set planned := planRemovals input with hplanned
  set start : OverlayResult :=
    ⟨input.host.files.mapValues .file, [], [], [], [], [], planProblems rt input, planned.notes, []⟩
  set removed := planned.removals.foldl applyRemoval start
  set paths := (packOverlay input.pack).filter fun path =>
    (underRemoved path planned.removals).isNone with hpaths
  obtain ⟨hfiles, hoverrides, hadditions, hreplacements, hdrift, hproblems⟩ :=
    foldl_applyRemoval planned.removals start
  set opened : OverlayResult := { removed with
    problems := removed.problems ++
      declarationProblems (declaredOverrides input.manifest) paths input.host.files }
  have hbase : Overlaid input opened.files [] opened := by
    refine ⟨by simp, by simp, ?_, ?_, ?_, hreplacements⟩
    · rw [show opened.overrides = [] from hoverrides, show opened.additions = [] from hadditions]
      exact .refl _
    · rw [show opened.overrides = [] from hoverrides]
      simp
    · rw [show opened.overrides = [] from hoverrides, show opened.drift = [] from hdrift]
      rfl
  set overlaid := paths.foldl (planOverride input (declaredOverrides input.manifest)) opened
  have hoverlaid : overlaid.problems = [] →
      opened.problems = [] ∧ Overlaid input opened.files paths overlaid :=
    overlaid_foldl hbase paths
  have hunreplaced : overlaid.problems = [] →
      Replaces input planned.removals overlaid overlaid := by
    intro hclean
    have hdone := (hoverlaid hclean).2
    refine ⟨rfl, rfl, rfl, ?_, ?_, ?_⟩
    · rw [hdone.replacements]
      simp
    · rw [hdone.replacements]
      simp
    · rw [hdone.replacements]
      exact hdone.drift
  obtain ⟨hclean, hreplaces⟩ :=
    replaces_foldl hunreplaced input.manifest.replacements.entries (fun _ he => he) h
  obtain ⟨hopened, hdone⟩ := hoverlaid hclean
  have hplan : planProblems rt input = [] :=
    hproblems.symm.trans (List.append_eq_nil_iff.1 hopened).1
  have hall : paths = packOverlay input.pack := by
    refine List.filter_eq_self.2 fun path hpath => ?_
    rw [planProblems, List.append_eq_nil_iff] at hplan
    rw [underRemoved_of_contradictionProblems hplan.2 hpath]
    rfl
  refine ⟨removed, overlaid, hplan, fun k => ?_, ?_, hreplaces⟩
  · rw [hfiles, Map.get?_mapValues]
  · rw [← hall]
    exact hdone

/-- The problems of the parts. -/
lemma planProblems_eq_nil (h : planProblems rt input = []) :
    findCaseCollisions rt (packOverlay input.pack) = [] ∧ (planRemovals input).problems = [] ∧
      ∀ path ∈ packOverlay input.pack,
        ∀ entry ∈ input.manifest.remove, liesUnder entry path = false := by
  rw [planProblems, List.append_eq_nil_iff, List.append_eq_nil_iff, List.append_eq_nil_iff] at h
  obtain ⟨⟨⟨-, hcase⟩, hremovals⟩, hcontradictions⟩ := h
  refine ⟨List.map_eq_nil_iff.1 hcase, hremovals, fun path hpath => ?_⟩
  have hunder := underRemoved_of_contradictionProblems hcontradictions hpath
  rw [underRemoved_eq_none_iff, (removes_planRemovals hremovals).paths] at hunder
  exact hunder

lemma mem_packOverlay {pack : Pack} :
    path ∈ packOverlay pack ↔ path ∈ pack.files.keys ∧ isOverlayPath path = true := by
  rw [packOverlay, mem_sortedCodeUnits, List.mem_filter]

lemma mem_overrides_of_declared {d : RouteOverride}
    (h : (declaredOverrides input.manifest).get? path = some d) :
    d ∈ input.manifest.overrides ∧ d.path = path := by
  have hentry := Map.mem_of_get?_ofList h
  obtain ⟨d', hd', heq⟩ := List.mem_map.1 hentry
  cases heq
  exact ⟨hd', rfl⟩

/-- **An overlay without problems composes.** -/
theorem composes_planOverlay (h : (planOverlay rt input).problems = []) :
    Composes input (planOverlay rt input) := by
  obtain ⟨removed, overlaid, hplan, hremoved, hoverlaid, hreplaces⟩ := planned_planOverlay h
  obtain ⟨-, hremovals, hunder⟩ := planProblems_eq_nil hplan
  have hmatched := (removes_planRemovals hremovals).matched
  have hfiles : ∀ path, (planOverlay rt input).files.get? path =
      if path ∈ packOverlay input.pack then some (.file ((input.pack.files.get? path).getD ""))
      else removed.files.get? path := fun path => by
    rw [hreplaces.files, hoverlaid.files]
  have hpack : ∀ path ∈ packOverlay input.pack,
      (planOverlay rt input).files.get? path = (input.pack.files.get? path).map .file := by
    intro path hpath
    obtain ⟨abs, habs⟩ := Option.isSome_iff_exists.1 (Map.has_iff.2 (mem_packOverlay.1 hpath).1)
    rw [hfiles, if_pos hpath, habs]
    rfl
  have hgone : ∀ path, path ∉ packOverlay input.pack → RemovedBy input path →
      (planOverlay rt input).files.get? path = none := by
    intro path hpath hby
    rw [hfiles, if_neg hpath, hremoved, if_pos ((hmatched path).2 hby)]
  have hhost : ∀ path, path ∉ packOverlay input.pack → ¬ RemovedBy input path →
      (planOverlay rt input).files.get? path = (input.host.files.get? path).map .file := by
    intro path hpath hby
    rw [hfiles, if_neg hpath, hremoved, if_neg fun hmem => hby ((hmatched path).1 hmem)]
  have hdeclared : ∀ path ∈ packOverlay input.pack, path ∈ input.host.files.keys →
      path ∈ input.manifest.overrides.map (·.path) ∧
        path ∈ (planOverlay rt input).overrides.map (·.path) := by
    intro path hpath hin
    obtain ⟨hkey, hrecord⟩ := hoverlaid.declared path hpath hin
    rw [declaredOverrides, Map.mem_keys_ofList, List.map_map] at hkey
    rw [hreplaces.overrides]
    exact ⟨hkey, hrecord⟩
  refine ⟨hpack, hgone, hhost, hdeclared, ?_, ?_, fun r hr => ?_, fun r hr => ?_,
    hreplaces.accepted, ?_⟩
  · rw [hreplaces.overrides, hreplaces.additions]
    exact hoverlaid.overlay
  · intro path hpath entry hentry
    by_cases hin : path ∈ packOverlay input.pack
    · exact hunder path hin entry hentry
    · by_contra hcovers
      obtain ⟨source, hsource⟩ := Map.mem_keys_iff_get?.1 hpath
      have hstays : ¬ RemovedBy input path := fun hby => by
        rw [hgone path hin hby] at hsource
        exact Option.some_ne_none source hsource.symm
      rw [hhost path hin hstays] at hsource
      obtain ⟨abs, habs, -⟩ := Option.map_eq_some_iff.1 hsource
      exact hstays ((removedBy_iff hremovals (Map.mem_keys_of_get? habs)).2
        ⟨entry, hentry, by simpa using hcovers⟩)
  · obtain ⟨hkey, hoverride, hunremoved⟩ := hreplaces.replaced r hr
    refine ⟨hkey, fun hmem => hoverride ?_, fun hby => ?_⟩
    · rw [hreplaces.overrides] at hmem
      obtain ⟨o, ho, heq⟩ := List.mem_map.1 hmem
      obtain ⟨d, hd, -⟩ := hoverlaid.accepted o ho
      obtain ⟨hin, hpath⟩ := mem_overrides_of_declared hd
      exact List.mem_map.2 ⟨d, hin, hpath.trans heq⟩
    · rw [underRemoved_eq_none_iff, (removes_planRemovals hremovals).paths] at hunremoved
      obtain ⟨entry, hentry, hcovers⟩ := (removedBy_iff hremovals hkey).1 hby
      rw [hunremoved entry hentry] at hcovers
      exact Bool.noConfusion hcovers
  · rw [hreplaces.overrides] at hr
    obtain ⟨d, hd, hhash⟩ := hoverlaid.accepted r hr
    obtain ⟨hin, hpath⟩ := mem_overrides_of_declared hd
    exact ⟨d, hin, hpath, hhash⟩
  · exact hreplaces.drift

lemma Composes.mem_keys_iff (h : Composes input out) :
    path ∈ out.files.keys ↔ path ∈ packOverlay input.pack ∨
      path ∈ input.host.files.keys ∧ ¬ RemovedBy input path := by
  by_cases hpack : path ∈ packOverlay input.pack
  · obtain ⟨abs, habs⟩ := Map.mem_keys_iff_get?.1 (mem_packOverlay.1 hpack).1
    have hget := h.files_pack path hpack
    rw [habs] at hget
    exact iff_of_true (Map.mem_keys_of_get? hget) (.inl hpack)
  · by_cases hby : RemovedBy input path
    · have hnot := Map.get?_eq_none_iff.1 (h.files_removed path hpack hby)
      simp [hnot, hpack, hby]
    · simp only [hpack, hby, not_false_eq_true, and_true, false_or, Map.mem_keys_iff_get?,
        h.files_host path hpack hby, Option.map_eq_some_iff]
      exact ⟨fun ⟨_, abs, habs, _⟩ => ⟨abs, habs⟩, fun ⟨abs, habs⟩ => ⟨_, abs, habs, rfl⟩⟩

/-- **Overlay meaning.** A plan without problems composes, and its paths differ ignoring case
exactly if no pack path is spelled like a host path that stays, in another case. -/
theorem planOverlay_meaning (rt : Runtime) (input : OverlayInput)
    (hhost : CaseDistinct rt input.host.files.keys)
    (hplan : (planOverlay rt input).problems = []) :
    (Composes input (planOverlay rt input) ∧ CaseDistinct rt (planOverlay rt input).files.keys) ↔
      KeepsCase rt input := by
  have hcomposes := composes_planOverlay hplan
  obtain ⟨removed, overlaid, hproblems, -⟩ := planned_planOverlay hplan
  obtain ⟨hcollisions, hremovals, -⟩ := planProblems_eq_nil hproblems
  have hpack : (packOverlay input.pack).Nodup :=
    (perm_sortedCodeUnits _).nodup_iff.2 (input.pack.files.nodup_keys.filter _)
  rw [caseDistinct_iff (planOverlay rt input).files.nodup_keys]
  rw [caseDistinct_iff input.host.files.nodup_keys] at hhost
  rw [findCaseCollisions_eq_nil_iff, caseDistinct_iff hpack] at hcollisions
  have hstays : ∀ path ∈ input.host.files.keys, ¬ RemovedBy input path ↔
      ∀ entry ∈ input.manifest.remove, liesUnder entry path = false := by
    intro path hpath
    rw [removedBy_iff hremovals hpath]
    simp only [not_exists, not_and, Bool.not_eq_true]
  constructor
  · rintro ⟨-, hdistinct⟩ path hpath hostPath hin hunder hlower
    exact hdistinct hostPath (hcomposes.mem_keys_iff.2 (.inr ⟨hin, (hstays hostPath hin).2 hunder⟩))
      path (hcomposes.mem_keys_iff.2 (.inl hpath)) hlower
  · intro hkeeps
    refine ⟨hcomposes, fun a ha b hb hlower => ?_⟩
    rcases hcomposes.mem_keys_iff.1 ha with hapack | ⟨hahost, hakept⟩
    · rcases hcomposes.mem_keys_iff.1 hb with hbpack | ⟨hbhost, hbkept⟩
      · exact hcollisions a hapack b hbpack hlower
      · exact (hkeeps a hapack b hbhost ((hstays b hbhost).1 hbkept) hlower.symm).symm
    · rcases hcomposes.mem_keys_iff.1 hb with hbpack | ⟨hbhost, hbkept⟩
      · exact hkeeps b hbpack a hahost ((hstays a hahost).1 hakept) hlower
      · exact hhost a hahost b hbhost hlower

instance (rt : Runtime) (input : OverlayInput) : Decidable (KeepsCase rt input) := by
  unfold KeepsCase
  infer_instance

/-- A host with three routes, and a pack that overrides the first, removes the second and adds a
file. -/
def samplePlan (added : String) : OverlayInput where
  host :=
    { pvRelease := "1.0.0"
      files := Map.ofList [("src/routes/a/+page.svelte", "/host/a"),
        ("src/routes/b/+page.svelte", "/host/b"), ("src/routes/c/+page.svelte", "/host/c")]
      owned := by decide }
  pack := ⟨Map.ofList [("src/routes/a/+page.svelte", "/pack/a"), (added, "/pack/added")]⟩
  manifest := ⟨"1.0.0", [⟨"src/routes/a/+page.svelte", "/host/a", none⟩], ["/b"], Map.empty⟩
  accepted := ⟨Map.empty, Map.empty⟩
  hash abs := abs
  sha256Hex text := text
  previousRemovalFiles := none

/-- A file under a name of its own. -/
theorem planOverlay_meaning_sample :
    Composes (samplePlan "src/routes/d/+page.svelte")
        (planOverlay .ascii (samplePlan "src/routes/d/+page.svelte")) ∧
      CaseDistinct .ascii
        (planOverlay .ascii (samplePlan "src/routes/d/+page.svelte")).files.keys :=
  (planOverlay_meaning .ascii (samplePlan "src/routes/d/+page.svelte") (by decide) (by decide)).2
    (by decide)

/-- A file that the host has in another case is composed next to it, and no problem is found. -/
theorem planOverlay_caseCollision :
    CaseDistinct .ascii (samplePlan "src/routes/C/+page.svelte").host.files.keys ∧
      (planOverlay .ascii (samplePlan "src/routes/C/+page.svelte")).problems = [] ∧
      ¬ CaseDistinct .ascii
        (planOverlay .ascii (samplePlan "src/routes/C/+page.svelte")).files.keys := by
  decide

end Composition
