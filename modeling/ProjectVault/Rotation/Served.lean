import ProjectVault.Rotation.Servable

/-!
The version the readers serve, as a relation on a slice.
-/

namespace ProjectVault

namespace Slice

variable {σ : Slice} {now : ℕ}

/-- The version the readers serve. -/
structure Serves (σ : Slice) (sv : CredentialVersion) : Prop where
  mem : sv ∈ σ.versions
  servable : sv.isServable = true
  le : ∀ v ∈ σ.versions, v.isServable = true → v.currentKey ≤ sv.currentKey

lemma serves_of_served {sv : CredentialVersion} (h : σ.served = some sv) : σ.Serves sv := by
  obtain ⟨hmem, hs⟩ := List.mem_filter.mp (List.argmax_mem h)
  exact ⟨hmem, hs, fun v hv hvs => List.le_of_mem_argmax (List.mem_filter.mpr ⟨hv, hvs⟩) h⟩

lemma Serves.eq (hwf : σ.WellFormed) {sv sv' : CredentialVersion} (h : σ.Serves sv)
    (h' : σ.Serves sv') : sv = sv' := by
  have hkey := le_antisymm (h'.le sv h.mem h.servable) (h.le sv' h'.mem h'.servable)
  have hnum : sv.versionNumber = sv'.versionNumber := by
    have := congrArg (fun k => (ofLex k).2) hkey
    simpa [CredentialVersion.currentKey] using this
  exact hwf.eq_of_number h.mem h'.mem hnum

/-- A readable version makes the readers serve one. -/
lemma exists_serves {v : CredentialVersion} (hv : v ∈ σ.versions) (hs : v.isServable = true) :
    ∃ sv, σ.Serves sv := by
  cases hsv : σ.served with
  | none =>
    have hmem : v ∈ σ.versions.filter CredentialVersion.isServable :=
      List.mem_filter.mpr ⟨hv, hs⟩
    rw [List.argmax_eq_none.mp hsv] at hmem
    simp at hmem
  | some sv => exact ⟨sv, serves_of_served hsv⟩

lemma served_eq_some_iff (hwf : σ.WellFormed) {sv : CredentialVersion} :
    σ.served = some sv ↔ σ.Serves sv := by
  refine ⟨serves_of_served, fun h => ?_⟩
  cases hsv : σ.served with
  | none =>
    have hmem : sv ∈ σ.versions.filter CredentialVersion.isServable :=
      List.mem_filter.mpr ⟨h.mem, h.servable⟩
    rw [List.argmax_eq_none.mp hsv] at hmem
    simp at hmem
  | some w => rw [Serves.eq hwf (serves_of_served hsv) h]

/-- Nothing is served when nothing is readable. -/
lemma served_eq_none_iff :
    σ.served = none ↔ ∀ v ∈ σ.versions, v.isServable = false := by
  rw [served, List.argmax_eq_none, List.filter_eq_nil_iff]
  simp

/-- The order of the readers' query. -/
lemma currentKey_le_iff {v w : CredentialVersion} {t u : ℕ} (hv : v.promotedAt = some t)
    (hw : w.promotedAt = some u) : v.currentKey ≤ w.currentKey ↔
      t < u ∨ t = u ∧ v.versionNumber ≤ w.versionNumber := by
  rw [CredentialVersion.currentKey, CredentialVersion.currentKey, Prod.Lex.toLex_le_toLex, hv, hw]
  rfl

lemma serves_of_latest (hs : σ.Sound now) {sv : CredentialVersion} (hmem : sv ∈ σ.versions)
    (hsv : sv.isServable = true) (hp : sv.promotedAt = some now)
    (hmax : ∀ v ∈ σ.versions, v.versionNumber ≤ sv.versionNumber) : σ.Serves sv := by
  refine ⟨hmem, hsv, fun v hv hvs => ?_⟩
  obtain ⟨t, ht⟩ := Option.ne_none_iff_exists'.mp (isServable_iff.mp hvs).2.2
  have hle := (hs v hv).2 t ht
  rw [currentKey_le_iff ht hp]
  rcases Nat.lt_or_eq_of_le hle with hlt | heq
  · exact .inl hlt
  · exact .inr ⟨heq, hmax v hv⟩

section Map

variable {g : CredentialVersion → CredentialVersion} {rs : List RotationLink}

/-- Changes that only take readable versions away, but not the served one. -/
lemma Serves.shrink (hkey : ∀ v ∈ σ.versions, (g v).currentKey = v.currentKey)
    (hserv : ∀ v ∈ σ.versions, (g v).isServable = true → v.isServable = true)
    {sv : CredentialVersion} (h : σ.Serves sv) (hsv : g sv = sv) :
    Serves ⟨σ.versions.map g, rs⟩ sv := by
  refine ⟨List.mem_map.mpr ⟨sv, h.mem, hsv⟩, h.servable, fun x hx hxs => ?_⟩
  obtain ⟨v, hv, rfl⟩ := List.mem_map.mp hx
  rw [hkey v hv]
  exact h.le v hv (hserv v hv hxs)

lemma Serves.of_shrink (hserv : ∀ v ∈ σ.versions, (g v).isServable = true → v.isServable = true)
    {x : CredentialVersion} (h : Serves ⟨σ.versions.map g, rs⟩ x) : ∃ sv, σ.Serves sv := by
  obtain ⟨v, hv, rfl⟩ := List.mem_map.mp h.mem
  exact exists_serves hv (hserv v hv h.servable)

end Map

end Slice

end ProjectVault
