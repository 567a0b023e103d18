import ProjectVault.Credentials.Schema
import ProjectVault.Db.Grouped

/-!
The batch lookups of rotations (`rotation/service.ts`): the badges of a list of credentials, and
the rotations that are due.

The tables are the rows that the transaction can see.
-/

namespace ProjectVault

open Db

/-- The most recent rotation of a credential, by creation and then by id. -/
def latestRotation (rotations : List Rotation) (credentialId : ℕ) : Option Rotation :=
  (rotations.filter fun r => r.credentialId = credentialId).argmax
    fun r => toLex (r.createdAt, r.id)

/-- `where(inArray(rotations.credentialId, credentialIds))`. -/
def rotationsOf (rotations : List Rotation) (credentialIds : List ℕ) : List Rotation :=
  rotations.filter fun r => r.credentialId ∈ credentialIds

/-! ### Badges -/

/-- `BADGE_ROTATION_STATUSES`. -/
def badgeRotationStatuses : List RotationStatus :=
  [.staged, .inProgress, .promoted, .staleRecovery, .breakGlassComplete]

structure ActiveRotationBadge where
  rotationId : ℕ
  status : RotationStatus

def maxRotationBadgeRowsPerQuery : ℕ := 5000

/-- `ORDER BY credential_id, created_at DESC, id DESC`. -/
def badgeOrder (r : Rotation) : ℕ ×ₗ ℕᵒᵈ ×ₗ ℕᵒᵈ :=
  toLex (r.credentialId, toLex (OrderDual.toDual r.createdAt, OrderDual.toDual r.id))

/-- The badge of a rotation, if its status is worth one. -/
def Rotation.badge (r : Rotation) : Option ActiveRotationBadge :=
  if r.status ∈ badgeRotationStatuses then some ⟨r.id, r.status⟩ else none

/-- The loop of `getActiveRotationBadgesByCredential`: the first row of each credential, with the
credentials seen so far. -/
def collectBadges : List ℕ → List Rotation → List (ℕ × ActiveRotationBadge)
  | _, [] => []
  | seen, r :: rows =>
    if r.credentialId ∈ seen then collectBadges seen rows
    else match r.badge with
      | some badge => (r.credentialId, badge) :: collectBadges (r.credentialId :: seen) rows
      | none => collectBadges (r.credentialId :: seen) rows

/-- `getActiveRotationBadgesByCredential`. -/
def getActiveRotationBadgesByCredential (rotations : List Rotation) (credentialIds : List ℕ) :
    List (ℕ × ActiveRotationBadge) :=
  if credentialIds = [] then []
  else collectBadges []
    (firstRows badgeOrder maxRotationBadgeRowsPerQuery (rotationsOf rotations credentialIds))

/-! ### Rotations that are due -/

inductive UpcomingStatus where
  | pending | overdue

/-- `UpcomingRotationResult`, times in milliseconds. -/
structure UpcomingRotation where
  credentialId : ℕ
  credentialName : String
  nextDueAt : ℕ
  status : UpcomingStatus

def maxScheduledCredentialsPerQuery : ℕ := 1000
def maxRotationHistoryRowsPerQuery : ℕ := 5000

/-- `fetchCredentialsWithSchedule`. -/
def fetchCredentialsWithSchedule (credentials : List Credential) (projectId : Option ℕ) :
    List Credential :=
  firstRows Credential.id maxScheduledCredentialsPerQuery (credentials.filter fun c =>
    c.rotationSchedule ≠ none ∧ ∀ p ∈ projectId, c.projectId = p)

/-- What is kept of the latest rotation: `completedAt` and `updatedAt`. -/
abbrev LatestTimes := Option ℕ × ℕ

/-- What `fetchRotationSummaryByCredential` returns. -/
structure RotationSummary where
  latestByCredential : List (ℕ × LatestTimes)
  activeCredentialIds : List ℕ

/-- `ORDER BY credential_id, created_at DESC`; rows created at one time come in any order. -/
def historyOrder (r : Rotation) : ℕ ×ₗ ℕᵒᵈ :=
  toLex (r.credentialId, OrderDual.toDual r.createdAt)

def Rotation.times (r : Rotation) : LatestTimes := (r.completedAt, r.updatedAt)

/-- The body of the loop of `fetchRotationSummaryByCredential`. -/
def RotationSummary.add (s : RotationSummary) (r : Rotation) : RotationSummary where
  latestByCredential :=
    if (s.latestByCredential.lookup r.credentialId).isSome then s.latestByCredential
    else s.latestByCredential ++ [(r.credentialId, r.times)]
  activeCredentialIds :=
    if r.isActive then r.credentialId :: s.activeCredentialIds else s.activeCredentialIds

/-- `fetchRotationSummaryByCredential`. -/
def fetchRotationSummaryByCredential (rotations : List Rotation) (credentialIds : List ℕ) :
    RotationSummary :=
  if credentialIds = [] then ⟨[], []⟩
  else (firstRows historyOrder maxRotationHistoryRowsPerQuery
    (rotationsOf rotations credentialIds)).foldl RotationSummary.add ⟨[], []⟩

/-- `resolveReferencePoint`. -/
def resolveReferencePoint (cred : Credential) : Option LatestTimes → ℕ
  | none => cred.createdAt
  | some (completedAt, updatedAt) => completedAt.getD updatedAt

/-- `resolveUpcomingRotation`; `next` is `nextCronOccurrence`, none where it throws. -/
def resolveUpcomingRotation (next : String → ℕ → Option ℕ) (cred : Credential)
    (referencePoint now horizonMs : ℕ) : Option UpcomingRotation :=
  match cred.rotationSchedule with
  | none => none
  | some schedule =>
    if schedule = "" then none
    else match next schedule referencePoint with
      | none => none
      | some nextDueAt =>
        if now + horizonMs < nextDueAt then none
        else some
          { credentialId := cred.id, credentialName := cred.name, nextDueAt,
            status := if nextDueAt < now then .overdue else .pending }

/-- `computeUpcomingRotations`. -/
def computeUpcomingRotations (next : String → ℕ → Option ℕ) (credentials : List Credential)
    (rotations : List Rotation) (projectId : Option ℕ) (horizonDays now : ℕ) :
    List UpcomingRotation :=
  let credentialRows := fetchCredentialsWithSchedule credentials projectId
  if credentialRows = [] then []
  else
    let summary := fetchRotationSummaryByCredential rotations (credentialRows.map Credential.id)
    sortAsc UpcomingRotation.nextDueAt (credentialRows.filterMap fun cred =>
      if cred.id ∈ summary.activeCredentialIds then none
      else resolveUpcomingRotation next cred
        (resolveReferencePoint cred (summary.latestByCredential.lookup cred.id)) now
        (horizonDays * 24 * 60 * 60 * 1000))

/-! ### The latest rotation among sorted rows -/

variable {rotations : List Rotation} {credentialIds : List ℕ} {c : ℕ}

lemma badgeOrder_credentialId {a b : Rotation} (h : badgeOrder a ≤ badgeOrder b) :
    a.credentialId ≤ b.credentialId := by
  rcases Prod.Lex.le_iff.1 h with hlt | ⟨heq, -⟩
  · exact le_of_lt hlt
  · exact le_of_eq heq

lemma historyOrder_credentialId {a b : Rotation} (h : historyOrder a ≤ historyOrder b) :
    a.credentialId ≤ b.credentialId := by
  rcases Prod.Lex.le_iff.1 h with hlt | ⟨heq, -⟩
  · exact le_of_lt hlt
  · exact le_of_eq heq

/-- Within a credential, the first by `badgeOrder` is the last created. -/
lemma badgeOrder_le_iff {a b : Rotation} (h : a.credentialId = b.credentialId) :
    badgeOrder a ≤ badgeOrder b ↔ toLex (b.createdAt, b.id) ≤ toLex (a.createdAt, a.id) := by
  rw [badgeOrder, badgeOrder, Prod.Lex.toLex_le_toLex, Prod.Lex.toLex_le_toLex,
    Prod.Lex.toLex_le_toLex]
  simp only [h, lt_irrefl, true_and, false_or, OrderDual.toDual_lt_toDual,
    OrderDual.toDual_le_toDual, OrderDual.toDual_inj]
  exact or_congr_right (and_congr_left fun _ => eq_comm)

lemma historyOrder_le_iff {a b : Rotation} (h : a.credentialId = b.credentialId) :
    historyOrder a ≤ historyOrder b ↔ b.createdAt ≤ a.createdAt := by
  rw [historyOrder, historyOrder, Prod.Lex.toLex_le_toLex]
  simp [h]

/-- A rotation no other of its credential comes before is the latest. -/
lemma latestRotation_eq_some (hid : (rotations.map Rotation.id).Nodup) {r : Rotation}
    (hr : r ∈ rotations) (hrc : r.credentialId = c)
    (hmax : ∀ x ∈ rotations, x.credentialId = c →
      toLex (x.createdAt, x.id) ≤ toLex (r.createdAt, r.id)) :
    latestRotation rotations c = some r := by
  refine argmax_eq_some_of_lt (List.mem_filter.2 ⟨hr, by simpa using hrc⟩) fun x hx hne => ?_
  obtain ⟨hx, hxc⟩ := List.mem_filter.1 hx
  refine lt_of_le_of_ne (hmax x hx (by simpa using hxc)) fun heq => hne ?_
  exact List.inj_on_of_nodup_map hid hx hr (Prod.mk.inj (toLex_inj.1 heq)).2

lemma latestRotation_eq_none (h : ∀ r ∈ rotations, r.credentialId ≠ c) :
    latestRotation rotations c = none := by
  rw [latestRotation, List.argmax_eq_none, List.filter_eq_nil_iff]
  exact fun r hr => by simpa using h r hr

lemma mem_rotationsOf {r : Rotation} :
    r ∈ rotationsOf rotations credentialIds ↔ r ∈ rotations ∧ r.credentialId ∈ credentialIds := by
  simp [rotationsOf]

/-- The first row of a credential by `badgeOrder` is its latest rotation. -/
lemma find?_badgeOrder (hid : (rotations.map Rotation.id).Nodup) (hc : c ∈ credentialIds) :
    (sortAsc badgeOrder (rotationsOf rotations credentialIds)).find? (fun r => r.credentialId = c) =
      latestRotation rotations c := by
  cases hfind : (sortAsc badgeOrder (rotationsOf rotations credentialIds)).find?
      (fun r => r.credentialId = c) with
  | none =>
    refine (latestRotation_eq_none fun r hr hrc => ?_).symm
    have hmem := mem_rotationsOf.2 ⟨hr, hrc ▸ hc⟩
    exact absurd (List.find?_eq_none.1 hfind r ((mem_sortAsc _).2 hmem)) (by simpa using hrc)
  | some r =>
    obtain ⟨hr, hrc, hleast⟩ := find?_sortAsc hfind
    have hrc : r.credentialId = c := by simpa using hrc
    refine (latestRotation_eq_some hid (mem_rotationsOf.1 hr).1 hrc fun x hx hxc => ?_).symm
    rw [← badgeOrder_le_iff (hrc.trans hxc.symm)]
    exact hleast x (mem_rotationsOf.2 ⟨hx, hxc ▸ hc⟩) (by simpa using hxc)

/-! ### What the badges say -/

/-- The loop gives every credential the badge of its first row. -/
lemma lookup_collectBadges (rows : List Rotation) (seen : List ℕ) :
    (collectBadges seen rows).lookup c =
      if c ∈ seen then none
      else (rows.find? fun r => r.credentialId = c).bind Rotation.badge := by
  induction rows generalizing seen with
  | nil => simp [collectBadges]
  | cons r rows ih =>
    by_cases hrc : r.credentialId = c
    · subst hrc
      rw [collectBadges]
      split_ifs with hseen
      · rw [ih, if_pos hseen]
      · rw [List.find?_cons_of_pos (by simp), Option.bind_some]
        cases r.badge with
        | none => exact (ih _).trans (if_pos List.mem_cons_self)
        | some badge => simp
    · have hcons : c ∈ r.credentialId :: seen ↔ c ∈ seen := by
        simp [Ne.symm hrc]
      rw [List.find?_cons_of_neg (by simpa using hrc), collectBadges]
      split_ifs with hin hseen hseen
      · rw [ih, if_pos hseen]
      · rw [ih, if_neg hseen]
      · cases r.badge with
        | none => exact (ih _).trans (if_pos (hcons.2 hseen))
        | some badge =>
          rw [List.lookup_cons, beq_false_of_ne (Ne.symm hrc)]
          exact (ih _).trans (if_pos (hcons.2 hseen))
      · cases r.badge with
        | none => exact (ih _).trans (if_neg (hcons.not.2 hseen))
        | some badge =>
          rw [List.lookup_cons, beq_false_of_ne (Ne.symm hrc)]
          exact (ih _).trans (if_neg (hcons.not.2 hseen))

/-- The rows of the requested credentials before a credential. -/
def rowsBefore (rotations : List Rotation) (credentialIds : List ℕ) (c : ℕ) : ℕ :=
  ((rotationsOf rotations credentialIds).filter fun r => r.credentialId < c).length

/-- The rows of the requested credentials up to a credential. -/
def rowsUpTo (rotations : List Rotation) (credentialIds : List ℕ) (c : ℕ) : ℕ :=
  ((rotationsOf rotations credentialIds).filter fun r => r.credentialId ≤ c).length

lemma length_filter_sortAsc {β : Type*} [LinearOrder β] (key : Rotation → β) (p : Rotation → Bool)
    (rows : List Rotation) : ((sortAsc key rows).filter p).length = (rows.filter p).length :=
  ((perm_sortAsc key rows).filter p).length_eq

/-- A requested credential has the badge of its latest rotation, unless the credentials before it
fill the limit. -/
lemma lookup_badges (hid : (rotations.map Rotation.id).Nodup) (hc : c ∈ credentialIds) :
    (getActiveRotationBadgesByCredential rotations credentialIds).lookup c =
      if rowsBefore rotations credentialIds c < maxRotationBadgeRowsPerQuery then
        (latestRotation rotations c).bind Rotation.badge
      else none := by
  have hsorted := (sortAsc_pairwise badgeOrder (rotationsOf rotations credentialIds)).imp
    badgeOrder_credentialId
  rw [getActiveRotationBadgesByCredential, if_neg (List.ne_nil_of_mem hc), lookup_collectBadges,
    if_neg (by simp), firstRows, find?_take_of_groups hsorted, length_filter_sortAsc,
    find?_badgeOrder hid hc, rowsBefore]
  split_ifs <;> rfl

/-! ### What the due rotations are measured from -/

lemma lookup_foldl_add (rows : List Rotation) (s : RotationSummary) :
    (rows.foldl RotationSummary.add s).latestByCredential.lookup c =
      (s.latestByCredential.lookup c).or
        ((rows.find? fun r => r.credentialId = c).map Rotation.times) := by
  induction rows generalizing s with
  | nil => simp
  | cons r rows ih =>
    rw [List.foldl_cons, ih]
    by_cases hrc : r.credentialId = c
    · subst hrc
      rw [List.find?_cons_of_pos (by simp), RotationSummary.add]
      cases hs : s.latestByCredential.lookup r.credentialId with
      | none => simp [List.lookup_append, hs]
      | some times => simp [hs]
    · rw [List.find?_cons_of_neg (by simpa using hrc), RotationSummary.add]
      dsimp only
      split_ifs
      · rfl
      · rw [List.lookup_append, List.lookup_cons, beq_false_of_ne (Ne.symm hrc)]
        simp

lemma mem_active_foldl_add (rows : List Rotation) (s : RotationSummary) :
    c ∈ (rows.foldl RotationSummary.add s).activeCredentialIds ↔
      c ∈ s.activeCredentialIds ∨ ∃ r ∈ rows, r.credentialId = c ∧ r.isActive = true := by
  induction rows generalizing s with
  | nil => simp
  | cons r rows ih =>
    rw [List.foldl_cons, ih, RotationSummary.add]
    dsimp only
    rw [List.exists_mem_cons_iff]
    split_ifs with hactive
    · rw [List.mem_cons, eq_comm (a := c)]
      tauto
    · simp [hactive]

/-- No two rotations of a credential were created at one time. -/
def CreatedApart (rotations : List Rotation) (c : ℕ) : Prop :=
  ∀ r ∈ rotations, ∀ x ∈ rotations, r.credentialId = c → x.credentialId = c →
    r.createdAt = x.createdAt → r = x

/-- The first row of a credential by `historyOrder` is its latest rotation, if no two were created
at one time. -/
lemma find?_historyOrder (hapart : CreatedApart rotations c) (hc : c ∈ credentialIds) :
    (sortAsc historyOrder (rotationsOf rotations credentialIds)).find?
      (fun r => r.credentialId = c) = latestRotation rotations c := by
  cases hfind : (sortAsc historyOrder (rotationsOf rotations credentialIds)).find?
      (fun r => r.credentialId = c) with
  | none =>
    refine (latestRotation_eq_none fun r hr hrc => ?_).symm
    have hmem := mem_rotationsOf.2 ⟨hr, hrc ▸ hc⟩
    exact absurd (List.find?_eq_none.1 hfind r ((mem_sortAsc _).2 hmem)) (by simpa using hrc)
  | some r =>
    obtain ⟨hr, hrc, hleast⟩ := find?_sortAsc hfind
    have hrc : r.credentialId = c := by simpa using hrc
    have hr := (mem_rotationsOf.1 hr).1
    refine (argmax_eq_some_of_lt (List.mem_filter.2 ⟨hr, by simpa using hrc⟩)
      fun x hx hne => ?_).symm
    obtain ⟨hx, hxc⟩ := List.mem_filter.1 hx
    have hxc : x.credentialId = c := by simpa using hxc
    have hle : x.createdAt ≤ r.createdAt := (historyOrder_le_iff (hrc.trans hxc.symm)).1
      (hleast x (mem_rotationsOf.2 ⟨hx, hxc ▸ hc⟩) (by simpa using hxc))
    refine Prod.Lex.toLex_lt_toLex.2 (.inl (lt_of_le_of_ne hle fun heq => hne ?_))
    exact hapart x hx r hr hxc hrc heq

/-- Within the limit, the summary of a credential is that of all its rotations. -/
lemma fetchRotationSummaryByCredential_eq (hc : c ∈ credentialIds)
    (hcap : rowsUpTo rotations credentialIds c ≤ maxRotationHistoryRowsPerQuery) :
    (c ∈ (fetchRotationSummaryByCredential rotations credentialIds).activeCredentialIds ↔
        ∃ r ∈ rotations, r.credentialId = c ∧ r.isActive = true) ∧
      (CreatedApart rotations c →
        (fetchRotationSummaryByCredential rotations credentialIds).latestByCredential.lookup c =
          (latestRotation rotations c).map Rotation.times) := by
  have hsorted := (sortAsc_pairwise historyOrder (rotationsOf rotations credentialIds)).imp
    historyOrder_credentialId
  have hcap' : ((sortAsc historyOrder (rotationsOf rotations credentialIds)).filter
      fun r => r.credentialId ≤ c).length ≤ maxRotationHistoryRowsPerQuery := by
    rwa [length_filter_sortAsc]
  have hmem : ∀ r ∈ rotations, r.credentialId = c →
      r ∈ firstRows historyOrder maxRotationHistoryRowsPerQuery
        (rotationsOf rotations credentialIds) := fun r hr hrc =>
    mem_take_of_groups hsorted hcap' ((mem_sortAsc _).2 (mem_rotationsOf.2 ⟨hr, hrc ▸ hc⟩)) hrc
  rw [fetchRotationSummaryByCredential, if_neg (List.ne_nil_of_mem hc)]
  refine ⟨?_, fun hapart => ?_⟩
  · rw [mem_active_foldl_add]
    constructor
    · rintro (hnone | ⟨r, hr, hrc, hactive⟩)
      · simp at hnone
      · exact ⟨r, (mem_rotationsOf.1 (firstRows_subset hr)).1, hrc, hactive⟩
    · rintro ⟨r, hr, hrc, hactive⟩
      exact .inr ⟨r, hmem r hr hrc, hrc, hactive⟩
  · rw [lookup_foldl_add, List.lookup_nil, Option.none_or]
    refine congrArg (Option.map Rotation.times) ?_
    rw [firstRows, find?_take_of_groups hsorted, ← find?_historyOrder hapart hc]
    split_ifs with hlt
    · rfl
    · -- the limit leaves no row of the credential out, so there is none
      refine (List.find?_eq_none.2 fun r hr hrc => hlt ?_).symm
      obtain rfl : r.credentialId = c := by simpa using hrc
      exact (length_filter_lt_of_mem hr).trans_le hcap'

/-- A listed credential with all its rows within the limit has no active rotation, and its due time
follows on its latest rotation. -/
lemma computeUpcomingRotations_sound {next : String → ℕ → Option ℕ} {credentials : List Credential}
    {projectId : Option ℕ} {horizonDays now : ℕ} {u : UpcomingRotation}
    (hu : u ∈ computeUpcomingRotations next credentials rotations projectId horizonDays now)
    (hcap : rowsUpTo rotations ((fetchCredentialsWithSchedule credentials projectId).map Credential.id)
      u.credentialId ≤ maxRotationHistoryRowsPerQuery) :
    (∀ r ∈ rotations, r.credentialId = u.credentialId → r.isActive = false) ∧
      (CreatedApart rotations u.credentialId →
        ∃ cred ∈ credentials, cred.id = u.credentialId ∧ ∃ schedule,
          cred.rotationSchedule = some schedule ∧
          next schedule (resolveReferencePoint cred
            ((latestRotation rotations cred.id).map Rotation.times)) = some u.nextDueAt) := by
  rw [computeUpcomingRotations] at hu
  dsimp only at hu
  split at hu
  · simp at hu
  · rw [mem_sortAsc, List.mem_filterMap] at hu
    obtain ⟨cred, hcred, hu⟩ := hu
    split at hu
    · simp at hu
    · next hinactive =>
      rw [resolveUpcomingRotation.eq_def] at hu
      split at hu
      · simp at hu
      · next schedule hschedule =>
        split at hu
        · simp at hu
        · split at hu
          · simp at hu
          · next due hdue =>
            split at hu
            · simp at hu
            · cases hu
              have hc : cred.id ∈ (fetchCredentialsWithSchedule credentials projectId).map
                  Credential.id := List.mem_map_of_mem hcred
              obtain ⟨hactive, hlatest⟩ := fetchRotationSummaryByCredential_eq hc hcap
              refine ⟨fun r hr hrc => ?_, fun hapart => ?_⟩
              · rw [← Bool.not_eq_true]
                exact fun hr' => hinactive (hactive.2 ⟨r, hr, hrc, hr'⟩)
              · have hmem := (List.mem_filter.1 (firstRows_subset hcred)).1
                refine ⟨cred, hmem, rfl, schedule, hschedule, ?_⟩
                rw [← hlatest hapart]
                exact hdue

/-- A credential that was not asked for has no badge. -/
lemma lookup_badges_of_not_mem (hc : c ∉ credentialIds) :
    (getActiveRotationBadgesByCredential rotations credentialIds).lookup c = none := by
  rw [getActiveRotationBadgesByCredential]
  split_ifs
  · rfl
  · rw [lookup_collectBadges, if_neg (by simp), List.find?_eq_none.2, Option.bind_none]
    intro r hr hrc
    have hrc : r.credentialId = c := by simpa using hrc
    exact hc (hrc ▸ (mem_rotationsOf.1 (firstRows_subset hr)).2)

/-- **Batch lookups agree with the single credential** within their limits: the badges are those of
the latest rotations of the credentials requested, up to the first that fills the limit, and a
rotation listed as due belongs to a credential without an active rotation and follows on its
latest. -/
theorem batch_lookups_agree (hid : (rotations.map Rotation.id).Nodup) :
    (∀ credentialIds c, (getActiveRotationBadgesByCredential rotations credentialIds).lookup c =
      if c ∈ credentialIds ∧ rowsBefore rotations credentialIds c < maxRotationBadgeRowsPerQuery then
        (latestRotation rotations c).bind Rotation.badge
      else none) ∧
    ∀ next credentials projectId horizonDays now,
      ∀ u ∈ computeUpcomingRotations next credentials rotations projectId horizonDays now,
        rowsUpTo rotations ((fetchCredentialsWithSchedule credentials projectId).map Credential.id)
            u.credentialId ≤ maxRotationHistoryRowsPerQuery →
          (∀ r ∈ rotations, r.credentialId = u.credentialId → r.isActive = false) ∧
            (CreatedApart rotations u.credentialId →
              ∃ cred ∈ credentials, cred.id = u.credentialId ∧ ∃ schedule,
                cred.rotationSchedule = some schedule ∧
                next schedule (resolveReferencePoint cred
                  ((latestRotation rotations cred.id).map Rotation.times)) = some u.nextDueAt) := by
  refine ⟨fun credentialIds c => ?_, fun next credentials projectId horizonDays now u hu hcap =>
    computeUpcomingRotations_sound hu hcap⟩
  by_cases hc : c ∈ credentialIds
  · rw [lookup_badges hid hc]
    simp [hc]
  · rw [lookup_badges_of_not_mem hc, if_neg (by simp [hc])]

/-! ### A crowded history -/

/-- A rotation of a credential. -/
def rotationOf (credentialId id : ℕ) (status : RotationStatus) : Rotation where
  id := id
  orgId := 9
  projectId := 100
  credentialId := credentialId
  newVersionId := 2 * id + 1
  previousVersionId := 2 * id
  status := status
  version := 1
  initiatedBy := none
  initiatedAt := id
  completedAt := none
  promotedAt := none
  retiredAt := none
  notes := none
  targetFields := none
  createdAt := id
  updatedAt := id

/-- A retired rotation after a staged one. -/
theorem batch_lookups_agree_retired :
    (getActiveRotationBadgesByCredential [rotationOf 1 1 .staged, rotationOf 1 2 .retired]
      [1]).lookup 1 = none :=
  have hid : ([rotationOf 1 1 .staged, rotationOf 1 2 .retired].map Rotation.id).Nodup := by decide
  ((batch_lookups_agree hid).1 [1] 1).trans (by decide)

/-- Retired rotations of one credential and then a staged one of another. -/
def crowdedRotations (n : ℕ) : List Rotation :=
  (List.range n).map (fun i => rotationOf 1 i .retired) ++ [rotationOf 2 n .staged]

lemma crowdedRotations_ids (n : ℕ) : ((crowdedRotations n).map Rotation.id).Nodup := by
  have hids : (crowdedRotations n).map Rotation.id = List.range (n + 1) := by
    rw [crowdedRotations, List.map_append, List.map_map, List.range_succ]
    exact congrArg (· ++ [n]) (List.map_id _)
  rw [hids]
  exact List.nodup_range

lemma latestRotation_crowdedRotations (n : ℕ) :
    latestRotation (crowdedRotations n) 2 = some (rotationOf 2 n .staged) := by
  refine latestRotation_eq_some (crowdedRotations_ids n) (by simp [crowdedRotations]) rfl
    fun x hx hxc => ?_
  rcases List.mem_append.1 hx with hx | hx
  · obtain ⟨i, -, rfl⟩ := List.mem_map.1 hx
    simp [rotationOf] at hxc
  · rw [List.mem_singleton.1 hx]

lemma rowsBefore_crowdedRotations (n : ℕ) : rowsBefore (crowdedRotations n) [1, 2] 2 = n := by
  simp [rowsBefore, rotationsOf, crowdedRotations, rotationOf, List.filter_map, Function.comp_def]

/-- When the history of the first credential fills the limit, the staged rotation of the second
loses its badge. -/
theorem crowded_badge_missing :
    ((crowdedRotations 5000).map Rotation.id).Nodup ∧
      (latestRotation (crowdedRotations 5000) 2).bind Rotation.badge = some ⟨5000, .staged⟩ ∧
      (getActiveRotationBadgesByCredential (crowdedRotations 5000) [1, 2]).lookup 2 = none := by
  refine ⟨crowdedRotations_ids _, ?_, ?_⟩
  · rw [latestRotation_crowdedRotations]
    rfl
  · rw [lookup_badges (crowdedRotations_ids _) (by simp), rowsBefore_crowdedRotations]
    rfl

end ProjectVault
