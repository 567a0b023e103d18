import ProjectVault.Notifications.System

/-!
The claim of a row by one attempt at a time.
-/

namespace ProjectVault.Notifications

open Js Db

/-! ### Columns of the attempts -/

/-- The columns that decide on attempts: their number, and whether a send has started. -/
def QueueRow.core (r : QueueRow) : ℕ × Bool := (r.attemptCount, r.sendStartedAt.isSome)

/-- Two states of the tables with the same columns of the attempts. -/
def SameCore (d d' : NotificationDb) : Prop :=
  ∀ id, (d'.row id).map QueueRow.core = (d.row id).map QueueRow.core

section Core

variable {d d' : NotificationDb}

lemma SameCore.refl (d : NotificationDb) : SameCore d d := fun _ => rfl

lemma SameCore.trans {d'' : NotificationDb} (h : SameCore d d') (h' : SameCore d' d'') :
    SameCore d d'' := fun id => (h' id).trans (h id)

lemma sameCore_updateWhere (p : QueueRow → Bool) {set : QueueRow → QueueRow}
    (hid : ∀ r, (set r).id = r.id) (hcore : ∀ r, (set r).core = r.core) :
    SameCore d { d with queue := updateWhere p set d.queue } := by
  intro id
  rw [row_updateWhere p hid, Option.map_map]
  congr 1
  funext r
  by_cases hp : p r = true
  · simp [hp, hcore]
  · simp [hp]

lemma sameCore_update (id : ℕ) {set : QueueRow → QueueRow} (hid : ∀ r, (set r).id = r.id)
    (hcore : ∀ r, (set r).core = r.core) : SameCore d (d.update id set) :=
  sameCore_updateWhere _ hid hcore

lemma sameCore_apply (now : ℕ) (input : DeliveryStatusUpdate) (d : NotificationDb) :
    SameCore d (applyDeliveryStatusUpdate now input d).1 := by
  unfold applyDeliveryStatusUpdate
  cases d.row input.queueId with
  | none => exact .refl d
  | some r =>
    cases input.newStatus with
    | none => exact .refl d
    | some newStatus =>
      by_cases hrank : deliveryStatusRank newStatus < deliveryStatusRank r.status
      · simp only [if_pos hrank]
        exact .refl d
      · by_cases hsame : r.status = newStatus
        · simp only [if_neg hrank, if_pos hsame]
          exact sameCore_update _ (fun _ => rfl) fun _ => rfl
        · simp only [if_neg hrank, if_neg hsame]
          exact sameCore_update _ (fun _ => rfl) fun _ => rfl

lemma sameCore_writeStatuses (now : ℕ) (status : NotificationQueueStatus) (ids : List ℕ)
    (d : NotificationDb) : SameCore d (writeStatuses now status ids d) := by
  induction ids generalizing d with
  | nil => exact .refl d
  | cons id ids ih =>
    have hfirst : SameCore d (d.update id (QueueRow.written now status)) :=
      sameCore_update id (fun _ => rfl) fun _ => rfl
    exact hfirst.trans (ih _)

lemma sameCore_suppress (now orgId : ℕ) (key text : String) (d : NotificationDb) :
    SameCore d (suppressPendingNotifications now orgId key text d) :=
  sameCore_updateWhere _ (fun _ => rfl) fun _ => rfl

end Core

/-! ### The sends of a row -/

/-- Where the sends of a row are. -/
inductive SendPhase where
  | idle | inFlight (attempt : ℕ) | done (attempt : ℕ)

/-- An attempt sends the row. -/
def isSendOf (id : ℕ) : SendEvent → Bool
  | .started id' _ | .threw id' _ | .resolved id' _ => id' = id
  | .mailed _ => false

/-- The sends of a row, the newest first: a send starts only when none is in flight and
none has resolved, and it ends once. -/
inductive SerialSends (id : ℕ) : List SendEvent → SendPhase → Prop where
  | nil : SerialSends id [] .idle
  | started {sends : List SendEvent} {attempt : ℕ} (h : SerialSends id sends .idle) :
      SerialSends id (.started id attempt :: sends) (.inFlight attempt)
  | threw {sends : List SendEvent} {attempt : ℕ} (h : SerialSends id sends (.inFlight attempt)) :
      SerialSends id (.threw id attempt :: sends) .idle
  | resolved {sends : List SendEvent} {attempt : ℕ}
      (h : SerialSends id sends (.inFlight attempt)) :
      SerialSends id (.resolved id attempt :: sends) (.done attempt)
  | other {sends : List SendEvent} {phase : SendPhase} {event : SendEvent}
      (he : isSendOf id event = false) (h : SerialSends id sends phase) :
      SerialSends id (event :: sends) phase

/-- The sends determine where they are. -/
lemma SerialSends.unique {id : ℕ} {sends : List SendEvent} {phase phase' : SendPhase}
    (h : SerialSends id sends phase) (h' : SerialSends id sends phase') : phase = phase' := by
  induction h generalizing phase' with
  | nil => cases h'; rfl
  | started _ ih =>
    cases h' with
    | started _ => rfl
    | other he _ => simp [isSendOf] at he
  | threw _ ih =>
    cases h' with
    | threw _ => rfl
    | other he _ => simp [isSendOf] at he
  | resolved _ ih =>
    cases h' with
    | resolved _ => rfl
    | other he _ => simp [isSendOf] at he
  | other he _ ih =>
    cases h' with
    | other _ h' => exact ih h'
    | started _ | threw _ | resolved _ => simp [isSendOf] at he

/-! ### The invariant -/

/-- The number of the attempt of a worker. -/
def Phase.attempt : Phase → Option ℕ
  | taken => none
  | claimed n | marked n | sending n | rejected n | resolved n | releasing n => some n

/-- While a send is in flight, and for good once it has resolved, its attempt is the newest
and its start is marked. -/
def RowFits (core : ℕ × Bool) : SendPhase → Prop
  | .idle => True
  | .inFlight n | .done n => core = (n, true)

/-- What the phase of a worker says about its row. -/
def WorkerFits (core : ℕ × Bool) (sends : SendPhase) : Phase → Prop
  | .taken => True
  | .claimed n | .releasing n => n ≤ core.1 ∧ (n = core.1 → sends = .idle)
  | .marked n | .rejected n => core = (n, true) ∧ sends = .idle
  | .sending n => sends = .inFlight n
  | .resolved n => sends = .done n

/-- The attempts at the rows. -/
structure AttemptInv (s : NotificationState) : Prop where
  bounded : ∀ id r, s.db.row id = some r → r.attemptCount ≤ notificationMaxAttempts
  jobs : ∀ id ∈ s.jobs, ∃ r, s.db.row id = some r
  known : ∀ i w, s.workers i = some w → ∃ r, s.db.row w.queueId = some r
  fresh : ∀ id, s.db.row id = none → SerialSends id s.sends .idle
  fits : ∀ id r, s.db.row id = some r → ∃ phase, SerialSends id s.sends phase ∧
    RowFits r.core phase ∧
    ∀ i w, s.workers i = some w → w.queueId = id → WorkerFits r.core phase w.phase
  apart : ∀ i j w w' n, s.workers i = some w → s.workers j = some w' → w.queueId = w'.queueId →
    w.phase.attempt = some n → w'.phase.attempt = some n → i = j

lemma WorkerFits.le {core : ℕ × Bool} {sends : SendPhase} {phase : Phase} {n : ℕ}
    (h : WorkerFits core sends phase) (hrow : RowFits core sends) (hn : phase.attempt = some n) :
    n ≤ core.1 := by
  cases phase with
  | taken => simp [Phase.attempt] at hn
  | claimed m | releasing m =>
    cases hn
    exact h.1
  | marked m | rejected m =>
    cases hn
    rw [h.1]
  | sending m | resolved m =>
    cases hn
    rw [h] at hrow
    rw [hrow]

/-! ### Steps that leave the attempts alone -/

/-- The attempts of the rows and of the workers are as before. -/
structure SameAttempts (s s' : NotificationState) : Prop where
  core : SameCore s.db s'.db
  workers : ∀ i w, s'.workers i = some w → s.workers i = some w
  sends : ∀ id phase, SerialSends id s.sends phase → SerialSends id s'.sends phase
  jobs : ∀ id ∈ s'.jobs, id ∈ s.jobs ∨ ∃ r, s.db.row id = some r

lemma exists_row_of_sameCore {d d' : NotificationDb} (h : SameCore d d') {id : ℕ} {r : QueueRow}
    (hr : d'.row id = some r) : ∃ r₀, d.row id = some r₀ ∧ r.core = r₀.core := by
  have hid := h id
  rw [hr] at hid
  cases hrow : d.row id with
  | none => simp [hrow] at hid
  | some r₀ =>
    rw [hrow] at hid
    exact ⟨r₀, rfl, by simpa using hid⟩

lemma SameCore.symm {d d' : NotificationDb} (h : SameCore d d') : SameCore d' d :=
  fun id => (h id).symm

lemma AttemptInv.congr {s s' : NotificationState} (h : AttemptInv s) (hsame : SameAttempts s s') :
    AttemptInv s' where
  bounded id r hr := by
    obtain ⟨r₀, hr₀, hcore⟩ := exists_row_of_sameCore hsame.core hr
    have hcount : r.attemptCount = r₀.attemptCount := congrArg Prod.fst hcore
    exact hcount ▸ h.bounded id r₀ hr₀
  jobs id hid := by
    obtain ⟨r, hr⟩ : ∃ r, s.db.row id = some r := (hsame.jobs id hid).elim (h.jobs id) fun hr => hr
    obtain ⟨r', hr', -⟩ := exists_row_of_sameCore hsame.core.symm hr
    exact ⟨r', hr'⟩
  known i w hw := by
    obtain ⟨r, hr⟩ := h.known i w (hsame.workers i w hw)
    obtain ⟨r', hr', -⟩ := exists_row_of_sameCore hsame.core.symm hr
    exact ⟨r', hr'⟩
  fresh id hid := by
    refine hsame.sends id .idle (h.fresh id ?_)
    cases hrow : s.db.row id with
    | none => rfl
    | some r =>
      obtain ⟨r', hr', -⟩ := exists_row_of_sameCore hsame.core.symm hrow
      rw [hid] at hr'
      simp at hr'
  fits id r hr := by
    obtain ⟨r₀, hr₀, hcore⟩ := exists_row_of_sameCore hsame.core hr
    obtain ⟨phase, hserial, hrow, hworkers⟩ := h.fits id r₀ hr₀
    rw [hcore]
    exact ⟨phase, hsame.sends id phase hserial, hrow,
      fun i w hw hid => hworkers i w (hsame.workers i w hw) hid⟩
  apart i j w w' n hw hw' := h.apart i j w w' n (hsame.workers i w hw) (hsame.workers j w' hw')

/-! ### Steps of one attempt -/

lemma AttemptInv.update {s s' : NotificationState} (h : AttemptInv s) {i id : ℕ} {r : QueueRow}
    {phase : SendPhase} {mine : Option Worker} (r' : QueueRow) (phase' : SendPhase) (hrow : s.db.row id = some r)
    (hserial : SerialSends id s.sends phase) (hrow' : s'.db.row id = some r')
    (hother : ∀ n, n ≠ id → s'.db.row n = s.db.row n)
    (hsends : SerialSends id s'.sends phase')
    (hsends' : ∀ n, n ≠ id → ∀ p, SerialSends n s.sends p → SerialSends n s'.sends p)
    (hworkers : s'.workers = (s.setWorker i mine).workers) (hjobs : s'.jobs = s.jobs)
    (hle : r'.attemptCount ≤ notificationMaxAttempts) (hfits : RowFits r'.core phase')
    (hmine : ∀ w, mine = some w → w.queueId = id ∧ WorkerFits r'.core phase' w.phase)
    (hothers : ∀ j w, j ≠ i → s.workers j = some w → w.queueId = id →
      WorkerFits r.core phase w.phase → WorkerFits r'.core phase' w.phase)
    (hapart : ∀ w n, mine = some w → w.phase.attempt = some n → ∀ j w', j ≠ i →
      s.workers j = some w' → w'.queueId = id → w'.phase.attempt ≠ some n) : AttemptInv s' := by
  have hold : ∀ j w, j ≠ i → s'.workers j = some w → s.workers j = some w := by
    intro j w hj hw
    rw [hworkers] at hw
    simpa [NotificationState.setWorker, hj] using hw
  have hnew : ∀ w, s'.workers i = some w → mine = some w := by
    intro w hw
    rw [hworkers] at hw
    simpa [NotificationState.setWorker] using hw
  have hexists : ∀ n r₀, s.db.row n = some r₀ → ∃ r₁, s'.db.row n = some r₁ := by
    intro n r₀ hr₀
    by_cases hn : n = id
    · exact ⟨r', hn ▸ hrow'⟩
    · exact ⟨r₀, (hother n hn).trans hr₀⟩
  constructor
  · intro n r₀ hr₀
    by_cases hn : n = id
    · subst hn
      rw [hrow'] at hr₀
      cases hr₀
      exact hle
    · exact h.bounded n r₀ ((hother n hn).symm.trans hr₀)
  · intro n hn
    obtain ⟨r₀, hr₀⟩ := h.jobs n (hjobs ▸ hn)
    exact hexists n r₀ hr₀
  · intro j w hw
    by_cases hj : j = i
    · subst hj
      exact ⟨r', (hmine w (hnew w hw)).1 ▸ hrow'⟩
    · obtain ⟨r₀, hr₀⟩ := h.known j w (hold j w hj hw)
      exact hexists w.queueId r₀ hr₀
  · intro n hn
    have hne : n ≠ id := by
      rintro rfl
      rw [hrow'] at hn
      simp at hn
    exact hsends' n hne .idle (h.fresh n ((hother n hne).symm.trans hn))
  · intro n r₀ hr₀
    by_cases hn : n = id
    · subst hn
      rw [hrow'] at hr₀
      cases hr₀
      obtain ⟨p, hp, -, hworkers'⟩ := h.fits n r hrow
      obtain rfl := hserial.unique hp
      refine ⟨phase', hsends, hfits, fun j w hw hid => ?_⟩
      by_cases hj : j = i
      · subst hj
        exact (hmine w (hnew w hw)).2
      · have hw' := hold j w hj hw
        exact hothers j w hj hw' hid (hworkers' j w hw' hid)
    · obtain ⟨p, hp, hfits', hworkers'⟩ := h.fits n r₀ ((hother n hn).symm.trans hr₀)
      refine ⟨p, hsends' n hn p hp, hfits', fun j w hw hid => ?_⟩
      by_cases hj : j = i
      · subst hj
        exact absurd (hid.symm.trans (hmine w (hnew w hw)).1) hn
      · exact hworkers' j w (hold j w hj hw) hid
  · intro j k w w' n hw hw' hid hn hn'
    by_cases hj : j = i
    · subst hj
      by_cases hk : k = j
      · exact hk.symm
      · have hmine' := hnew w hw
        exact absurd hn' (hapart w n hmine' hn k w' hk (hold k w' hk hw')
          (hid.symm.trans (hmine w hmine').1))
    · by_cases hk : k = i
      · subst hk
        have hmine' := hnew w' hw'
        exact absurd hn (hapart w' n hmine' hn' j w hj (hold j w hj hw)
          (hid.trans (hmine w' hmine').1))
      · exact h.apart j k w w' n (hold j w hj hw) (hold k w' hk hw') hid hn hn'

section Steps

variable {s s' : NotificationState} {i : ℕ} {w : Worker}
variable {a : NotificationLabel} {attempt : ℕ}

/-- A worker ends, with a transaction that leaves the attempts alone. -/
lemma AttemptInv.retire (h : AttemptInv s) (writer : Writer) {db : NotificationDb}
    (hcore : SameCore s.db db) (i : ℕ) : AttemptInv ((s.commit writer db).setWorker i none) := by
  refine h.congr ⟨hcore, fun j w hw => ?_, fun _ _ hp => hp, fun id hid => .inl hid⟩
  by_cases hj : j = i
  · simp [NotificationState.setWorker, hj] at hw
  · simpa [NotificationState.setWorker, NotificationState.commit, hj] using hw

/-- A worker goes on to a phase of the same attempt that says no more. -/
lemma AttemptInv.advance (h : AttemptInv s) (hw : s.workers i = some w) {phase : Phase}
    (hattempt : phase.attempt = w.phase.attempt)
    (hfits : ∀ core sends, RowFits core sends → WorkerFits core sends w.phase →
      WorkerFits core sends phase) :
    AttemptInv (s.setWorker i (some { w with phase })) := by
  obtain ⟨r, hrow⟩ := h.known i w hw
  obtain ⟨p, hserial, hrowFits, hworkers⟩ := h.fits w.queueId r hrow
  refine h.update r p hrow hserial hrow (fun _ _ => rfl) hserial (fun _ _ _ hp => hp) rfl rfl
    (h.bounded w.queueId r hrow) hrowFits ?_ (fun _ _ _ _ _ hfit => hfit) ?_
  · rintro w' hw'
    cases hw'
    exact ⟨rfl, hfits r.core p hrowFits (hworkers i w hw rfl)⟩
  · rintro w' n hw' hn j w₂ hj hw₂ hid hn₂
    cases hw'
    exact hj (h.apart j i w₂ w n hw₂ hw hid hn₂ (hattempt ▸ hn))

lemma AttemptInv.ne_attempt (h : AttemptInv s) (hw : s.workers i = some w) {n : ℕ}
    (hn : w.phase.attempt = some n) {j : ℕ} {w' : Worker} (hj : j ≠ i) (hw' : s.workers j = some w')
    (hid : w'.queueId = w.queueId) : w'.phase.attempt ≠ some n :=
  fun hn' => hj (h.apart j i w' w n hw' hw hid hn' hn)

lemma AttemptInv.claim (h : AttemptInv s) (i : ℕ) (w : Worker) (now : ℕ) :
    AttemptInv ((s.commit .worker (claimPendingNotificationEntry now w.queueId s.db).1).setWorker i
      ((claimPendingNotificationEntry now w.queueId s.db).2.map fun r =>
        ⟨w.queueId, .claimed r.attemptCount⟩)) := by
  unfold claimPendingNotificationEntry
  rcases updateIf_cases s.db w.queueId (isClaimable now) (QueueRow.claimed now) with
    ⟨heq, -⟩ | ⟨r, hrow, hcond, heq⟩
  · rw [heq]
    exact h.retire .worker (.refl s.db) i
  · rw [heq]
    simp only [isClaimable, Bool.and_eq_true, decide_eq_true_eq, Option.isNone_iff_eq_none] at hcond
    obtain ⟨⟨⟨⟨-, hless⟩, -⟩, -⟩, hmarker⟩ := hcond
    obtain ⟨p, hserial, hrowFits, hworkers⟩ := h.fits w.queueId r hrow
    -- no send is in flight, since none is marked
    have hidle : p = .idle := by
      cases p with
      | idle => rfl
      | inFlight n | done n =>
        have := congrArg Prod.snd hrowFits
        simp [QueueRow.core, hmarker] at this
    subst hidle
    refine h.update (r.claimed now) .idle hrow hserial ?_ ?_ hserial
      (fun _ _ _ hp => hp) rfl rfl hless trivial ?_ ?_ ?_
    · exact row_update_self (fun _ => rfl) hrow
    · exact fun n hn => row_update_of_ne (fun _ => rfl) hn
    · intro w' hw'
      cases hw'
      exact ⟨rfl, le_rfl, fun _ => rfl⟩
    · intro j w' hj hw' hid hfit
      cases hphase : w'.phase with
      | taken => trivial
      | claimed n | releasing n =>
        rw [hphase] at hfit
        exact ⟨hfit.1.trans (Nat.le_succ _), fun _ => rfl⟩
      | marked n | rejected n =>
        rw [hphase] at hfit
        have := congrArg Prod.snd hfit.1
        simp [QueueRow.core, hmarker] at this
      | sending n | resolved n =>
        rw [hphase] at hfit
        simp [WorkerFits] at hfit
    · rintro w' n hw' hn j w₂ hj hw₂ hid hn₂
      cases hw'
      cases hn
      have hle := (hworkers j w₂ hw₂ hid).le hrowFits hn₂
      have : r.attemptCount + 1 ≤ r.attemptCount := hle
      omega

lemma AttemptInv.mark (h : AttemptInv s) (hw : s.workers i = some w)
    (hphase : w.phase = .claimed attempt) (now : ℕ) (answered : Bool) :
    AttemptInv ((s.commit .worker
        (markNotificationSendStarted now w.queueId attempt s.db).1).setWorker i
      (some ⟨w.queueId,
        if (markNotificationSendStarted now w.queueId attempt s.db).2.isSome && answered
          then .marked attempt else .releasing attempt⟩)) := by
  obtain ⟨r, hrow⟩ := h.known i w hw
  obtain ⟨p, hserial, hrowFits, hworkers⟩ := h.fits w.queueId r hrow
  have hmine := hworkers i w hw rfl
  rw [hphase] at hmine
  have hapart : ∀ j w', j ≠ i → s.workers j = some w' → w'.queueId = w.queueId →
      w'.phase.attempt ≠ some attempt := fun j w' hj hw' hid =>
    h.ne_attempt hw (by rw [hphase]; rfl) hj hw' hid
  unfold markNotificationSendStarted
  rcases updateIf_cases s.db w.queueId (fun r => ownedBy attempt r && r.sendStartedAt.isNone)
    (QueueRow.sendStarted now) with ⟨heq, -⟩ | ⟨r₀, hrow₀, hcond, heq⟩
  · rw [heq]
    simp only [Option.isSome_none, Bool.false_and, Bool.false_eq_true, if_false]
    refine h.update r p hrow hserial hrow (fun _ _ => rfl) hserial (fun _ _ _ hp => hp) rfl rfl
      (h.bounded _ r hrow) hrowFits ?_ (fun _ _ _ _ _ hfit => hfit) ?_
    · intro w' hw'
      cases hw'
      exact ⟨rfl, hmine⟩
    · intro w' n hw' hn
      cases hw'
      cases hn
      exact hapart
  · rw [heq]
    obtain rfl : r₀ = r := Option.some.inj (hrow₀.symm.trans hrow)
    simp only [ownedBy, Bool.and_eq_true, decide_eq_true_eq, Option.isNone_iff_eq_none] at hcond
    obtain ⟨⟨-, hcount⟩, hmarker⟩ := hcond
    have hidle : p = .idle := hmine.2 hcount.symm
    subst hidle
    have hcore : (r₀.sendStarted now).core = (attempt, true) := by
      rw [← hcount]
      rfl
    refine h.update (r₀.sendStarted now) .idle hrow hserial ?_ ?_ hserial
      (fun _ _ _ hp => hp) rfl rfl (h.bounded _ r₀ hrow) trivial ?_ ?_ ?_
    · exact row_update_self (fun _ => rfl) hrow
    · exact fun n hn => row_update_of_ne (fun _ => rfl) hn
    · intro w' hw'
      cases hw'
      refine ⟨rfl, ?_⟩
      cases answered with
      | true => exact ⟨hcore, rfl⟩
      | false => exact ⟨by rw [hcore], fun _ => rfl⟩
    · intro j w' hj hw' hid hfit
      cases hphase' : w'.phase with
      | taken => trivial
      | claimed n | releasing n =>
        rw [hphase'] at hfit
        exact ⟨hfit.1, fun _ => rfl⟩
      | marked n | rejected n =>
        rw [hphase'] at hfit
        have := congrArg Prod.snd hfit.1
        simp [QueueRow.core, hmarker] at this
      | sending n | resolved n =>
        rw [hphase'] at hfit
        simp [WorkerFits] at hfit
    · intro w' n hw' hn
      cases hw'
      have hn' : n = attempt := by
        cases answered <;> exact (Option.some.inj hn).symm
      rw [hn']
      exact hapart

lemma AttemptInv.recordSend (h : AttemptInv s) (hw : s.workers i = some w) (sends' : SendPhase)
    (hattempt : w.phase.attempt = some attempt) {event : SendEvent} {phase : Phase}
    (hphase : phase.attempt = some attempt) (hother : ∀ n, n ≠ w.queueId → isSendOf n event = false)
    (hserial : ∀ core sends, RowFits core sends → WorkerFits core sends w.phase →
      SerialSends w.queueId s.sends sends → SerialSends w.queueId (event :: s.sends) sends')
    (hrowFits : ∀ core sends, RowFits core sends → WorkerFits core sends w.phase →
      RowFits core sends' ∧ WorkerFits core sends' phase)
    (hothers : ∀ core sends other, RowFits core sends → WorkerFits core sends w.phase →
      other.attempt ≠ some attempt → WorkerFits core sends other → WorkerFits core sends' other) :
    AttemptInv ((s.record event).setWorker i (some { w with phase })) := by
  obtain ⟨r, hrow⟩ := h.known i w hw
  obtain ⟨p, hp, hfits, hworkers⟩ := h.fits w.queueId r hrow
  have hmine := hworkers i w hw rfl
  refine h.update r sends' hrow hp hrow (fun _ _ => rfl) (hserial r.core p hfits hmine hp)
    (fun n hn q hq => .other (hother n hn) hq) rfl rfl (h.bounded _ r hrow)
    (hrowFits r.core p hfits hmine).1 ?_ ?_ ?_
  · intro w' hw'
    cases hw'
    exact ⟨rfl, (hrowFits r.core p hfits hmine).2⟩
  · intro j w' hj hw' hid hfit
    exact hothers r.core p w'.phase hfits hmine (h.ne_attempt hw hattempt hj hw' hid) hfit
  · intro w' n hw' hn j w₂ hj hw₂ hid
    cases hw'
    rw [hphase] at hn
    exact h.ne_attempt hw (hattempt.trans hn) hj hw₂ hid

/-- A send begins. -/
lemma AttemptInv.send (h : AttemptInv s) (hw : s.workers i = some w)
    (hphase : w.phase = .marked attempt) :
    AttemptInv ((s.record (.started w.queueId attempt)).setWorker i
      (some { w with phase := .sending attempt })) := by
  refine h.recordSend hw (.inFlight attempt) (by rw [hphase]; rfl) rfl
    (fun n hn => by simpa [isSendOf] using hn.symm) ?_ ?_ ?_
  · intro core sends _ hmine hp
    rw [hphase] at hmine
    exact .started (hmine.2 ▸ hp)
  · intro core sends _ hmine
    rw [hphase] at hmine
    exact ⟨hmine.1, rfl⟩
  · intro core sends other _ hmine hne hfit
    rw [hphase] at hmine
    cases other with
    | taken => trivial
    | claimed n | releasing n =>
      refine ⟨hfit.1, fun hn => absurd ?_ hne⟩
      rw [hmine.1] at hn
      rw [hn]
      rfl
    | marked n | rejected n =>
      refine absurd ?_ hne
      have hn : (n, true) = (attempt, true) := hfit.1.symm.trans hmine.1
      rw [(Prod.mk.inj hn).1]
      rfl
    | sending n | resolved n =>
      have : sends = .idle := hmine.2
      rw [this] at hfit
      simp [WorkerFits] at hfit

/-- What holds of the other workers when a send ends. -/
lemma workerFits_of_inFlight {core : ℕ × Bool} {other : Phase} {sends' : SendPhase}
    (hrow : RowFits core (.inFlight attempt)) (hne : other.attempt ≠ some attempt)
    (hfit : WorkerFits core (.inFlight attempt) other) : WorkerFits core sends' other := by
  have hcore : core = (attempt, true) := hrow
  cases other with
  | taken => trivial
  | claimed n | releasing n =>
    refine ⟨hfit.1, fun hn => absurd ?_ hne⟩
    rw [hcore] at hn
    rw [hn]
    rfl
  | marked n | rejected n =>
    simp [WorkerFits] at hfit
  | sending n =>
    cases hfit
    exact absurd rfl hne
  | resolved n => simp [WorkerFits] at hfit

/-- A send ends. -/
lemma AttemptInv.settle (h : AttemptInv s) (hw : s.workers i = some w)
    (hphase : w.phase = .sending attempt) {event : SendEvent} {phase : Phase} {sends' : SendPhase}
    (hnext : event = .resolved w.queueId attempt ∧ phase = .resolved attempt ∧ sends' = .done attempt ∨
      event = .threw w.queueId attempt ∧ sends' = .idle ∧
        (phase = .releasing attempt ∨ phase = .rejected attempt)) :
    AttemptInv ((s.record event).setWorker i (some { w with phase })) := by
  have hsends : ∀ core sends, WorkerFits core sends w.phase → sends = .inFlight attempt := by
    intro core sends hmine
    rw [hphase] at hmine
    exact hmine
  refine h.recordSend hw sends' (by rw [hphase]; rfl) ?_ ?_ ?_ ?_ ?_
  · rcases hnext with ⟨-, rfl, -⟩ | ⟨-, -, rfl | rfl⟩ <;> rfl
  · intro n hn
    rcases hnext with ⟨rfl, -⟩ | ⟨rfl, -⟩ <;> simpa [isSendOf] using hn.symm
  · intro core sends _ hmine hp
    rw [hsends core sends hmine] at hp
    rcases hnext with ⟨rfl, -, rfl⟩ | ⟨rfl, rfl, -⟩
    · exact .resolved hp
    · exact .threw hp
  · intro core sends hrow hmine
    rw [hsends core sends hmine] at hrow
    have hcore : core = (attempt, true) := hrow
    rcases hnext with ⟨-, rfl, rfl⟩ | ⟨-, rfl, rfl | rfl⟩
    · exact ⟨hcore, rfl⟩
    · exact ⟨trivial, by rw [hcore], fun _ => rfl⟩
    · exact ⟨trivial, hcore, rfl⟩
  · intro core sends other hrow hmine hne hfit
    rw [hsends core sends hmine] at hrow hfit
    exact workerFits_of_inFlight hrow hne hfit

lemma AttemptInv.release (h : AttemptInv s) (hw : s.workers i = some w)
    (hphase : w.phase = .releasing attempt) :
    AttemptInv ((s.commit .worker (releaseNotificationClaim w.queueId attempt s.db)).setWorker i
      none) := by
  unfold releaseNotificationClaim
  rcases updateIf_cases s.db w.queueId (ownedBy attempt) QueueRow.released with
    ⟨heq, -⟩ | ⟨r, hrow, hcond, heq⟩
  · rw [heq]
    exact h.retire .worker (.refl s.db) i
  · rw [heq]
    simp only [ownedBy, Bool.and_eq_true, decide_eq_true_eq] at hcond
    obtain ⟨p, hserial, hrowFits, hworkers⟩ := h.fits w.queueId r hrow
    have hmine := hworkers i w hw rfl
    rw [hphase] at hmine
    have hidle : p = .idle := hmine.2 hcond.2.symm
    subst hidle
    refine h.update r.released .idle hrow hserial
      (row_update_self (fun _ => rfl) hrow) (fun n hn => row_update_of_ne (fun _ => rfl) hn) hserial
      (fun _ _ _ hp => hp) rfl rfl (h.bounded _ r hrow) trivial (by simp) ?_ (by simp)
    intro j w' hj hw' hid hfit
    have hne := h.ne_attempt hw (by rw [hphase]; rfl : w.phase.attempt = some attempt) hj hw' hid
    cases hphase' : w'.phase with
    | taken => trivial
    | claimed n | releasing n =>
      rw [hphase'] at hfit
      exact ⟨hfit.1, fun _ => rfl⟩
    | marked n | rejected n =>
      -- the marker is that of the newest attempt, which is the one released
      rw [hphase'] at hfit hne
      refine absurd ?_ hne
      have hn : r.attemptCount = n := congrArg Prod.fst hfit.1
      rw [← hn, hcond.2]
      rfl
    | sending n | resolved n =>
      rw [hphase'] at hfit
      simp [WorkerFits] at hfit

/-- **Step lemma** for the workers. -/
lemma AttemptInv.workerStep (h : AttemptInv s) (hw : s.workers i = some w)
    (hs : workerStep s i w a = some s') : AttemptInv s' := by
  cases a with
  | claim _ now =>
    simp only [Notifications.workerStep] at hs
    split_ifs at hs
    cases hs
    exact h.claim i w now
  | suppress _ =>
    simp only [Notifications.workerStep] at hs
    split at hs
    · split_ifs at hs
      cases hs
      exact h.retire .worker (sameCore_apply _ _ _) i
    · split_ifs at hs
      cases hs
      exact h.retire .worker (sameCore_apply _ _ _) i
    · simp at hs
  | raise _ =>
    simp only [Notifications.workerStep] at hs
    split at hs
    · rename_i attempt hphase
      cases hs
      refine h.advance hw (by rw [hphase]; rfl) fun core sends _ hfit => ?_
      rw [hphase] at hfit
      exact hfit
    · rename_i attempt hphase
      cases hs
      refine h.advance hw (by rw [hphase]; rfl) fun core sends _ hfit => ?_
      rw [hphase] at hfit
      exact ⟨by rw [hfit.1], fun _ => hfit.2⟩
    · simp at hs
  | mark _ answered =>
    simp only [Notifications.workerStep] at hs
    split at hs
    · rename_i attempt hphase
      split_ifs at hs with hinbox hmarked
      · cases hs
        have hmark := h.mark hw hphase s.clock answered
        rw [if_pos hmarked] at hmark
        exact hmark
      · cases hs
        have hmark := h.mark hw hphase s.clock answered
        rw [if_neg hmarked] at hmark
        exact hmark
    · simp at hs
  | send _ =>
    simp only [Notifications.workerStep] at hs
    split at hs
    · rename_i attempt hphase
      cases hs
      exact h.send hw hphase
    · simp at hs
  | settle _ outcome =>
    simp only [Notifications.workerStep] at hs
    split at hs
    · rename_i attempt hphase
      cases outcome with
      | resolves =>
        cases hs
        exact h.settle hw hphase (.inl ⟨rfl, rfl, rfl⟩)
      | throws =>
        cases hs
        exact h.settle hw hphase (.inr ⟨rfl, rfl, .inl rfl⟩)
      | rejects =>
        simp only at hs
        split_ifs at hs
        cases hs
        exact h.settle hw hphase (.inr ⟨rfl, rfl, .inr rfl⟩)
    · simp at hs
  | recordStatus _ providerMessageId =>
    simp only [Notifications.workerStep] at hs
    split at hs
    · cases providerMessageId with
      | none =>
        cases hs
        exact h.retire .worker (sameCore_apply _ _ _) i
      | some messageId =>
        simp only at hs
        split_ifs at hs
        cases hs
        exact h.retire .worker (sameCore_apply _ _ _) i
    · cases hs
      exact h.retire .worker (sameCore_apply _ _ _) i
    · simp at hs
  | release _ =>
    simp only [Notifications.workerStep] at hs
    split at hs
    · rename_i attempt hphase
      cases hs
      exact h.release hw hphase
    · simp at hs
  | writeInbox _ =>
    simp only [Notifications.workerStep] at hs
    split at hs
    · split_ifs at hs
      cases hs
      exact h.retire .inbox (sameCore_writeStatuses _ _ _ _) i
    · simp at hs
  | stop _ =>
    cases hs
    refine h.congr ⟨.refl s.db, fun j w' hw' => ?_, fun _ _ hp => hp, fun id hid => .inl hid⟩
    by_cases hj : j = i
    · simp [NotificationState.setWorker, hj] at hw'
    · simpa [NotificationState.setWorker, hj] using hw'
  | _ => simp [Notifications.workerStep] at hs

/-- A transaction that leaves the attempts alone. -/
lemma sameAttempts_of_core (hcore : SameCore s.db s'.db) (hworkers : s'.workers = s.workers)
    (hsends : s'.sends = s.sends) (hjobs : s'.jobs = s.jobs) : SameAttempts s s' :=
  ⟨hcore, fun _ _ hw => hworkers ▸ hw, fun _ _ hp => hsends ▸ hp, fun _ hid => .inl (hjobs ▸ hid)⟩

/-- A digest run leaves the attempts alone. -/
lemma sameAttempts_digestStep {k : ℕ} {run : DigestRun} (hs : digestStep s k run a = some s') :
    SameAttempts s s' := by
  cases a with
  | digestSelect _ =>
    simp only [digestStep] at hs
    split at hs
    · cases hs
      exact sameAttempts_of_core (.refl s.db) rfl rfl rfl
    · simp at hs
  | digestSuppress _ =>
    simp only [digestStep] at hs
    split at hs
    · cases hs
      exact sameAttempts_of_core (sameCore_writeStatuses _ _ _ _) rfl rfl rfl
    · simp at hs
  | digestSend _ =>
    simp only [digestStep] at hs
    split at hs
    · cases hs
      exact sameAttempts_of_core (.refl s.db) rfl rfl rfl
    · simp at hs
  | digestSettle _ resolves =>
    simp only [digestStep] at hs
    split at hs
    · split_ifs at hs
      · cases hs
        exact ⟨.refl s.db, fun _ _ hw => hw, fun _ _ hp => .other rfl hp, fun _ hid => .inl hid⟩
      · cases hs
        exact sameAttempts_of_core (.refl s.db) rfl rfl rfl
    · simp at hs
  | digestCommit _ =>
    simp only [digestStep] at hs
    split at hs
    · cases hs
      exact sameAttempts_of_core (sameCore_writeStatuses _ _ _ _) rfl rfl rfl
    · simp at hs
  | digestAbort _ =>
    simp only [digestStep] at hs
    split at hs
    · cases hs
      exact sameAttempts_of_core (.refl s.db) rfl rfl rfl
    · simp at hs
  | digestStop _ =>
    cases hs
    exact sameAttempts_of_core (.refl s.db) rfl rfl rfl
  | _ => simp [digestStep] at hs

/-- The row of an id after a new row. -/
lemma row_append (d : NotificationDb) (r : QueueRow) (n : ℕ) :
    NotificationDb.row { d with queue := d.queue ++ [r] } n =
      (d.row n).or (if r.id = n then some r else none) := by
  change (d.queue ++ [r]).find? (fun r => r.id = n) = _
  rw [List.find?_append]
  congr 1
  by_cases hn : r.id = n
  · simp [hn]
  · simp [hn]

lemma AttemptInv.enqueue (h : AttemptInv s) {r : QueueRow} (hnew : r.IsNew)
    (hfree : s.db.row r.id = none) :
    AttemptInv { s with db := { s.db with queue := s.db.queue ++ [r] }, jobs := r.id :: s.jobs } := by
  have hrow : NotificationDb.row { s.db with queue := s.db.queue ++ [r] } r.id = some r := by
    rw [row_append, hfree, if_pos rfl]
    rfl
  have hother : ∀ n, n ≠ r.id →
      NotificationDb.row { s.db with queue := s.db.queue ++ [r] } n = s.db.row n := by
    intro n hn
    rw [row_append, if_neg (Ne.symm hn), Option.or_none]
  have hold : ∀ n, (∃ r', s.db.row n = some r') →
      ∃ r', NotificationDb.row { s.db with queue := s.db.queue ++ [r] } n = some r' := by
    rintro n ⟨r', hr'⟩
    have hn : n ≠ r.id := by
      rintro rfl
      rw [hfree] at hr'
      simp at hr'
    exact ⟨r', (hother n hn).trans hr'⟩
  refine ⟨?_, ?_, fun i w hw => hold _ (h.known i w hw), ?_, ?_, h.apart⟩
  · intro n r' hr'
    by_cases hn : n = r.id
    · subst hn
      obtain rfl := Option.some.inj (hrow.symm.trans hr')
      rw [hnew.attemptCount]
      exact Nat.zero_le _
    · exact h.bounded n r' ((hother n hn).symm.trans hr')
  · intro n hn
    rcases List.mem_cons.1 hn with rfl | hn
    · exact ⟨r, hrow⟩
    · exact hold n (h.jobs n hn)
  · intro n hn
    by_cases hn' : n = r.id
    · subst hn'
      exact absurd (hrow.symm.trans hn) (by simp)
    · exact h.fresh n ((hother n hn').symm.trans hn)
  · intro n r' hr'
    by_cases hn : n = r.id
    · subst hn
      refine ⟨.idle, h.fresh r.id hfree, trivial, fun i w hw hid => ?_⟩
      obtain ⟨r₀, hr₀⟩ := h.known i w hw
      rw [hid, hfree] at hr₀
      simp at hr₀
    · exact h.fits n r' ((hother n hn).symm.trans hr')

lemma AttemptInv.tableStep (h : AttemptInv s) (hs : tableStep s a = some s') : AttemptInv s' := by
  cases a with
  | enqueue r =>
    simp only [Notifications.tableStep] at hs
    split_ifs at hs with hnew
    cases hs
    exact h.enqueue hnew.1 hnew.2
  | tick n =>
    cases hs
    exact h.congr (sameAttempts_of_core (.refl s.db) rfl rfl rfl)
  | catchup orgId =>
    cases hs
    refine h.congr ⟨.refl s.db, fun _ _ hw => hw, fun _ _ hp => hp, fun id hid => ?_⟩
    rcases List.mem_append.1 hid with hid | hid
    · obtain ⟨r, hr, rfl⟩ := List.mem_map.1 hid
      have hmem : r ∈ s.db.queue :=
        List.mem_of_mem_filter ((mem_sortAsc _).1 (List.mem_of_mem_take hr))
      exact .inr (Table.find_isSome_iff.2 (List.mem_map_of_mem hmem))
    · exact .inl hid
  | webhook providerId providerMessageId status =>
    simp only [Notifications.tableStep] at hs
    split at hs
    · cases hs
      exact h
    · cases hs
      exact h.congr (sameAttempts_of_core (sameCore_apply _ _ _) rfl rfl rfl)
  | deleteAsset orgId key text =>
    cases hs
    exact h.congr (sameAttempts_of_core (sameCore_suppress _ _ _ _ _) rfl rfl rfl)
  | selectOutcomeUnknown orgId =>
    cases hs
    exact h.congr (sameAttempts_of_core (.refl s.db) rfl rfl rfl)
  | selectExhausted orgId =>
    cases hs
    exact h.congr (sameAttempts_of_core (.refl s.db) rfl rfl rfl)
  | failCandidate candidate =>
    simp only [Notifications.tableStep] at hs
    split_ifs at hs
    cases hs
    exact h.congr (sameAttempts_of_core (sameCore_apply _ _ _) rfl rfl rfl)
  | _ => simp [Notifications.tableStep] at hs

/-- **Step lemma.** -/
lemma AttemptInv.step (h : AttemptInv s) (hs : step s a = some s') :
    AttemptInv s' := by
  cases stepOf_of_step hs with
  | worker i w hw hstep => exact h.workerStep hw hstep
  | digest k run hrun hstep => exact h.congr (sameAttempts_digestStep hstep)
  | table hstep => exact h.tableStep hstep
  | deliver i id hfree hjob hstep =>
    subst hstep
    obtain ⟨r, hrow⟩ := h.jobs id hjob
    obtain ⟨p, hserial, hrowFits, -⟩ := h.fits id r hrow
    refine h.update r p hrow hserial hrow (fun _ _ => rfl) hserial (fun _ _ _ hp => hp) rfl rfl
      (h.bounded id r hrow) hrowFits ?_ (fun _ _ _ _ _ hfit => hfit) ?_
    · rintro w hw
      cases hw
      exact ⟨rfl, trivial⟩
    · rintro w n hw hn
      cases hw
      simp [Phase.attempt] at hn
  | digestStart k hfree hstep =>
    subst hstep
    exact h.congr (sameAttempts_of_core (.refl s.db) rfl rfl rfl)

end Steps

/-- The invariant of every run. -/
lemma attemptInv_of_reaches {clock : ℕ} {ok : NotificationState → NotificationLabel → Prop}
    {s : NotificationState} (h : (notifications clock).Reaches ok s) : AttemptInv s := by
  refine h.invariant (P := AttemptInv) ?_ fun s a s' hinv _ hs => hinv.step hs
  exact ⟨by simp [notifications, emptyQueue, NotificationDb.row, queueTable, Table.find],
    by simp [notifications, emptyQueue], by simp [notifications, emptyQueue],
    fun _ _ => .nil, by simp [notifications, emptyQueue, NotificationDb.row, queueTable, Table.find],
    by simp [notifications, emptyQueue]⟩

/-! ### The fences -/

/-- The sends of a row are serial, its attempts are bounded, and an attempt that has lost the
row neither marks nor releases it. -/
structure SendsFenced (s : NotificationState) (id : ℕ) : Prop where
  serial : ∃ phase, SerialSends id s.sends phase
  bounded : ∀ r, s.db.row id = some r → r.attemptCount ≤ notificationMaxAttempts
  lost : ∀ i w attempt r, s.workers i = some w → w.queueId = id → w.phase.attempt = some attempt →
    s.db.row id = some r → ownedBy attempt r = false →
      ∀ s', (∃ answered, step s (.mark i answered) = some s') ∨ step s (.release i) = some s' →
        s'.db = s.db ∧ ∀ w', s'.workers i = some w' → w'.phase = .releasing attempt

/-- An update that is fenced off. -/
lemma updateIf_of_eq_false {d : NotificationDb} {id : ℕ} {r : QueueRow} {cond : QueueRow → Bool}
    (set : QueueRow → QueueRow) (hrow : d.row id = some r) (hcond : cond r = false) :
    d.updateIf id cond set = (d, none) := by
  rcases updateIf_cases d id cond set with ⟨heq, -⟩ | ⟨r', hrow', hcond', -⟩
  · exact heq
  · obtain rfl := Option.some.inj (hrow.symm.trans hrow')
    simp [hcond] at hcond'

lemma AttemptInv.fenced {s : NotificationState} (h : AttemptInv s) (id : ℕ) : SendsFenced s id where
  serial := by
    cases hrow : s.db.row id with
    | none => exact ⟨.idle, h.fresh id hrow⟩
    | some r =>
      obtain ⟨phase, hserial, -⟩ := h.fits id r hrow
      exact ⟨phase, hserial⟩
  bounded r hr := h.bounded id r hr
  lost := by
    rintro i w attempt r hw rfl hattempt hrow hlost s' (⟨answered, hs⟩ | hs)
    · have hmark : markNotificationSendStarted s.clock w.queueId attempt s.db = (s.db, none) :=
        updateIf_of_eq_false _ hrow (by simp [hlost])
      simp only [Notifications.step, NotificationLabel.worker, hw, Option.bind_some,
        Notifications.workerStep] at hs
      split at hs
      · rename_i n hphase
        obtain rfl : n = attempt := by simpa [hphase, Phase.attempt] using hattempt
        split_ifs at hs with hinbox hmarked
        · simp [hmark] at hmarked
        · rw [hmark] at hs
          cases hs
          refine ⟨rfl, fun w' hw' => ?_⟩
          simp only [NotificationState.setWorker, if_pos] at hw'
          cases hw'
          rfl
      · simp at hs
    · have hrelease : releaseNotificationClaim w.queueId attempt s.db = s.db := by
        rw [releaseNotificationClaim, updateIf_of_eq_false _ hrow hlost]
      simp only [Notifications.step, NotificationLabel.worker, hw, Option.bind_some,
        Notifications.workerStep] at hs
      split at hs
      · rename_i n hphase
        obtain rfl : n = attempt := by simpa [hphase, Phase.attempt] using hattempt
        rw [hrelease] at hs
        cases hs
        exact ⟨rfl, by simp [NotificationState.setWorker]⟩
      · simp at hs

/-- In every run of the jobs on the queue and for every row: the external sends of its deliver
workers are serial, so that no two are in flight at once and none starts after one has
resolved; no more than `notificationMaxAttempts` attempts are counted; and a mark or a
release by an attempt that has lost the row changes nothing. -/
theorem sends_fenced (clock : ℕ) {s : NotificationState}
    (h : (notifications clock).Reaches (fun _ _ => True) s) (id : ℕ) : SendsFenced s id :=
  (attemptInv_of_reaches h).fenced id

/-! ### A send that is interrupted -/

/-- A row for a user, due at a moment. -/
def mailRow (deliverAt : Option ℕ) : QueueRow where
  id := 1
  orgId := 1
  recipientUserId := some 7
  channel := .email
  templateId := "rotation.reminder"
  payload := []
  status := .pending
  attemptCount := 0
  lastAttemptAt := none
  deliveredAt := none
  deliverAt := deliverAt
  createdAt := 0
  providerId := none
  providerMessageId := none
  lastEventAt := none
  claimExpiresAt := none
  sendStartedAt := none

/-- The job of the row is delivered twice. The first attempt is late, and its lease runs
out; the second one sends the row. -/
def lateAttempt : List NotificationLabel :=
  [.enqueue (mailRow none), .deliver 0 1, .claim 0 0, .tick 900, .deliver 1 1, .claim 1 900,
    .mark 1 true, .send 1]

/-- The fences of that row, where the first attempt has lost it. -/
theorem sends_fenced_lateAttempt :
    ∃ s, (notifications 0).Reaches (fun _ _ => True) s ∧
      (s.db.row 1).map QueueRow.attemptCount = some 2 ∧ s.sends = [.started 1 2] ∧
      SendsFenced s 1 := by
  obtain ⟨s, hs, hcount, hsends⟩ := Run.System.exists_of_exec (notifications 0) (fun _ _ => True)
    (notifications 0).init lateAttempt
    (fun s => (s.db.row 1).map QueueRow.attemptCount = some 2 ∧ s.sends = [.started 1 2])
    (by decide +kernel)
  have hreach := Run.System.steps_of_exec hs
  exact ⟨s, hreach, hcount, hsends, sends_fenced 0 hreach 1⟩

end ProjectVault.Notifications
