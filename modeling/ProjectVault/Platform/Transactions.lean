import ProjectVault.Platform.Working

/-!
The transactions of the platform audit log keep its protocol.
-/

namespace ProjectVault.Platform

open Js Db Audit

variable {env : PlatformEnv} {spec : EntrySpec env} {forced : Bool} {eff eff' eff'' : Effect}
  {warned : List ℕ} {l : Local PlatformDb PlatformLock} {w : PlatformWorld}
variable {swallowed : Bool} {entries : List PendingEntry} {done : List ℕ} {p : PendingEntry}
  {e : PlatformAuditEvent} {fields : PlatformAuditFields} {w' : PlatformWorld}
  {held : Set PlatformLock} {operatorId : UuidText}

/-! ### Entries -/

/-- The tail that the lock of the chain shows. -/
lemma Working.tail (h : Working spec forced eff warned l w) (hchain : .chain ∈ l.held) :
    (sortDesc PlatformAuditEvent.chainSeq (l.ctx w).view.events).head?.map (·.hmac) =
      Chain.lastHash PlatformAuditEvent.hmac none (w.db.events ++ eff.new) := by
  rw [h.view, Effect.apply, head?_sortDesc_eq_getLast? _ (h.inserted.sorted hchain)]
  simp [Chain.lastHash]

/-- A write inserts one event, or does nothing. -/
lemma wp_writePlatformAuditEntry (createdAt : Option ℕ) {drainedFrom : Option ℕ}
    (hgood : ∀ payload prev t n, redactPlatformAuditPayload env fields.payload = some payload →
      spec.good (fields.row env payload prev t n drainedFrom))
    (h : Working spec forced eff warned l w)
    (hsource : Sourced eff warned l.held w fields.receipt drainedFrom) :
    wp (platformProtocol spec)
      (writePlatformAuditEntry env fields createdAt drainedFrom fun db => db.take drainedFrom)
      (fun outcome l' w' => Later (platformProtocol spec) l w l' w' ∧ match outcome with
        | .written n => ∃ payload prev t, Working spec forced
            (eff.insert (fields.row env payload prev t n drainedFrom)) warned l' w'
        | _ => Working spec forced eff warned l' w') l w := by
  simp only [writePlatformAuditEntry, wp_bind]
  refine wp_either fun failed => ?_
  cases failed with
  | true => exact ⟨Later.refl l w, h⟩
  | false =>
    simp only [Bool.false_eq_true, if_false, wp_bind]
    refine wp_either fun threw => ?_
    cases threw with
    | true => exact ⟨Later.refl l w, h⟩
    | false =>
      simp only [Bool.false_eq_true, if_false, wp_bind]
      refine wp_query fun w₁ hr₁ hi₁ => ?_
      have h₁ := (h.rely hr₁).bump
      have hl₁ : Later (platformProtocol spec) l w l w₁.bump := Later.stmt hr₁ Set.Subset.rfl
      cases hredact : redactPlatformAuditPayload env fields.payload with
      | none => exact ⟨hl₁, h₁⟩
      | some payload =>
        simp only [getPreviousPlatformHmac, insertEvent, wp_bind, wp_pure]
        refine wp_lock fun w₂ hr₂ hi₂ => wp_query fun w₃ hr₃ hi₃ =>
          wp_update fun w₄ hr₄ hi₄ => ?_
        -- under the lock, at the read of the tail and at the insert
        have h₂ := ((h₁.rely hr₂).lockChain hi₂).bump
        have hl₂ := hl₁.trans (Later.stmt hr₂ (l.held_wrote [.chain] id))
        have hs₂ := (hsource.rely hl₂.rely).held_mono hl₂.held
        have h₃ := h₂.rely hr₃
        have hrely := (World.bump_rely w₃).trans hr₄
        have hchain : PlatformLock.chain ∈ (l.wrote [.chain] (id : PlatformDb → _)).held :=
          Or.inr (by simp)
        refine ⟨hl₂.trans ((Later.mk Set.Subset.rfl hr₃).trans
          (Later.stmt hrely (Local.held_wrote _ _ _))), payload, _, _,
          (h₃.rely hrely).insert hi₄ hchain rfl (hgood _ _ _ _ hredact) ?_
            ((hs₂.rely hr₃).rely hrely) ?_⟩
        · rw [events_eq_of_rely hrely hchain]
          exact h₃.tail hchain
        · rintro m rfl
          rfl

/-- A write of a call, or of a deactivation, that replaces nothing. -/
lemma wp_writeDirect (hentry : spec.entry fields ∨
      ∃ operatorId, spec.operator operatorId ∧ fields = deactivatedFields operatorId)
    (h : Working spec forced eff warned l w) :
    wp (platformProtocol spec) (writePlatformAuditEntry env fields none none id)
      (fun outcome l' w' => Later (platformProtocol spec) l w l' w' ∧ match outcome with
        | .written n => ∃ payload prev t, Working spec forced
            (eff.insert (fields.row env payload prev t n none)) warned l' w'
        | _ => Working spec forced eff warned l' w') l w := by
  have hsource : Sourced eff warned l.held w fields.receipt none := by
    intro m hm
    simp at hm
  have hwrite := wp_writePlatformAuditEntry none
    (fun payload prev t n hredact => spec.good_direct fields payload prev t n hentry hredact) h hsource
  simp only [PlatformDb.take_none] at hwrite
  exact hwrite

/-! ### Drains -/

/-- What a transaction has done when it has drained entries after `eff`. -/
structure Drained (spec : EntrySpec env) (eff eff' : Effect) : Prop where
  flag : eff'.flag = eff.flag
  own : eff'.own = eff.own
  queued : eff'.queued = eff.queued
  new : ∀ e ∈ eff.new, e ∈ eff'.new
  deactivations : spec.Ordinary → deactivations eff'.new = deactivations eff.new

lemma Drained.refl (spec : EntrySpec env) (eff : Effect) : Drained spec eff eff :=
  ⟨rfl, rfl, rfl, fun _ he => he, fun _ => rfl⟩

lemma Drained.trans (h : Drained spec eff eff') (h' : Drained spec eff' eff'') :
    Drained spec eff eff'' where
  flag := h'.flag.trans h.flag
  own := h'.own.trans h.own
  queued := h'.queued.trans h.queued
  new e he := h'.new e (h.new e he)
  deactivations ho := (h'.deactivations ho).trans (h.deactivations ho)

/-- A queued entry is not the event of a deactivation. -/
lemma EntrySpec.Queueable.actionType_ne (h : spec.Queueable p) (ho : spec.Ordinary) :
    p.fields.actionType ≠ maintenanceModeDeactivated := by
  obtain ⟨fields, payload, hentry, -, heq⟩ := h
  rw [heq]
  exact ho fields hentry

lemma drained_insert (hp : spec.Queueable p) (payload : List (String × Json)) (prev : Option String)
    (t n : ℕ) :
    Drained spec eff
      (eff.insert (p.retroactive.row env payload prev t n (some p.sequenceNum))) where
  flag := rfl
  own := Effect.own_insert_drained rfl
  queued := rfl
  new e he := List.mem_append_left _ he
  deactivations ho := by
    have hne : (p.retroactive.row env payload prev t n (some p.sequenceNum)).actionType ≠
        maintenanceModeDeactivated := hp.actionType_ne ho
    simp [Effect.insert, deactivations, PlatformAuditEvent.IsDeactivation, hne]

/-- What a drain writes for a queued entry is good. -/
lemma EntrySpec.Queueable.good (h : spec.Queueable p) {payload : List (String × Json)}
    (prev : Option String) (t n : ℕ)
    (hredact : redactPlatformAuditPayload env p.retroactive.payload = some payload) :
    spec.good (p.retroactive.row env payload prev t n (some p.sequenceNum)) := by
  obtain ⟨fields, stored, hentry, hstored, heq⟩ := h
  have hpayload : p.retroactive.payload = retroactivePayload stored := by
    simp [PendingEntry.retroactive, retroactivePayload, heq]
  rw [hpayload] at hredact
  have hrow : p.retroactive.row env payload prev t n (some p.sequenceNum) =
      fields.row env payload prev t n (some p.sequenceNum) := by
    simp [PendingEntry.retroactive, PlatformAuditFields.row, PlatformAuditFields.digest, heq]
  rw [hrow]
  exact spec.good_drained fields stored payload prev t n p.sequenceNum hentry hstored hredact

/-- The pending entries a transaction sees are those of calls. -/
lemma Working.queueable (h : Working spec forced eff warned l w) (hinv : PlatformInv spec w) :
    ∀ p ∈ (eff.apply w.db).pending, spec.Queueable p := by
  intro p hp
  cases List.mem_append.1 (List.mem_of_mem_filter hp) with
  | inl hold => exact hinv.queueable p hold
  | inr hown => exact h.switched.queueable p hown

/-- Where the loop of a drain stands: the entries still to come, in order, are those that
are pending and that nobody was warned about. -/
structure Draining (eff : Effect) (done : List ℕ) (w : PlatformWorld)
    (entries : List PendingEntry) : Prop where
  sorted : entries.Pairwise fun p q => p.sequenceNum ≤ q.sequenceNum
  nodup : (entries.map PendingEntry.sequenceNum).Nodup
  mem : ∀ p ∈ entries, p ∈ (eff.apply w.db).pending
  all : ∀ p ∈ (eff.apply w.db).pending, p ∈ entries ∨ p.sequenceNum ∈ done

lemma Draining.rely (h : Draining eff done w entries) (hr : Rely (platformProtocol spec) held w w')
    (hstate : .state ∈ held) :
    Draining eff done w' entries := by
  have heq := apply_pending_of_rely hr hstate eff
  exact ⟨h.sorted, h.nodup, heq ▸ h.mem, heq ▸ h.all⟩

lemma Draining.movable (h : Draining eff done w (p :: entries)) (hstate : .state ∈ held)
    (hdone : ∀ n ∈ done, n ∈ warned) : Movable eff warned held w p where
  state := hstate
  mem := h.mem p List.mem_cons_self
  first q hq hlt := by
    cases h.all q hq with
    | inl hmem =>
      cases List.mem_cons.1 hmem with
      | inl heq =>
        rw [heq] at hlt
        omega
      | inr hrest =>
        have hle := (List.pairwise_cons.1 h.sorted).1 q hrest
        omega
    | inr hmem => exact hdone _ hmem

/-- The next entry is left where it is. -/
lemma Draining.skip (h : Draining eff done w (p :: entries)) :
    Draining eff (done ++ [p.sequenceNum]) w entries where
  sorted := h.sorted.of_cons
  nodup := (List.nodup_cons.1 h.nodup).2
  mem q hq := h.mem q (List.mem_cons_of_mem _ hq)
  all q hq := by
    cases h.all q hq with
    | inl hmem =>
      cases List.mem_cons.1 hmem with
      | inl heq => exact Or.inr (List.mem_append_right _ (by simp [heq]))
      | inr hrest => exact Or.inl hrest
    | inr hmem => exact Or.inr (List.mem_append_left _ hmem)

/-- The next entry is moved. -/
lemma Draining.move (h : Draining eff done w (p :: entries))
    (he : e.drainedFrom = some p.sequenceNum) : Draining (eff.insert e) done w entries := by
  have hpending : ((eff.insert e).apply w.db).pending =
      (eff.apply w.db).pending.filter fun q => some p.sequenceNum ≠ some q.sequenceNum := by
    rw [Effect.apply_insert, he]
    rfl
  have hnot := (List.nodup_cons.1 h.nodup).1
  refine ⟨h.sorted.of_cons, (List.nodup_cons.1 h.nodup).2, ?_, ?_⟩
  · intro q hq
    rw [hpending]
    refine List.mem_filter.2 ⟨h.mem q (List.mem_cons_of_mem _ hq), ?_⟩
    have hne : p.sequenceNum ≠ q.sequenceNum := fun heq => hnot (heq ▸ List.mem_map_of_mem hq)
    simpa using hne
  · intro q hq
    rw [hpending] at hq
    obtain ⟨hq, hne⟩ := List.mem_filter.1 hq
    cases h.all q hq with
    | inl hmem =>
      cases List.mem_cons.1 hmem with
      | inl heq => simp [heq] at hne
      | inr hrest => exact Or.inl hrest
    | inr hmem => exact Or.inr hmem

/-- The loop of a drain: every entry is moved, or left with a warning. -/
lemma wp_drainEntries (hqueueable : ∀ p ∈ entries, spec.Queueable p)
    (hdone : ∀ n ∈ done, n ∈ warned) (h : Working spec forced eff warned l w)
    (hstate : .state ∈ l.held) (hloop : Draining eff done w entries) :
    wp (platformProtocol spec) (drainEntries env entries) (fun r l' w' => ∃ eff',
      Working spec forced eff' (warned ++ r.2) l' w' ∧ Drained spec eff eff' ∧
        Later (platformProtocol spec) l w l' w' ∧ r.1 + r.2.length = entries.length ∧
          Draining eff' (done ++ r.2) w' []) l w := by
  induction entries generalizing eff warned done l w with
  | nil =>
    refine ⟨eff, ?_, Drained.refl spec eff, Later.refl l w, rfl, ?_⟩
    · rwa [List.append_nil]
    · rwa [List.append_nil]
  | cons p entries ih =>
    have hp := hqueueable p List.mem_cons_self
    have hrest := fun q hq => hqueueable q (List.mem_cons_of_mem p hq)
    simp only [drainEntries, drainEntry, wp_bind, PlatformDb.delete_eq_take]
    have hsource : Sourced eff warned l.held w p.retroactive.receipt (some p.sequenceNum) := by
      intro m hm
      exact ⟨p, hloop.movable hstate hdone, Option.some.inj hm, by rw [← Option.some.inj hm]; rfl⟩
    refine wp.mono ?_ _ (wp_writePlatformAuditEntry (some p.attemptedAt)
      (fun payload prev t n hredact => hp.good prev t n hredact) h hsource)
    rintro outcome l₁ w₁ ⟨hlater, houtcome⟩
    have hstate₁ := hlater.held hstate
    have hloop₁ := hloop.rely hlater.rely hstate
    -- the entry stays, and somebody is warned
    have hskip : Working spec forced eff warned l₁ w₁ → wp (platformProtocol spec)
        (drainEntries env entries) (fun r l' w' => ∃ eff',
          Working spec forced eff' (warned ++ p.sequenceNum :: r.2) l' w' ∧ Drained spec eff eff' ∧
            Later (platformProtocol spec) l w l' w' ∧
            r.1 + (p.sequenceNum :: r.2).length = (p :: entries).length ∧
              Draining eff' (done ++ p.sequenceNum :: r.2) w' []) l₁ w₁ := by
      intro h₁
      have hdone' : ∀ n ∈ done ++ [p.sequenceNum], n ∈ warned ++ [p.sequenceNum] := by
        intro n hn
        exact List.mem_append.2 ((List.mem_append.1 hn).imp_left (hdone n))
      refine wp.mono ?_ _ (ih hrest hdone' (h₁.warn [p.sequenceNum]) hstate₁ hloop₁.skip)
      rintro ⟨drained, more⟩ l' w' ⟨eff', hworking, hdrained, hlater', hlength, hleft⟩
      rw [List.append_assoc] at hworking hleft
      refine ⟨eff', hworking, hdrained, hlater.trans hlater', ?_, hleft⟩
      rw [List.length_cons, List.length_cons, ← hlength, Nat.add_assoc]
    cases outcome with
    | written n =>
      obtain ⟨payload, prev, t, h₁⟩ := houtcome
      simp only [wp_bind, wp_pure]
      refine wp.mono ?_ _ (ih hrest hdone h₁ hstate₁ (hloop₁.move rfl))
      rintro ⟨drained, more⟩ l' w' ⟨eff', hworking, hdrained, hlater', hlength, hleft⟩
      refine ⟨eff', hworking, (drained_insert hp payload prev t n).trans hdrained,
        hlater.trans hlater', ?_, hleft⟩
      rw [List.length_cons, ← hlength, Nat.add_right_comm]
    | threw =>
      simp only [wp_bind, wp_pure]
      exact hskip houtcome
    | failed =>
      simp only [wp_bind, wp_pure]
      exact hskip houtcome

/-! ### Reports -/

/-- The deactivation events of a transaction tell what it has done to the flag, unless an
error was swallowed in between. -/
structure Marked (spec : EntrySpec env) (eff : Effect) (swallowed : Bool) : Prop where
  count : spec.Ordinary →
    deactivations eff.new = if eff.flag = some false ∧ swallowed = false then 1 else 0
  swallowed : swallowed = true → eff.flag = some false

/-- A report tells what a transaction has done after `eff`. -/
structure Told (spec : EntrySpec env) (eff : Effect) (warned : List ℕ) (swallowed : Bool)
    (report : Report) (eff' : Effect) (l : Local PlatformDb PlatformLock) (w : PlatformWorld) :
    Prop where
  working : Working spec false eff' (warned ++ report.warned) l w
  own : eff'.own.Perm (eff.own ++ report.reported)
  new : ∀ e ∈ eff.new, e ∈ eff'.new
  flag : eff'.flag = some true → eff.flag = some true
  disturbed : ∀ n ∈ report.disturbed, ∃ e ∈ eff'.new, e.drainedFrom = none ∧ e.receipt.number = n
  marked : report.aborted = false → Marked spec eff' (swallowed || report.swallowed)

/-- A report that tells nothing. -/
lemma Told.start (h : Working spec false eff warned l w) (hmarked : Marked spec eff swallowed) :
    Told spec eff warned swallowed .start eff l w where
  working := h.warn []
  own := by simp [Report.start]
  new _ he := he
  flag := id
  disturbed := by simp [Report.start]
  marked _ := by simpa [Report.start] using hmarked

/-- One report after another. -/
lemma Told.andThen {a b : Report} {l' : Local PlatformDb PlatformLock}
    (h : Told spec eff warned swallowed a eff' l w)
    (h' : Told spec eff' (warned ++ a.warned) (swallowed || a.swallowed) b eff'' l' w') :
    Told spec eff warned swallowed (a.andThen b) eff'' l' w' where
  working := by
    rw [Report.andThen, ← List.append_assoc]
    exact h'.working
  own := by
    rw [Report.andThen, ← List.append_assoc]
    exact h'.own.trans (h.own.append_right _)
  new e he := h'.new e (h.new e he)
  flag hflag := h.flag (h'.flag hflag)
  disturbed n hn := by
    cases List.mem_append.1 hn with
    | inl ha =>
      obtain ⟨e, he, hrest⟩ := h.disturbed n ha
      exact ⟨e, h'.new e he, hrest⟩
    | inr hb => exact h'.disturbed n hb
  marked habort := by
    rw [Report.andThen, ← Bool.or_assoc]
    exact h'.marked (Bool.or_eq_false_iff.1 habort).2

lemma deactivations_insert (eff : Effect) (e : PlatformAuditEvent) :
    deactivations (eff.insert e).new =
      deactivations eff.new + if e.IsDeactivation then 1 else 0 := by
  rw [Effect.insert, deactivations_append]
  congr 1
  by_cases he : e.IsDeactivation <;> simp [deactivations, he]

/-! ### Deactivation -/

/-- The end of a drain, or a deactivation by force: the flag is switched, then the event
may fail. -/
lemma wp_recordDeactivation (hoperator : spec.operator operatorId)
    (h : Working spec forced eff warned l w)
    (hoff : forced = false → .state ∈ l.held ∧ (eff.apply w.db).pending = [] ∧
      (Calm w.db → w.db.active = true)) :
    wp (platformProtocol spec) (recordDeactivation env operatorId) (fun outcome l' w' =>
      match outcome with
        | .written n => ∃ payload prev t, Working spec forced ((eff.switch false).insert
            ((deactivatedFields operatorId).row env payload prev t n none)) warned l' w'
        | _ => Working spec forced (eff.switch false) warned l' w') l w := by
  simp only [recordDeactivation, setActive, wp_bind]
  refine wp_update fun w₁ hr₁ hi₁ => ?_
  have h₁ := (h.rely hr₁).switch hi₁ false (fun _ hforced => ?_) (by simp)
  · refine wp.mono ?_ _ (wp_writeDirect (.inr ⟨operatorId, hoperator, rfl⟩) h₁)
    rintro outcome l₂ w₂ ⟨-, houtcome⟩
    exact houtcome
  · obtain ⟨hstate, hpending, hactive⟩ := hoff hforced
    obtain ⟨hsame, hflag, -⟩ := state_eq_of_rely hr₁ hstate
    refine ⟨by rwa [apply_pending_of_rely hr₁ hstate], fun hcalm => ?_⟩
    rw [hflag]
    exact hactive (by rwa [Calm, ← hsame, ← hflag])

lemma Drained.marked (h : Drained spec eff eff') (hmarked : Marked spec eff swallowed) :
    Marked spec eff' swallowed where
  count ho := by
    rw [h.deactivations ho, h.flag]
    exact hmarked.count ho
  swallowed hs := h.flag.trans (hmarked.swallowed hs)

/-- A drain that has emptied the queue deactivates a mode that was active before. -/
lemma active_of_drained (h : eff'.flag = some true → w'.db.active = false)
    (hdrained : Drained spec eff eff') (hr : Rely (platformProtocol spec) held w w')
    (hstate : .state ∈ held) (hactive : (eff.apply w.db).active = true)
    (hflag : eff.flag = some true → eff.queued = []) (hne : (eff.apply w.db).pending ≠ [])
    (hcalm : Calm w'.db) : w'.db.active = true := by
  obtain ⟨hsame, hsameActive, -⟩ := state_eq_of_rely hr hstate
  cases hf : eff.flag with
  | none =>
    rw [hsameActive]
    simpa [Effect.apply, hf] using hactive
  | some b =>
    cases b with
    | false => simp [Effect.apply, hf] at hactive
    | true =>
      have hinactive := h (hdrained.flag.trans hf)
      have hnil := hcalm hinactive
      rw [hsame] at hnil
      exact absurd (by simp [Effect.apply, hnil, hflag hf]) hne

lemma wp_drainLocked {active : Bool} (hoperator : spec.operator operatorId)
    (h : Working spec false eff warned l w) (hstate : .state ∈ l.held)
    (hmarked : Marked spec eff swallowed) (hflag : eff.flag = some true → eff.queued = [])
    (hactive : (eff.apply w.db).active = active) :
    wp (platformProtocol spec) (drainLocked env operatorId active) (fun outcome l' w' =>
      ∃ eff', Told spec eff warned swallowed outcome.report eff' l' w') l w := by
  cases active with
  | false => exact ⟨eff, Told.start h hmarked⟩
  | true =>
    simp only [drainLocked, not_true_eq_false, if_false, wp_bind]
    refine wp_query fun w₁ hr₁ hi₁ => ?_
    have h₁ := (h.rely hr₁).bump
    have hactive₁ : (eff.apply w₁.db).active = true := by
      rw [apply_active_of_rely hr₁ hstate, hactive]
    rw [(h.rely hr₁).view]
    have hnodup := PlatformDb.nodup_sequenceNum ((h.rely hr₁).drawn.nodup_apply hi₁)
    have hperm := perm_sortAsc PendingEntry.sequenceNum (eff.apply w₁.db).pending
    have hloop : Draining eff [] w₁.bump
        (sortAsc PendingEntry.sequenceNum (eff.apply w₁.db).pending) :=
      ⟨List.pairwise_insertionSort _ _, (hperm.map _).nodup_iff.2 hnodup,
        fun p hp => hperm.mem_iff.1 hp, fun p hp => Or.inl (hperm.mem_iff.2 hp)⟩
    have hqueueable : ∀ p ∈ sortAsc PendingEntry.sequenceNum (eff.apply w₁.db).pending,
        spec.Queueable p :=
      fun p hp => (h.rely hr₁).queueable hi₁ p (hperm.mem_iff.1 hp)
    refine wp.mono ?_ _ (wp_drainEntries hqueueable (by simp) h₁ hstate hloop)
    rintro ⟨drained, more⟩ l₂ w₂ ⟨eff', h₂, hdrained, hlater, hlength, hleft⟩
    have hmarked' := hdrained.marked hmarked
    simp only [] at hlength ⊢
    split_ifs with hdone
    · -- every entry was moved: the flag is switched
      obtain ⟨hpos, hremaining⟩ := hdone
      have hmore : more = [] := List.eq_nil_of_length_eq_zero (by omega)
      subst hmore
      have hempty : (eff'.apply w₂.db).pending = [] := by
        refine List.eq_nil_iff_forall_not_mem.2 fun p hp => ?_
        simpa using hleft.all p hp
      have hne : (eff.apply w₁.bump.db).pending ≠ [] := by
        intro hnil
        have hlen : (sortAsc PendingEntry.sequenceNum (eff.apply w₁.db).pending).length = 0 :=
          hperm.length_eq.trans (congrArg List.length hnil)
        rw [hlen] at hlength
        omega
      have hoff : false = false → PlatformLock.state ∈ l₂.held ∧ (eff'.apply w₂.db).pending = [] ∧
          (Calm w₂.db → w₂.db.active = true) :=
        fun _ => ⟨hlater.held hstate, hempty, active_of_drained h₂.switched.activated hdrained
          hlater.rely hstate hactive₁ hflag hne⟩
      have hflag' : eff'.flag ≠ some false := by
        rw [hdrained.flag]
        intro hf
        simp [Effect.apply, hf] at hactive
      have hnone : spec.Ordinary → deactivations eff'.new = 0 := by
        intro ho
        rw [hmarked'.count ho, if_neg (fun hand => hflag' hand.1)]
      have hloud : swallowed = false := by
        cases hs : swallowed with
        | false => rfl
        | true => exact absurd (hmarked'.swallowed hs) hflag'
      simp only [wp_bind]
      refine wp.mono ?_ _ (wp_recordDeactivation hoperator h₂ hoff)
      rintro outcome l₃ w₃ houtcome
      cases outcome with
      | written n =>
        obtain ⟨payload, prev, t, h₃⟩ := houtcome
        refine ⟨_, ⟨h₃, ?_, ?_, ?_, ?_, ?_⟩⟩
        · refine (Effect.own_insert_direct rfl).trans (List.Perm.of_eq ?_)
          exact congrArg (· ++ _) hdrained.own
        · exact fun e he => List.mem_append_left _ (hdrained.new e he)
        · exact fun hf => absurd hf (by simp [Effect.insert, Effect.switch])
        · simp [DrainOutcome.report, Report.start]
        · refine fun _ => ⟨fun ho => ?_, fun hs => rfl⟩
          rw [deactivations_insert]
          change deactivations eff'.new + _ = _
          rw [hnone ho, hloud]
          rfl
      | threw =>
        refine ⟨_, ⟨houtcome, ?_, hdrained.new, ?_, ?_, ?_⟩⟩
        · exact List.Perm.of_eq (by simpa [DrainOutcome.report, Report.start] using hdrained.own)
        · exact fun hf => absurd hf (by simp [Effect.switch])
        · simp [DrainOutcome.report, Report.start]
        · refine fun _ => ⟨fun ho => ?_, fun _ => rfl⟩
          simpa [DrainOutcome.report] using hnone ho
      | failed =>
        refine ⟨_, ⟨houtcome, ?_, hdrained.new, ?_, ?_, ?_⟩⟩
        · exact List.Perm.of_eq (by simpa [DrainOutcome.report, Report.start] using hdrained.own)
        · exact fun hf => absurd hf (by simp [Effect.switch])
        · simp [DrainOutcome.report, Report.start]
        · simp [DrainOutcome.report]
    · exact ⟨eff', ⟨h₂, by simp [hdrained.own, DrainOutcome.report, Report.start], hdrained.new,
        fun hf => hdrained.flag ▸ hf, by simp [DrainOutcome.report, Report.start],
        fun _ => by simpa [DrainOutcome.report, Report.start] using hmarked'⟩⟩

/-- The row of the state, locked, shows the flag. -/
lemma wp_selectState {skipLocked : Bool} (h : Working spec forced eff warned l w) :
    wp (platformProtocol spec) (selectState skipLocked) (fun seen l' w' =>
      Later (platformProtocol spec) l w l' w' ∧ Working spec forced eff warned l' w' ∧
        ∀ active, seen = some active → .state ∈ l'.held ∧ (eff.apply w'.db).active = active) l w := by
  intro w₁ hr₁ hi₁
  have h₁ := h.rely hr₁
  constructor
  · refine ⟨Later.stmt hr₁ (l.held_wrote [.state] id), (h₁.lockState hi₁).bump, ?_⟩
    intro active hactive
    have hview : (l.ctx w₁).view.active = active := by simpa using hactive
    rw [h₁.view] at hview
    exact ⟨Or.inr (by simp), hview⟩
  · intro _
    refine ⟨Later.stmt hr₁ Set.Subset.rfl, h₁.bump, ?_⟩
    simp

/-- `drainPendingEntries` drains, switches the flag, or does nothing. -/
lemma wp_drainPendingEntries {skipLocked : Bool} (hoperator : spec.operator operatorId)
    (h : Working spec false eff warned l w) (hmarked : Marked spec eff swallowed)
    (hflag : eff.flag = some true → eff.queued = []) :
    wp (platformProtocol spec) (drainPendingEntries env operatorId skipLocked)
      (fun outcome l' w' => ∃ eff', Told spec eff warned swallowed outcome.report eff' l' w') l w := by
  simp only [drainPendingEntries, wp_bind]
  refine wp_either fun failed => ?_
  cases failed with
  | true =>
    have hstart := Told.start h hmarked
    exact ⟨eff, hstart.working, hstart.own, hstart.new, hstart.flag, hstart.disturbed,
      by simp [DrainOutcome.report]⟩
  | false =>
    simp only [Bool.false_eq_true, if_false, wp_bind]
    refine wp.mono ?_ _ (wp_selectState h)
    rintro seen l₁ w₁ ⟨-, h₁, hseen⟩
    cases seen with
    | none => exact ⟨eff, Told.start h₁ hmarked⟩
    | some active =>
      obtain ⟨hstate, hactive⟩ := hseen active rfl
      exact wp_drainLocked hoperator h₁ hstate hmarked hflag hactive

/-! ### Writes with fallbacks -/

/-- A direct insert of a call is told by its receipt. -/
lemma Marked.insert (h : Marked spec eff swallowed) (he : spec.Ordinary → ¬ e.IsDeactivation) :
    Marked spec (eff.insert e) swallowed where
  count ho := by
    rw [deactivations_insert, if_neg (he ho), Nat.add_zero]
    exact h.count ho
  swallowed := h.swallowed

lemma Told.after {drain : Report} (hdirect : e.drainedFrom = none)
    (h : Told spec (eff.insert e) warned swallowed drain eff' l w) :
    Told spec eff warned swallowed (drain.after e.receipt) eff' l w where
  working := h.working
  own := by
    refine h.own.trans (((Effect.own_insert_direct hdirect).append_right _).trans ?_)
    exact List.Perm.of_eq (by simp [Report.after])
  new d hd := h.new d (List.mem_append_left _ hd)
  flag := h.flag
  disturbed n hn := by
    have hnumber : n = e.receipt.number := by
      simp only [Report.after] at hn
      split_ifs at hn
      · exact List.mem_singleton.1 hn
      · simp at hn
    exact ⟨e, h.new e (List.mem_append_right _ (by simp)), hdirect, hnumber.symm⟩
  marked := h.marked

/-- A queued entry keeps the fields of its call. -/
lemma wp_queueOrFail (hentry : spec.entry fields) (h : Working spec false eff warned l w)
    (hmarked : Marked spec eff swallowed) :
    wp (platformProtocol spec) (queueOrFail env fields) (fun report l' w' => report.ok = true →
      ∃ eff', Told spec eff warned swallowed report eff' l' w') l w := by
  simp only [queueOrFail, wp_bind]
  refine wp_either fun storage => ?_
  cases storage with
  | false => simp [Report.error]
  | true =>
    simp only [if_true, wp_bind]
    refine wp.mono ?_ _ (wp_selectState h)
    rintro seen l₁ w₁ ⟨-, h₁, hseen⟩
    cases seen with
    | none => simp [Report.error]
    | some active =>
      cases active with
      | false => simp [Report.error]
      | true =>
        obtain ⟨hstate, hactive⟩ := hseen true rfl
        cases hredact : redactPlatformAuditPayload env fields.payload with
        | none => simp [Report.error]
        | some payload =>
          simp only [queuePendingEntry, wp_bind, wp_pure]
          refine wp_update fun w₂ hr₂ hi₂ _ => ?_
          have hactive₂ : (eff.apply w₂.db).active = true := by
            rw [apply_active_of_rely hr₂ hstate, hactive]
          have h₂ := (h₁.rely hr₂).queue hi₂ hstate
            (p := ⟨{ fields with payload := storedPayload payload }, w₂.seq, l₁.start⟩) rfl
            ⟨fields, payload, hentry, hredact, rfl⟩ hactive₂
          refine ⟨_, ⟨h₂.warn [], ?_, fun e he => he, id, ?_, ?_⟩⟩
          · exact List.Perm.of_eq (Effect.own_queue _ _)
          · simp [Report.start]
          · refine fun _ => ⟨fun ho => ?_, ?_⟩
            · simpa [Report.start, Effect.queue] using hmarked.count ho
            · simpa [Report.start, Effect.queue] using hmarked.swallowed

/-- `writePlatformAuditEntryOrFailClosed` reports what it has done. -/
lemma wp_writePlatformAuditEntryOrFailClosed (hentry : spec.entry fields)
    (h : Working spec false eff warned l w) (hmarked : Marked spec eff swallowed)
    (hflag : eff.flag = some true → eff.queued = []) :
    wp (platformProtocol spec) (writePlatformAuditEntryOrFailClosed env fields)
      (fun report l' w' => report.ok = true →
        ∃ eff', Told spec eff warned swallowed report eff' l' w') l w := by
  simp only [writePlatformAuditEntryOrFailClosed, wp_bind]
  refine wp.mono ?_ _ (wp_writeDirect (.inl hentry) h)
  rintro outcome l₁ w₁ ⟨-, houtcome⟩
  cases outcome with
  | written n =>
    obtain ⟨payload, prev, t, h₁⟩ := houtcome
    have hmarked₁ : Marked spec (eff.insert (fields.row env payload prev t n none)) swallowed :=
      hmarked.insert fun ho => ho fields hentry
    simp only [wp_bind, wp_pure]
    refine wp.mono ?_ _ (wp_drainPendingEntries (spec.operator_of_entry fields hentry) h₁ hmarked₁
      hflag)
    rintro drain l₂ w₂ ⟨eff', htold⟩ _
    exact ⟨eff', Told.after rfl htold⟩
  | threw => exact wp_queueOrFail hentry houtcome hmarked
  | failed => exact wp_queueOrFail hentry houtcome hmarked

/-! ### Commits -/

/-- The deactivation events of an end are those its transaction has inserted. -/
lemma recordedBy_eq {ev : PlatformEnd} (hafter : ev.after = eff.apply ev.before) :
    recordedBy ev = deactivations eff.new := by
  simp [recordedBy, hafter, Effect.apply]

/-- A transaction may be committed when what it says of the flag is true. -/
lemma Working.move (h : Working spec forced eff warned l w) (hinv : PlatformInv spec w)
    {ev : PlatformEnd} (hafter : ev.after = eff.apply w.db)
    (hreported : ev.answer.reported.Perm eff.own)
    (hwarned : ∀ n ∈ warned, n ∈ ev.answer.warned)
    (hcalm : QuietEnd ev → Calm w.db → Calm ev.after) (hquiet : Calm ev.after → QuietEnd ev)
    (hrecorded : spec.Ordinary → Calm ev.before → (Recorded ev ↔ Undisturbed ev))
    (hkept : Kept ev ↔ Unaborted ev) : PlatformMove spec l.held w ev where
  inv := by
    have hdb : (w.ended ev).db = eff.apply w.db := hafter
    refine ⟨?_, ?_, ?_, ?_, ?_, ?_, ?_, ?_, ?_, ?_, ?_, ?_⟩
    · rw [hdb]
      by_cases hnil : eff.new = []
      · simpa [Effect.apply, hnil] using hinv.chain
      · have hchain := h.inserted.chain hnil
        refine ⟨h.inserted.sorted hchain, ?_⟩
        rw [Effect.apply, Chain.linked_append]
        exact ⟨hinv.chain.linked, h.inserted.linked hchain⟩
    · rw [hdb]
      intro e he
      cases List.mem_append.1 he with
      | inl hold => exact hinv.seqs e hold
      | inr hnew => exact (h.inserted.rows e hnew).1
    · rw [hdb]
      intro e he
      cases List.mem_append.1 he with
      | inl hold => exact hinv.good e hold
      | inr hnew => exact (h.inserted.rows e hnew).2
    · rw [hdb]
      exact h.queueable hinv
    · rw [hdb]
      exact h.drawn.nodup_apply hinv
    · rw [hdb]
      exact fun n hn => h.drawn.lt_of_mem_numbers hinv hn
    · rw [hdb]
      refine h.drawn.receipts_apply.trans ((hinv.stored.append hreported.symm).trans ?_)
      exact List.perm_append_comm
    · rw [hdb]
      have hself : ∀ n, Warned w n ∨ n ∈ warned → Warned (w.ended ev) n := by
        intro n hn
        cases hn with
        | inl hold =>
          obtain ⟨ev', hev', hmem⟩ := hold
          exact ⟨ev', List.mem_cons_of_mem _ hev', hmem⟩
        | inr hnew => exact ⟨ev, List.mem_cons_self, hwarned n hnew⟩
      cases h.switched.state with
      | inl hheld => exact (h.switched.ordered hheld).mono hself
      | inr hq =>
        exact (hinv.ordered.mono fun n hn => hself n (Or.inl hn)).congr (hq.drainedNumbers_apply _)
          (hq.apply_pending _)
    · intro hall
      obtain ⟨hbefore, hold⟩ := hinv.calm fun ev' hev' => hall ev' (List.mem_cons_of_mem _ hev')
      have hnow := hcalm (hall ev List.mem_cons_self) hbefore
      refine ⟨hnow, fun ev' hev' => ?_⟩
      cases List.mem_cons.1 hev' with
      | inl heq =>
        rw [heq]
        exact hnow
      | inr hmem => exact hold ev' hmem
    · intro ev' hev'
      cases List.mem_cons.1 hev' with
      | inl heq =>
        rw [heq]
        exact hquiet
      | inr hold => exact hinv.quiet ev' hold
    · intro ho ev' hev'
      cases List.mem_cons.1 hev' with
      | inl heq =>
        rw [heq]
        exact hrecorded ho
      | inr hold => exact hinv.recorded ho ev' hold
    · intro ev' hev'
      cases List.mem_cons.1 hev' with
      | inl heq =>
        rw [heq]
        exact hkept
      | inr hold => exact hinv.kept ev' hold
  events := by
    refine ⟨eff.new, by rw [hafter]; rfl, h.inserted.chain, fun hne => ?_⟩
    cases h.switched.state with
    | inl hheld => exact hheld
    | inr hq => exact absurd hq.drained hne
  state hnot := by
    cases h.switched.state with
    | inl hheld => exact absurd hheld hnot
    | inr hq =>
      rw [hafter]
      exact ⟨hq.apply_pending _, hq.apply_active _⟩
  row n hn hout := by
    rw [hafter] at hn
    cases h.drawn.mem_numbers_apply.1 hn with
    | inl hold => exact absurd hold hout
    | inr hown =>
      obtain ⟨r, hr, rfl⟩ := List.mem_map.1 hown
      exact (h.drawn.own r hr).1

/-- Nothing is done by a transaction that is rolled back. -/
lemma PlatformInv.move_rolledBack (hinv : PlatformInv spec w) (held : Set PlatformLock)
    (ev : PlatformEnd) (hbefore : ev.before = w.db) (hafter : ev.after = w.db)
    (hreported : ev.answer.reported = []) (hcommitted : ¬ Committed ev)
    (hkept : Kept ev ↔ Unaborted ev) : PlatformMove spec held w ev := by
  have hunchanged : ev.after = Effect.none.apply w.db := by rw [hafter, Effect.apply_none]
  have hstart := (working_start spec false 0 w).move hinv hunchanged
    (by rw [hreported]; exact List.Perm.refl _) (by simp)
    (fun _ hcalm => by rwa [hafter]) (fun _ _ hc => absurd hc hcommitted) (fun _ _ => ?_) hkept
  · exact ⟨hstart.inv, ⟨[], by simp [hafter], by simp, by simp [drainedNumbers]⟩,
      fun _ => by rw [hafter]; exact ⟨rfl, rfl⟩, fun n hn hout => absurd (hafter ▸ hn) hout⟩
  · have hrecorded : recordedBy ev = 0 := by simp [recordedBy, hbefore, hafter, deactivations]
    have hnot : ¬ Deactivates ev := by
      rintro ⟨hon, hoff⟩
      rw [hbefore] at hon
      rw [hafter] at hoff
      exact absurd (hon.symm.trans hoff) (by simp)
    refine ⟨fun _ hc => absurd hc hcommitted, fun _ => ?_⟩
    rw [Recorded, hrecorded]
    exact iff_of_false hnot (by simp)

/-- A commit that does not deactivate by force records what it does to the flag, unless an
error was swallowed in between. -/
lemma recorded_iff {ev : PlatformEnd} (hafter : ev.after = eff.apply ev.before)
    (hforced : ev.answer.forced = false) (hcommitted : Committed ev)
    (hmarked : Marked spec eff ev.answer.swallowed) (ho : spec.Ordinary)
    (hactive : eff.flag = some false → ev.before.active = true) : Recorded ev ↔ Undisturbed ev := by
  have hundisturbed : Undisturbed ev ↔ ev.answer.swallowed = false := by
    refine ⟨fun h => (h hcommitted).1, fun h _ => ⟨h, fun hf => ?_⟩⟩
    simp [hforced] at hf
  have hdeactivates : Deactivates ev ↔ eff.flag = some false := by
    rw [Deactivates, hafter, Effect.apply]
    constructor
    · rintro ⟨hon, hoff⟩
      cases hf : eff.flag with
      | none => simp [hf, hon] at hoff
      | some b => simpa [hf] using hoff
    · exact fun hf => ⟨hactive hf, by simp [hf]⟩
  have hrecorded : recordedBy ev = 1 ↔ eff.flag = some false ∧ ev.answer.swallowed = false := by
    rw [recordedBy_eq hafter, hmarked.count ho]
    split_ifs with hcond <;> simp [hcond]
  rw [Recorded, hdeactivates, hrecorded, hundisturbed]
  constructor
  · intro h
    cases hs : ev.answer.swallowed with
    | false => rfl
    | true => exact absurd (h.1 (hmarked.swallowed hs)).2 (by simp [hs])
  · exact fun hs => ⟨fun hf => ⟨hf, hs⟩, fun hand => hand.1⟩

/-- What a report tells may be committed. -/
lemma Told.move {report : Report} {first : Effect} (hfirst : first.own = [])
    (h : Told spec first [] false report eff l w) (hinv : PlatformInv spec w)
    (habort : report.aborted = false) (locked : PlatformLock → Bool) :
    PlatformMove spec l.held w ⟨w.db, report.answer true true, eff.apply w.db, locked⟩ := by
  have hmarked : Marked spec eff report.swallowed := by
    have := h.marked habort
    rwa [Bool.false_or] at this
  have hown : report.reported.Perm eff.own := by
    have := h.own
    rw [hfirst] at this
    exact this.symm
  refine h.working.move hinv rfl hown (fun n hn => hn) ?_ (fun _ hf => absurd hf (by
    simp [Report.answer])) ?_ ?_
  · intro _ hcalm
    cases h.working.switched.state with
    | inl hheld => exact h.working.switched.calm rfl hheld hcalm
    | inr hq =>
      change Calm (eff.apply w.db)
      rwa [Calm, hq.apply_pending, hq.apply_active]
  · exact fun ho hcalm => recorded_iff rfl rfl ⟨rfl, habort⟩ hmarked ho fun hf =>
      h.working.switched.active rfl hf hcalm
  · refine iff_of_true (fun _ n hn => ?_) (fun _ _ => habort)
    obtain ⟨e, he, -, hnumber⟩ := h.disturbed n hn
    exact ⟨e, List.mem_append_right _ he, hnumber⟩

/-- An aborted transaction loses the entries whose drain failed. -/
lemma Told.kept_iff_unaborted {report : Report} {first : Effect}
    (h : Told spec first [] false report eff l w) (habort : report.aborted = true)
    (locked : PlatformLock → Bool) :
    Kept ⟨w.db, report.answer false true, w.db, locked⟩ ↔
      Unaborted ⟨w.db, report.answer false true, w.db, locked⟩ := by
  cases hd : report.disturbed with
  | nil => simp [Kept, Unaborted, Report.answer, hd]
  | cons n rest =>
    refine iff_of_false (fun hkept => ?_) (fun hun => ?_)
    · obtain ⟨e, he, hnumber⟩ := hkept rfl n (by simp [Report.answer, hd])
      obtain ⟨e', he', hdirect, hnumber'⟩ := h.disturbed n (by simp [hd])
      have hown : e'.receipt ∈ eff.own :=
        List.mem_append_left _ (List.mem_map_of_mem (List.mem_filter.2 ⟨he', by simp [hdirect]⟩))
      have hnot := (h.working.drawn.own _ hown).2.2
      rw [hnumber', ← hnumber] at hnot
      exact hnot (mem_numbers_of_mem_events he)
    · have := hun rfl (by simp [Report.answer, hd])
      simp [Report.answer, habort] at this

/-! ### Jobs -/

lemma wp_endTransaction {report : Report} {first : Effect} (hfirst : first.own = [])
    (h : report.ok = true → ∃ eff, Told spec first [] false report eff l w) :
    wp (platformProtocol spec) (endTransaction report) (fun _ _ _ => True) l w := by
  simp only [endTransaction, wp_bind]
  refine wp_either fun wanted => ?_
  split_ifs with hcommit habort
  · obtain ⟨eff, htold⟩ := h hcommit.2
    refine wp_rollbackTx fun w₁ locked hr₁ hi₁ _ => ⟨?_, trivial⟩
    have htold₁ : Told spec first [] false report eff l w₁ :=
      { htold with working := htold.working.rely hr₁ }
    refine hi₁.move_rolledBack _ _ rfl rfl rfl ?_ (htold₁.kept_iff_unaborted habort locked)
    rintro ⟨-, hcommitted⟩
    simp [Report.answer, habort] at hcommitted
  · obtain ⟨eff, htold⟩ := h hcommit.2
    refine wp_commitTx fun w₁ locked hr₁ hi₁ _ => ⟨?_, trivial⟩
    have htold₁ : Told spec first [] false report eff l w₁ :=
      { htold with working := htold.working.rely hr₁ }
    rw [htold₁.working.pending]
    exact htold₁.move hfirst hi₁ (by simpa using habort) locked
  · refine wp_rollbackTx fun w₁ locked hr₁ hi₁ _ => ⟨?_, trivial⟩
    refine hi₁.move_rolledBack _ _ rfl rfl rfl ?_ ?_
    · rintro ⟨hwanted, -⟩
      simp [Report.answer] at hwanted
    · simp [Kept, Unaborted, Report.answer]

lemma marked_none (spec : EntrySpec env) : Marked spec .none false where
  count _ := by simp [Effect.none, deactivations]
  swallowed := by simp

/-- The writes of a transaction. -/
lemma wp_writeAll {entries : List PlatformAuditFields}
    (hentries : ∀ fields ∈ entries, spec.entry fields) (h : Working spec false eff warned l w)
    (hmarked : Marked spec eff swallowed)
    (hflag : ∀ fields rest, entries = fields :: rest → eff.flag = some true →
      eff.queued = [] ∧ rest = []) :
    wp (platformProtocol spec) (writeAll env entries) (fun report l' w' => report.ok = true →
      ∃ eff', Told spec eff warned swallowed report eff' l' w') l w := by
  induction entries generalizing eff warned swallowed l w with
  | nil => exact fun _ => ⟨eff, Told.start h hmarked⟩
  | cons fields rest ih =>
    have hrest := fun f hf => hentries f (List.mem_cons_of_mem fields hf)
    simp only [writeAll, wp_bind]
    refine wp.mono ?_ _ (wp_writePlatformAuditEntryOrFailClosed
      (hentries fields List.mem_cons_self) h hmarked fun hf => (hflag fields rest rfl hf).1)
    intro report l₁ w₁ htold
    split_ifs with hgo
    · obtain ⟨eff₁, htold⟩ := htold hgo.1
      have habort : report.aborted = false := by simpa using hgo.2
      have hflag₁ : ∀ f r, rest = f :: r → eff₁.flag = some true → eff₁.queued = [] ∧ r = [] := by
        intro f r heq hf
        have hnil := (hflag fields rest rfl (htold.flag hf)).2
        simp [hnil] at heq
      simp only [wp_bind, wp_pure]
      refine wp.mono ?_ _ (ih hrest htold.working (htold.marked habort) hflag₁)
      intro others l₂ w₂ hothers hok
      obtain ⟨eff₂, hothers⟩ := hothers hok
      exact ⟨eff₂, htold.andThen hothers⟩
    · exact htold

/-- A request that writes entries. -/
lemma wp_writeTransaction {entries : List PlatformAuditFields}
    (hentries : ∀ fields ∈ entries, spec.entry fields) (t : ℕ) :
    wp (platformProtocol spec) (writeTransaction env entries) (fun _ _ _ => True) (.idle t) w := by
  simp only [writeTransaction, wp_bind]
  refine wp_beginTx fun w₁ hr₁ hi₁ => ?_
  refine wp.mono ?_ _ (wp_writeAll hentries (working_start spec false w₁.clock w₁)
    (marked_none spec) (by simp [Effect.none]))
  exact fun report l₂ w₂ htold => wp_endTransaction rfl htold

/-- The activation of the maintenance mode. -/
lemma wp_activateTransaction {entry : PlatformAuditFields} (hentry : spec.entry entry) (t : ℕ) :
    wp (platformProtocol spec) (activateTransaction env entry) (fun _ _ _ => True) (.idle t) w := by
  simp only [activateTransaction, wp_bind]
  refine wp_beginTx fun w₁ hr₁ hi₁ => ?_
  refine wp.mono ?_ _ (wp_selectState (working_start spec false w₁.clock w₁))
  rintro seen l₂ w₂ ⟨-, h₂, hseen⟩
  have herror : wp (platformProtocol spec) (endTransaction .error) (fun _ _ _ => True) l₂ w₂ :=
    wp_endTransaction (rfl : Effect.none.own = []) (by simp [Report.error])
  cases seen with
  | none => exact herror
  | some active =>
    cases active with
    | true => exact herror
    | false =>
      obtain ⟨hstate, hactive⟩ := hseen false rfl
      simp only [setActive, wp_bind]
      refine wp_update fun w₃ hr₃ hi₃ => ?_
      have hinactive : w₃.db.active = false := by
        rw [(state_eq_of_rely hr₃ hstate).2.1]
        simpa using hactive
      have h₃ := (h₂.rely hr₃).switch hi₃ true (by simp) fun _ => hinactive
      have hmarked : Marked spec (Effect.none.switch true) false :=
        ⟨fun _ => by simp [Effect.none, Effect.switch, deactivations], by simp⟩
      refine wp.mono ?_ _ (wp_writeAll (by simpa using hentry) h₃ hmarked ?_)
      · exact fun report l₄ w₄ htold => wp_endTransaction rfl htold
      · intro f r heq _
        simp only [List.cons.injEq] at heq
        exact ⟨rfl, heq.2.symm⟩

/-- A deactivation by force may be committed: it records itself, and empties nothing. -/
lemma Working.move_forced (hdirect : e.drainedFrom = none) (he : e.IsDeactivation)
    (h : Working spec true ((Effect.none.switch false).insert e) [] l w) (hinv : PlatformInv spec w)
    (locked : PlatformLock → Bool) :
    PlatformMove spec l.held w ⟨w.db, { Report.start.answer true true with
      reported := [e.receipt], forced := true }, ((Effect.none.switch false).insert e).apply w.db,
        locked⟩ := by
  have hafter : ((Effect.none.switch false).insert e).apply w.db =
      ⟨w.db.events ++ [e], w.db.pending, false⟩ := by
    simp [Effect.apply, Effect.insert, Effect.none, Effect.switch, drainedNumbers, hdirect]
  have hown : [e.receipt].Perm ((Effect.none.switch false).insert e).own := by
    simp [Effect.own, Effect.insert, Effect.none, Effect.switch, hdirect]
  refine h.move hinv rfl hown (by simp) ?_ ?_ ?_ ?_
  · intro hquiet _
    simp only [hafter]
    exact fun _ => hquiet rfl ⟨rfl, rfl⟩
  · intro hcalm _ _
    simp only [hafter] at hcalm
    exact hcalm rfl
  · intro ho _
    rw [Recorded, Deactivates, recordedBy, Undisturbed]
    simp [hafter, deactivations, he, Committed, Report.answer, Report.start]
  · simp [Kept, Unaborted, Report.answer, Report.start]

/-- `forceDeactivateWithFreshWrite`, in its transaction. -/
lemma wp_forceDeactivate (hoperator : spec.operator operatorId) (t : ℕ) :
    wp (platformProtocol spec) (forceDeactivate env operatorId) (fun _ _ _ => True) (.idle t) w := by
  simp only [forceDeactivate, wp_bind]
  refine wp_beginTx fun w₁ hr₁ hi₁ => ?_
  refine wp.mono ?_ _ (wp_recordDeactivation hoperator (working_start spec true w₁.clock w₁) (by simp))
  have hrollback : ∀ l₂ w₂, wp (platformProtocol spec) (Prog.rollbackTx
      { Report.start.answer false false with forced := true }) (fun _ _ _ => True) l₂ w₂ := by
    intro l₂ w₂
    refine wp_rollbackTx fun w₃ locked hr₃ hi₃ _ => ⟨?_, trivial⟩
    refine hi₃.move_rolledBack _ _ rfl rfl rfl ?_ (by simp [Kept, Unaborted, Report.answer])
    simp [Committed, Report.answer]
  rintro outcome l₂ w₂ houtcome
  cases outcome with
  | written n =>
    obtain ⟨payload, prev, t, h₂⟩ := houtcome
    refine wp_commitTx fun w₃ locked hr₃ hi₃ _ => ⟨?_, trivial⟩
    have h₃ := h₂.rely hr₃
    rw [h₃.pending]
    have he : ((deactivatedFields operatorId).row env payload prev t n none).IsDeactivation := rfl
    exact h₃.move_forced rfl he hi₃ locked
  | threw => exact hrollback l₂ w₂
  | failed => exact hrollback l₂ w₂

/-- The drain of `deactivateMaintenanceMode`. -/
lemma wp_drainTransaction (hoperator : spec.operator operatorId) (t : ℕ) :
    wp (platformProtocol spec) (drainTransaction env operatorId) (fun _ l' _ => ∃ t, l' = .idle t)
      (.idle t) w := by
  simp only [drainTransaction, wp_bind]
  refine wp_beginTx fun w₁ hr₁ hi₁ => ?_
  refine wp.mono ?_ _ (wp_drainPendingEntries hoperator (working_start spec false w₁.clock w₁)
    (marked_none spec) (by simp [Effect.none]))
  rintro drain l₂ w₂ ⟨eff, htold⟩
  have hrollback : wp (platformProtocol spec) (do
      Prog.rollbackTx (drain.report.answer false false)
      return (none : Option DrainResult)) (fun _ l' _ => ∃ t, l' = .idle t) l₂ w₂ := by
    simp only [wp_bind, wp_pure]
    refine wp_rollbackTx fun w₃ locked hr₃ hi₃ _ => ⟨?_, l₂.start, rfl⟩
    refine hi₃.move_rolledBack _ _ rfl rfl rfl ?_ (by simp [Kept, Unaborted, Report.answer])
    simp [Committed, Report.answer]
  cases drain with
  | done result warned recorded =>
    simp only [wp_bind, wp_pure]
    refine wp_commitTx fun w₃ locked hr₃ hi₃ _ => ⟨?_, l₂.start, rfl⟩
    have htold₃ : Told spec .none [] false (DrainOutcome.done result warned recorded).report eff
        l₂ w₃ := { htold with working := htold.working.rely hr₃ }
    rw [htold₃.working.pending]
    exact htold₃.move rfl hi₃ rfl locked
  | threw warned => exact hrollback
  | failed warned => exact hrollback

/-- `deactivateMaintenanceMode`, all its transactions. -/
lemma wp_deactivateMaintenanceMode (hoperator : spec.operator operatorId) (t : ℕ) :
    wp (platformProtocol spec) (deactivateMaintenanceMode env operatorId) (fun _ _ _ => True)
      (.idle t) w := by
  simp only [deactivateMaintenanceMode, wp_bind]
  refine wp_beginTx fun w₁ hr₁ hi₁ => wp_query fun w₂ hr₂ hi₂ =>
    wp_commitTx fun w₃ locked hr₃ hi₃ _ => ⟨?_, ?_⟩
  · have hstart : Told spec .none [] false .start .none ⟨w₁.clock, ∅, id⟩ w₃ :=
      Told.start (working_start spec false w₁.clock w₃) (marked_none spec)
    have hmove := hstart.move rfl hi₃ rfl locked
    rwa [Effect.apply_none] at hmove
  · split_ifs
    · simp only [wp_bind]
      refine wp.mono ?_ _ (wp_drainTransaction hoperator w₁.clock)
      rintro result l₄ w₄ ⟨t₄, rfl⟩
      cases result with
      | none => trivial
      | some result =>
        simp only []
        split_ifs
        · exact wp_forceDeactivate hoperator t₄
        · trivial
    · trivial

/-- The jobs whose entries and operators the sessions see to. -/
def PlatformJob.Allowed (spec : EntrySpec env) : PlatformJob → Prop
  | .write entries => ∀ fields ∈ entries, spec.entry fields
  | .activate entry => spec.entry entry
  | .deactivate operatorId => spec.operator operatorId

/-- Every job keeps the protocol. -/
theorem keeps_platformJob (spec : EntrySpec env) :
    Keeps (platformProtocol spec) (platformJob env) (PlatformJob.Allowed spec) := by
  intro job hallowed t w _
  cases job with
  | write entries => exact wp_writeTransaction hallowed t
  | activate entry => exact wp_activateTransaction hallowed t
  | deactivate operatorId => exact wp_deactivateMaintenanceMode hallowed t

/-! ### Runs -/

/-- The tables before the first transaction. -/
def freshPlatform : PlatformWorld := ⟨⟨[], [], false⟩, 0, 0, []⟩

lemma platformInv_fresh (spec : EntrySpec env) : PlatformInv spec freshPlatform := by
  constructor <;> simp [freshPlatform, PlatformDb.numbers, PlatformDb.receipts, Calm]
  · exact ⟨List.Pairwise.nil, trivial⟩
  · exact ⟨List.Pairwise.nil, by simp [drainedNumbers]⟩

/-- The runs of the jobs that write such entries. -/
def Allows (spec : EntrySpec env) (_ : State PlatformDb PlatformLock PlatformAnswer) :
    Label PlatformJob → Prop
  | .opens _ job => job.Allowed spec
  | _ => True

/-- What holds in every state of a run. -/
theorem platformInv_of_reaches (spec : EntrySpec env)
    {s : State PlatformDb PlatformLock PlatformAnswer}
    (h : (sessions (platformJob env) freshPlatform).Reaches (Allows spec) s) :
    PlatformInv spec s.world :=
  (Sound.of_reaches (keeps_platformJob spec) (fun _ _ _ hok => hok) (platformInv_fresh spec) h
    fun _ _ => trivial).inv

end ProjectVault.Platform
