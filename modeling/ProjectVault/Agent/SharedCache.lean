import ProjectVault.Agent.CacheStore
import ProjectVault.Run.System

/-!
The cache file under concurrent processes (`refreshCache` in `agent/src/index.ts` over
`agent/src/cache-store.ts`).
-/

namespace Agent

variable {ε : Type}

/-- A live read that has been answered: its process, its name, the entry to cache unless the answer
is not cacheable, and when it was answered. -/
structure Refresh (ε : Type) where
  process : ℕ
  name : String
  live : Option (CacheEntry ε)
  fetchedAt : ℕ

/-- A `refreshCache` between its read and its write, with the file it is about to write. -/
structure PendingWrite (ε : Type) where
  refresh : Refresh ε
  file : CacheFile ε
  readAt : ℕ

/-- A write that has been made. -/
structure Write (ε : Type) where
  refresh : Refresh ε
  readAt : ℕ
  writtenAt : ℕ

/-- A live read whose `refreshCache` has returned. -/
structure Handled (ε : Type) where
  refresh : Refresh ε
  handledAt : ℕ

/-- The file and the processes that share it. The last four fields record what has happened: the
answers, the writes, the live reads handled, and what was last written for each name. -/
structure SharedCache (ε : Type) where
  disk : Disk ε
  clock : ℕ
  waiting : List (Refresh ε)
  pending : List (PendingWrite ε)
  fetched : List (Refresh ε)
  writes : List (Write ε)
  handled : List (Handled ε)
  last : String → Option (CacheEntry ε × ℕ)

/-- What can happen to the file. -/
inductive SharedLabel (ε : Type) where
  | fetches (process : ℕ) (name : String) (live : Option (CacheEntry ε))
  | reads (k : ℕ)
  | writes (k : ℕ)
  /-- A write throws, or its process dies before it. -/
  | fails (k : ℕ)

/-- `refreshCache` reads the file; without anything to write it returns. -/
def SharedCache.read (w : SharedCache ε) (k : ℕ) (refresh : Refresh ε) (cache : CacheFile ε) :
    SharedCache ε :=
  let w := { w with clock := w.clock + 1, waiting := w.waiting.eraseIdx k }
  match refreshed cache refresh.name refresh.live with
  | none => { w with handled := ⟨refresh, w.clock⟩ :: w.handled }
  | some file => { w with pending := ⟨refresh, file, w.clock⟩ :: w.pending }

/-- `refreshCache` writes the file and returns. -/
def SharedCache.write (w : SharedCache ε) (k : ℕ) (p : PendingWrite ε) : SharedCache ε :=
  let clock := w.clock + 1
  { w with
    disk := .holds p.file
    clock
    pending := w.pending.eraseIdx k
    writes := ⟨p.refresh, p.readAt, clock⟩ :: w.writes
    handled := ⟨p.refresh, clock⟩ :: w.handled
    last := fun n =>
      if n = p.refresh.name then p.refresh.live.map fun entry => (entry, clock) else w.last n }

/-- One step. Between its read and its write a process does nothing else. -/
def sharedStep (w : SharedCache ε) : SharedLabel ε → Option (SharedCache ε)
  | .fetches process name live =>
    let refresh : Refresh ε := ⟨process, name, live, w.clock + 1⟩
    if w.pending.any fun p => p.refresh.process == process then none
    else some { w with
      clock := w.clock + 1
      waiting := refresh :: w.waiting
      fetched := refresh :: w.fetched }
  | .reads k =>
    (w.waiting[k]?).bind fun refresh =>
      if w.pending.any fun p => p.refresh.process == refresh.process then none
      else (readCacheFile w.disk).map fun cache => w.read k refresh cache
  | .writes k => (w.pending[k]?).map fun p => w.write k p
  | .fails k =>
    (w.pending[k]?).map fun _ => { w with
      clock := w.clock + 1
      pending := w.pending.eraseIdx k }

/-- The processes that share a file. -/
def sharedCacheSystem : Run.System (SharedCache ε) (SharedLabel ε) where
  init := ⟨.absent, 0, [], [], [], [], [], fun _ => none⟩
  step := sharedStep

/-! ### The law -/

/-- The answer `h` is not cacheable, and an answer fetched later is. -/
def SharedCache.Superseded (w : SharedCache ε) (h : Handled ε) : Prop :=
  ∃ t ∈ w.fetched, t.name = h.refresh.name ∧ t.live.isSome = true ∧
    h.refresh.fetchedAt < t.fetchedAt

/-- A live read that was under way when `h` was handled has written since. -/
def SharedCache.Overtaken (w : SharedCache ε) (h : Handled ε) : Prop :=
  ∃ x ∈ w.writes, x.refresh.fetchedAt < h.handledAt ∧ h.handledAt < x.writtenAt

/-- A write for another name, from a read of the file before time `t`, has been made since. -/
def SharedCache.Overwritten (w : SharedCache ε) (name : String) (t : ℕ) : Prop :=
  ∃ x ∈ w.writes, x.refresh.name ≠ name ∧ x.readAt < t ∧ t < x.writtenAt

/-- Nothing is left under a name whose answer was not cacheable and has been handled, unless an
answer fetched later is cacheable. -/
def SharedCache.Forgets (w : SharedCache ε) : Prop :=
  ∀ h ∈ w.handled, h.refresh.live.isNone = true →
    (w.disk.entry h.refresh.name).isNone = true ∨ w.Superseded h

/-- The entry last written for a name is in the file. -/
def SharedCache.Retains (w : SharedCache ε) : Prop :=
  ∀ name entry t, w.last name = some (entry, t) → w.disk.entry name = some entry

/-- What the file keeps whatever the order of the steps. -/
structure SharedCache.LastSnapshotWins (w : SharedCache ε) : Prop where
  forgets : ∀ h ∈ w.handled, h.refresh.live.isNone = true →
    (w.disk.entry h.refresh.name).isNone = true ∨ w.Superseded h ∨ w.Overtaken h
  retains : ∀ name entry t, w.last name = some (entry, t) →
    w.disk.entry name = some entry ∨ w.Overwritten name t

/-- What every run keeps: the law, for the file and for the files about to be written, as far as
these were read later. -/
structure SharedInv (w : SharedCache ε) : Prop where
  law : w.LastSnapshotWins
  handledAt : ∀ h ∈ w.handled, h.refresh.fetchedAt < h.handledAt ∧ h.handledAt ≤ w.clock
  lastAt : ∀ name entry t, w.last name = some (entry, t) → t ≤ w.clock
  waiting : ∀ r ∈ w.waiting, r ∈ w.fetched ∧ r.fetchedAt ≤ w.clock
  pending : ∀ p ∈ w.pending, p.refresh ∈ w.fetched ∧ p.refresh.fetchedAt < p.readAt ∧
    p.readAt ≤ w.clock ∧ p.file p.refresh.name = p.refresh.live
  forgetting : ∀ p ∈ w.pending, ∀ h ∈ w.handled, h.refresh.live.isNone = true →
    h.refresh.name ≠ p.refresh.name → h.handledAt < p.readAt →
    (p.file h.refresh.name).isNone = true ∨ w.Superseded h ∨ w.Overtaken h
  retaining : ∀ p ∈ w.pending, ∀ name entry t, name ≠ p.refresh.name →
    w.last name = some (entry, t) → t ≤ p.readAt →
    p.file name = some entry ∨ w.Overwritten name t

/-! ### Steps and runs -/

variable {w w' : SharedCache ε} {l : SharedLabel ε} {k : ℕ} {refresh : Refresh ε}
  {cache : CacheFile ε} {p : PendingWrite ε}

lemma SharedCache.Superseded.mono {h : Handled ε} (hs : w.Superseded h)
    (hsub : ∀ t ∈ w.fetched, t ∈ w'.fetched) : w'.Superseded h := by
  obtain ⟨t, ht, hrest⟩ := hs
  exact ⟨t, hsub t ht, hrest⟩

lemma SharedCache.Overtaken.mono {h : Handled ε} (hs : w.Overtaken h)
    (hsub : ∀ x ∈ w.writes, x ∈ w'.writes) : w'.Overtaken h := by
  obtain ⟨x, hx, hrest⟩ := hs
  exact ⟨x, hsub x hx, hrest⟩

lemma SharedCache.Overwritten.mono {name : String} {t : ℕ} (hs : w.Overwritten name t)
    (hsub : ∀ x ∈ w.writes, x ∈ w'.writes) : w'.Overwritten name t := by
  obtain ⟨x, hx, hrest⟩ := hs
  exact ⟨x, hsub x hx, hrest⟩

/-- An answer. -/
lemma SharedInv.fetch (h : SharedInv w) (hrefresh : refresh.fetchedAt = w.clock + 1) :
    SharedInv { w with
      clock := w.clock + 1
      waiting := refresh :: w.waiting
      fetched := refresh :: w.fetched } where
  law.forgets x hx hnone := by
    rcases h.law.forgets x hx hnone with hgone | hlater | hover
    · exact .inl hgone
    · exact .inr (.inl (hlater.mono fun t => List.mem_cons_of_mem refresh))
    · exact .inr (.inr hover)
  law.retains := h.law.retains
  handledAt x hx := ⟨(h.handledAt x hx).1, (h.handledAt x hx).2.trans (Nat.le_succ _)⟩
  lastAt name entry t hlast := (h.lastAt name entry t hlast).trans (Nat.le_succ _)
  waiting r hr := by
    cases List.mem_cons.1 hr with
    | inl heq => exact ⟨heq ▸ List.mem_cons_self, heq ▸ hrefresh.le⟩
    | inr hmem =>
      obtain ⟨hfetched, hat⟩ := h.waiting r hmem
      exact ⟨List.mem_cons_of_mem _ hfetched, hat.trans (Nat.le_succ _)⟩
  pending q hq := by
    obtain ⟨hfetched, hread, hat, hown⟩ := h.pending q hq
    exact ⟨List.mem_cons_of_mem _ hfetched, hread, hat.trans (Nat.le_succ _), hown⟩
  forgetting q hq x hx hnone hname hat := by
    rcases h.forgetting q hq x hx hnone hname hat with hgone | hlater | hover
    · exact .inl hgone
    · exact .inr (.inl (hlater.mono fun t => List.mem_cons_of_mem refresh))
    · exact .inr (.inr hover)
  retaining := h.retaining

lemma SharedInv.read (h : SharedInv w) (hk : w.waiting[k]? = some refresh)
    (hread : readCacheFile w.disk = some cache) : SharedInv (w.read k refresh cache) := by
  obtain ⟨hfetched, hfetchedAt⟩ := h.waiting refresh (List.mem_of_getElem? hk)
  have hentry : ∀ n, w.disk.entry n = cache n := fun n => by rw [Disk.entry, hread]; rfl
  have hwaiting : ∀ r ∈ w.waiting.eraseIdx k, r ∈ w.fetched ∧ r.fetchedAt ≤ w.clock + 1 :=
    fun r hr => by
      obtain ⟨hmem, hat⟩ := h.waiting r (List.mem_of_mem_eraseIdx hr)
      exact ⟨hmem, hat.trans (Nat.le_succ _)⟩
  have hhandled : ∀ x ∈ w.handled, x.refresh.fetchedAt < x.handledAt ∧ x.handledAt ≤ w.clock + 1 :=
    fun x hx => ⟨(h.handledAt x hx).1, (h.handledAt x hx).2.trans (Nat.le_succ _)⟩
  have hlast : ∀ name entry t, w.last name = some (entry, t) → t ≤ w.clock + 1 :=
    fun name entry t heq => (h.lastAt name entry t heq).trans (Nat.le_succ _)
  have hpending : ∀ q ∈ w.pending, q.refresh ∈ w.fetched ∧ q.refresh.fetchedAt < q.readAt ∧
      q.readAt ≤ w.clock + 1 ∧ q.file q.refresh.name = q.refresh.live := fun q hq => by
    obtain ⟨hmem, hbefore, hat, hown⟩ := h.pending q hq
    exact ⟨hmem, hbefore, hat.trans (Nat.le_succ _), hown⟩
  cases hwrite : refreshed cache refresh.name refresh.live with
  | none =>
    obtain ⟨hnone, hmissing⟩ := eq_none_of_refreshed hwrite
    simp only [SharedCache.read, hwrite]
    refine ⟨⟨?_, h.law.retains⟩, ?_, hlast, hwaiting, hpending, ?_, h.retaining⟩
    · refine List.forall_mem_cons.2 ⟨fun _ => .inl ?_, h.law.forgets⟩
      show (w.disk.entry refresh.name).isNone = true
      rw [hentry, hmissing]
      rfl
    · exact List.forall_mem_cons.2 ⟨⟨Nat.lt_succ_of_le hfetchedAt, le_rfl⟩, hhandled⟩
    · intro q hq
      refine List.forall_mem_cons.2 ⟨fun _ _ hat => ?_, h.forgetting q hq⟩
      have hbefore := (h.pending q hq).2.2.1
      exact absurd hat (by show ¬ w.clock + 1 < q.readAt; omega)
  | some file =>
    simp only [SharedCache.read, hwrite]
    refine ⟨⟨h.law.forgets, h.law.retains⟩, hhandled, hlast, hwaiting, ?_, ?_, ?_⟩
    · exact List.forall_mem_cons.2
        ⟨⟨hfetched, Nat.lt_succ_of_le hfetchedAt, le_rfl, refreshed_self hwrite⟩, hpending⟩
    · refine List.forall_mem_cons.2 ⟨fun x hx hnone hname _ => ?_, h.forgetting⟩
      show (file x.refresh.name).isNone = true ∨ _
      rw [refreshed_of_ne hname hwrite, ← hentry]
      exact h.law.forgets x hx hnone
    · refine List.forall_mem_cons.2 ⟨fun name entry t hname heq _ => ?_, h.retaining⟩
      show file name = some entry ∨ _
      rw [refreshed_of_ne hname hwrite, ← hentry]
      exact h.law.retains name entry t heq

lemma SharedInv.write (h : SharedInv w) (hk : w.pending[k]? = some p) : SharedInv (w.write k p) := by
  have hp := List.mem_of_getElem? hk
  obtain ⟨hfetched, hbefore, hat, hown⟩ := h.pending p hp
  set new : Write ε := ⟨p.refresh, p.readAt, w.clock + 1⟩ with hnew
  have hsub : ∀ x ∈ w.writes, x ∈ (w.write k p).writes := fun x => List.mem_cons_of_mem new
  have hmem : new ∈ (w.write k p).writes := List.mem_cons_self
  refine ⟨⟨List.forall_mem_cons.2 ⟨fun hnone => .inl ?_, fun x hx hnone => ?_⟩,
    fun name entry t hlast => ?_⟩, List.forall_mem_cons.2 ⟨?_, fun x hx => ?_⟩,
    fun name entry t hlast => ?_, fun r hr => ?_, fun q hq => ?_,
    fun q hq => List.forall_mem_cons.2 ⟨fun _ _ hlate => ?_, fun x hx hnone hname hearly => ?_⟩,
    fun q hq name entry t hname hlast hearly => ?_⟩
  · show (p.file p.refresh.name).isNone = true
    rw [hown]
    exact hnone
  · show (p.file x.refresh.name).isNone = true ∨ _
    obtain ⟨hxfetched, hxat⟩ := h.handledAt x hx
    by_cases hearly : x.refresh.name ≠ p.refresh.name ∧ x.handledAt < p.readAt
    · rcases h.forgetting p hp x hx hnone hearly.1 hearly.2 with hgone | hlater | hover
      · exact .inl hgone
      · exact .inr (.inl hlater)
      · exact .inr (.inr (hover.mono hsub))
    by_cases hunder : p.refresh.fetchedAt < x.handledAt
    · exact .inr (.inr ⟨new, hmem, hunder, Nat.lt_succ_of_le hxat⟩)
    -- the write is for the name of `x`, and answered later than `x`
    have hname : x.refresh.name = p.refresh.name := by
      by_contra hne
      exact hearly ⟨hne, by omega⟩
    rw [hname, hown]
    cases hlive : p.refresh.live with
    | none => exact .inl rfl
    | some entry =>
      exact .inr (.inl ⟨p.refresh, hfetched, hname.symm, by rw [hlive]; rfl, by omega⟩)
  · show p.file name = some entry ∨ _
    by_cases hname : name = p.refresh.name
    · left
      simp only [SharedCache.write, if_pos hname] at hlast
      obtain ⟨e, he, heq⟩ := Option.map_eq_some_iff.1 hlast
      rw [hname, hown, he, (Prod.mk.inj heq).1]
    · simp only [SharedCache.write, if_neg hname] at hlast
      by_cases hearly : t ≤ p.readAt
      · rcases h.retaining p hp name entry t hname hlast hearly with hkept | hlost
        · exact .inl hkept
        · exact .inr (hlost.mono hsub)
      · have htime := h.lastAt name entry t hlast
        exact .inr ⟨new, hmem, Ne.symm hname, not_le.1 hearly, Nat.lt_succ_of_le htime⟩
  · exact ⟨by show p.refresh.fetchedAt < w.clock + 1; omega, le_rfl⟩
  · exact ⟨(h.handledAt x hx).1, (h.handledAt x hx).2.trans (Nat.le_succ _)⟩
  · show t ≤ w.clock + 1
    by_cases hname : name = p.refresh.name
    · simp only [SharedCache.write, if_pos hname] at hlast
      obtain ⟨e, he, heq⟩ := Option.map_eq_some_iff.1 hlast
      exact (Prod.mk.inj heq).2.ge
    · simp only [SharedCache.write, if_neg hname] at hlast
      exact (h.lastAt name entry t hlast).trans (Nat.le_succ _)
  · exact ⟨(h.waiting r hr).1, (h.waiting r hr).2.trans (Nat.le_succ _)⟩
  · obtain ⟨hqfetched, hqbefore, hqat, hqown⟩ := h.pending q (List.mem_of_mem_eraseIdx hq)
    exact ⟨hqfetched, hqbefore, hqat.trans (Nat.le_succ _), hqown⟩
  · have hqat := (h.pending q (List.mem_of_mem_eraseIdx hq)).2.2.1
    exact absurd hlate (by show ¬ w.clock + 1 < q.readAt; omega)
  · rcases h.forgetting q (List.mem_of_mem_eraseIdx hq) x hx hnone hname hearly with
      hgone | hlater | hover
    · exact .inl hgone
    · exact .inr (.inl hlater)
    · exact .inr (.inr (hover.mono hsub))
  · have hqat := (h.pending q (List.mem_of_mem_eraseIdx hq)).2.2.1
    by_cases hown' : name = p.refresh.name
    · simp only [SharedCache.write, if_pos hown'] at hlast
      obtain ⟨e, he, heq⟩ := Option.map_eq_some_iff.1 hlast
      have htime : w.clock + 1 = t := (Prod.mk.inj heq).2
      omega
    · simp only [SharedCache.write, if_neg hown'] at hlast
      rcases h.retaining q (List.mem_of_mem_eraseIdx hq) name entry t hname hlast hearly with
        hkept | hlost
      · exact .inl hkept
      · exact .inr (hlost.mono hsub)

/-- A write that is not made. -/
lemma SharedInv.fail (h : SharedInv w) :
    SharedInv { w with clock := w.clock + 1, pending := w.pending.eraseIdx k } where
  law := ⟨h.law.forgets, h.law.retains⟩
  handledAt x hx := ⟨(h.handledAt x hx).1, (h.handledAt x hx).2.trans (Nat.le_succ _)⟩
  lastAt name entry t hlast := (h.lastAt name entry t hlast).trans (Nat.le_succ _)
  waiting r hr := ⟨(h.waiting r hr).1, (h.waiting r hr).2.trans (Nat.le_succ _)⟩
  pending q hq := by
    obtain ⟨hfetched, hbefore, hat, hown⟩ := h.pending q (List.mem_of_mem_eraseIdx hq)
    exact ⟨hfetched, hbefore, hat.trans (Nat.le_succ _), hown⟩
  forgetting q hq := h.forgetting q (List.mem_of_mem_eraseIdx hq)
  retaining q hq := h.retaining q (List.mem_of_mem_eraseIdx hq)

/-- **One step of the processes** keeps the law. -/
lemma SharedInv.step (h : SharedInv w) (hstep : sharedStep w l = some w') : SharedInv w' := by
  cases l with
  | fetches process name live =>
    simp only [sharedStep] at hstep
    split_ifs at hstep
    cases hstep
    exact h.fetch rfl
  | reads k =>
    obtain ⟨refresh, hk, hread⟩ := Option.bind_eq_some_iff.1 hstep
    split_ifs at hread
    obtain ⟨cache, hcache, rfl⟩ := Option.map_eq_some_iff.1 hread
    exact h.read hk hcache
  | writes k =>
    obtain ⟨p, hk, rfl⟩ := Option.map_eq_some_iff.1 hstep
    exact h.write hk
  | fails k =>
    obtain ⟨p, hk, rfl⟩ := Option.map_eq_some_iff.1 hstep
    exact h.fail

lemma sharedInv_init : SharedInv (sharedCacheSystem : Run.System (SharedCache ε) _).init where
  law := ⟨by simp [sharedCacheSystem], by simp [sharedCacheSystem]⟩
  handledAt := by simp [sharedCacheSystem]
  lastAt := by simp [sharedCacheSystem]
  waiting := by simp [sharedCacheSystem]
  pending := by simp [sharedCacheSystem]
  forgetting := by simp [sharedCacheSystem]
  retaining := by simp [sharedCacheSystem]

instance (w : SharedCache ε) (h : Handled ε) : Decidable (w.Superseded h) := by
  unfold SharedCache.Superseded
  infer_instance

instance (w : SharedCache ε) : Decidable w.Forgets := by
  unfold SharedCache.Forgets
  infer_instance

/-- An entry written at the beginning of time. -/
def someEntry : CacheEntry String := buildCacheEntry "envelope" none 0

end Agent
