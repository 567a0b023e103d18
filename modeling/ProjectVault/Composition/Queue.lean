import ProjectVault.Composition.Paths
import ProjectVault.Run.System

/-!
The queue of the development plugins (`composition-kit/src/vite/queue.ts`): debounced, coalescing,
one compose at a time. `run` is taken to return a promise, as its type says.
-/

namespace ComposeQueue

open Composition

/-- `ComposeBatch`. -/
structure ComposeBatch where
  paths : List String
  full : Bool

/-- How far a run is: its promise is pending, it is settled, the callback of `finally` is through. -/
inductive RunPhase where
  | inFlight
  | settled
  | finished
deriving DecidableEq

/-- A call of `options.run`. -/
structure ComposeRun where
  batch : ComposeBatch
  phase : RunPhase

/-- A call of `schedule`, with the number of runs started before it. -/
structure Request where
  path : String
  manifestChanged : Bool
  after : ℕ
deriving DecidableEq

/-- The variables of `createComposeQueue`, the timers its host has yet to fire, and what has been
called so far. A timer, a run and a call of `idle` are known by their numbers. -/
structure World where
  paths : List String
  full : Bool
  timer : Option ℕ
  running : Option ℕ
  waiters : List ℕ
  timers : List ℕ
  nextTimer : ℕ
  runs : List ComposeRun
  requests : List Request
  idles : ℕ
  resolved : List ℕ

/-- What the queue reacts to. -/
inductive Event where
  | schedule (path : String) (manifestChanged : Bool)
  | fires (timer : ℕ)
  | settles (run : ℕ)
  | finishes (run : ℕ)
  | idle

/-- The events the host brings about without further calls. -/
def Event.isHost : Event → Bool
  | .schedule .. | .idle => false
  | .fires _ | .settles _ | .finishes _ => true

namespace World

/-- `settle`. -/
def settle (w : World) : World :=
  if w.timer = none ∧ w.running = none ∧ w.paths = [] then
    { w with waiters := [], resolved := w.resolved ++ w.waiters }
  else w

/-- `start`. -/
def start (w : World) : World :=
  if w.running ≠ none ∨ w.paths = [] then { w with timer := none }
  else
    { w with
      timer := none
      paths := []
      full := false
      runs := w.runs ++ [⟨⟨sortedCodeUnits w.paths, w.full⟩, .inFlight⟩]
      running := some w.runs.length }

/-- `schedule`. -/
def schedule (w : World) (path : String) (manifestChanged : Bool) : World :=
  { w with
    paths := if path ∈ w.paths then w.paths else w.paths ++ [path]
    full := w.full || manifestChanged
    timer := some w.nextTimer
    timers := w.timers.filter (fun t => w.timer ≠ some t) ++ [w.nextTimer]
    nextTimer := w.nextTimer + 1
    requests := w.requests ++ [⟨path, manifestChanged, w.runs.length⟩] }

/-- A run reaches a phase. -/
def setPhase (w : World) (i : ℕ) (phase : RunPhase) : World :=
  { w with runs := w.runs.modify i fun run => { run with phase } }

/-- The callback of `finally`. -/
def finish (w : World) : World :=
  if w.paths ≠ [] then { w with running := none }.start.settle
  else { w with running := none }.settle

/-- `idle`. -/
def idle (w : World) : World :=
  { w with waiters := w.waiters ++ [w.idles], idles := w.idles + 1 }.settle

/-- One event. -/
def step (w : World) : Event → Option World
  | .schedule path manifestChanged => some (w.schedule path manifestChanged)
  | .fires t => if t ∈ w.timers then some { w with timers := w.timers.erase t }.start else none
  | .settles i =>
    if (w.runs[i]?).map ComposeRun.phase = some .inFlight then some (w.setPhase i .settled) else none
  | .finishes i =>
    if (w.runs[i]?).map ComposeRun.phase = some .settled then some (w.setPhase i .finished).finish else none
  | .idle => some w.idle

end World

/-- The queue from `createComposeQueue` on. -/
def system : Run.System World Event where
  init := ⟨[], false, none, none, [], [], 0, [], [], 0, []⟩
  step := World.step

/-- The promise of the run is pending. -/
def World.InFlight (w : World) (i : ℕ) : Prop :=
  (w.runs[i]?).map ComposeRun.phase = some .inFlight

/-- No path waits and every run is through. -/
def World.Quiet (w : World) : Prop := w.paths = [] ∧ ∀ run ∈ w.runs, run.phase = .finished

/-- The request is waiting, or in the first batch that starts after it; a manifest change makes
that batch a full one. -/
def World.Takes (w : World) (r : Request) : Prop :=
  if r.after = w.runs.length then r.path ∈ w.paths ∧ (r.manifestChanged → w.full)
  else ∃ run, w.runs[r.after]? = some run ∧ r.path ∈ run.batch.paths ∧
    (r.manifestChanged → run.batch.full)

/-- What the callbacks keep even between `start` and `settle`. -/
structure Core (w : World) : Prop where
  phase : ∀ i run, w.runs[i]? = some run → (run.phase ≠ .finished ↔ w.running = some i)
  running : ∀ i, w.running = some i → i < w.runs.length
  idles : ∀ n < w.idles, n ∈ w.waiters ∨ n ∈ w.resolved
  requests : ∀ r ∈ w.requests, w.Takes r

/-- What holds between two events: a timer the queue knows of is still to fire, waiting paths
have a timer or a run ahead of them, and so has everyone who waits for the queue. -/
structure Inv (w : World) : Prop extends Core w where
  timer : ∀ t, w.timer = some t → t ∈ w.timers ∧ w.paths ≠ []
  waits : w.paths ≠ [] → w.timer ≠ none ∨ w.running ≠ none
  waiters : w.waiters ≠ [] → w.paths ≠ [] ∨ w.running ≠ none

variable {w w' : World} {i : ℕ}

/-! ### The callbacks -/

@[simp] lemma settle_paths : w.settle.paths = w.paths := by unfold World.settle; split <;> rfl

@[simp] lemma settle_timer : w.settle.timer = w.timer := by unfold World.settle; split <;> rfl

@[simp] lemma settle_running : w.settle.running = w.running := by unfold World.settle; split <;> rfl

@[simp] lemma settle_timers : w.settle.timers = w.timers := by unfold World.settle; split <;> rfl

@[simp] lemma settle_runs : w.settle.runs = w.runs := by unfold World.settle; split <;> rfl

@[simp] lemma start_timer : w.start.timer = none := by unfold World.start; split <;> rfl

@[simp] lemma start_timers : w.start.timers = w.timers := by unfold World.start; split <;> rfl

@[simp] lemma schedule_runs {path : String} {manifestChanged : Bool} :
    (w.schedule path manifestChanged).runs = w.runs := rfl

lemma mem_schedule_paths {path p : String} {manifestChanged : Bool} :
    p ∈ (w.schedule path manifestChanged).paths ↔ p ∈ w.paths ∨ p = path := by
  unfold World.schedule
  split
  · exact ⟨.inl, fun hp => hp.elim id fun heq => by rwa [heq]⟩
  · simp

/-- After `start`, what still waits has a run ahead of it. -/
lemma start_waits (h : w.start.paths ≠ []) : w.start.running ≠ none := by
  unfold World.start at h ⊢
  split_ifs at h ⊢ with hidle
  · exact hidle.resolve_right h
  · simp

/-- Nobody waits for a queue at rest once `settle` is through. -/
lemma settle_waiters (w : World) (htimer : w.timer ≠ none → w.paths ≠ []) (h : w.settle.waiters ≠ []) :
    w.settle.paths ≠ [] ∨ w.settle.running ≠ none := by
  rw [settle_paths, settle_running]
  unfold World.settle at h
  split_ifs at h with hrest
  · exact absurd rfl h
  · by_contra hno
    push Not at hno
    exact hrest ⟨not_not.1 fun ht => htimer ht hno.1, hno.2, hno.1⟩

lemma Core.settle (h : Core w) : Core w.settle := by
  unfold World.settle
  split
  · refine ⟨h.phase, h.running, fun n hn => .inr ?_, h.requests⟩
    exact List.mem_append.2 (h.idles n hn).symm
  · exact h

/-- A phase is no part of a batch. -/
lemma takes_setPhase {phase : RunPhase} {r : Request} (h : w.Takes r) :
    (w.setPhase i phase).Takes r := by
  unfold World.Takes at h ⊢
  simp only [World.setPhase, List.length_modify, List.getElem?_modify]
  split_ifs at h ⊢
  · exact h
  · obtain ⟨run, hrun, hbatch⟩ := h
    exact ⟨{ run with phase }, by rw [hrun]; rfl, hbatch⟩
  · obtain ⟨run, hrun, hbatch⟩ := h
    exact ⟨run, by rw [hrun]; rfl, hbatch⟩

/-- `start` hands every waiting path to the run it starts. -/
lemma Core.start (h : Core w) : Core w.start := by
  unfold World.start
  split_ifs with hidle
  · exact ⟨h.phase, h.running, h.idles, h.requests⟩
  · obtain ⟨hrunning, -⟩ := not_or.1 hidle
    rw [not_not] at hrunning
    refine ⟨fun i run hi => ?_, ?_, h.idles, fun r hr => ?_⟩
    · rw [List.getElem?_append] at hi
      split_ifs at hi with hlt
      · have hold := h.phase i run hi
        rw [hrunning] at hold
        simp only [Option.some.injEq]
        exact hold.trans ⟨nofun, fun heq => absurd heq (Nat.ne_of_gt hlt)⟩
      · obtain ⟨hone, hrun⟩ := List.getElem?_eq_some_iff.1 hi
        rw [List.length_singleton] at hone
        obtain rfl : i = w.runs.length := by omega
        simp [← hrun]
    · intro i hi
      cases hi
      simp
    · have hold := h.requests r hr
      unfold World.Takes at hold ⊢
      split_ifs at hold with heq
      · rw [if_neg (by simp [heq]), heq]
        exact ⟨_, List.getElem?_concat_length, mem_sortedCodeUnits.2 hold.1, hold.2⟩
      · obtain ⟨run, hrun, hbatch⟩ := hold
        have hlt := (List.getElem?_eq_some_iff.1 hrun).1
        rw [if_neg (by simp; omega)]
        exact ⟨run, by rw [List.getElem?_append_left hlt, hrun], hbatch⟩

/-- A run that settles is still the one the queue knows of. -/
lemma Core.setPhase (h : Core w) (hi : w.running = some i) {phase : RunPhase}
    (hphase : phase ≠ .finished) : Core (w.setPhase i phase) := by
  refine ⟨fun j run hj => ?_, fun j hj => ?_, h.idles, fun r hr => ?_⟩
  · simp only [World.setPhase, List.getElem?_modify] at hj
    obtain ⟨old, hold, rfl⟩ := Option.map_eq_some_iff.1 hj
    split_ifs with heq
    · exact iff_of_true hphase (heq ▸ hi)
    · exact h.phase j old hold
  · simpa [World.setPhase] using h.running j hj
  · exact takes_setPhase (h.requests r hr)

/-- With the run it knows of through, the queue has none. -/
lemma Core.clear (h : Core w) (hi : w.running = some i) :
    Core { w.setPhase i .finished with running := none } := by
  refine ⟨fun j run hj => ?_, nofun, h.idles, fun r hr => ?_⟩
  · simp only [World.setPhase, List.getElem?_modify] at hj
    obtain ⟨old, hold, rfl⟩ := Option.map_eq_some_iff.1 hj
    split_ifs with heq
    · simp
    · have hother := h.phase j old hold
      simp only [hi, Option.some.injEq, heq, iff_false, not_not] at hother
      simp [hother]
  · exact takes_setPhase (h.requests r hr)

/-- A run that is not through is the one the queue knows of. -/
lemma Core.running_of (h : Core w) {phase : RunPhase}
    (hi : (w.runs[i]?).map ComposeRun.phase = some phase) (hphase : phase ≠ .finished) :
    w.running = some i := by
  obtain ⟨run, hrun, rfl⟩ := Option.map_eq_some_iff.1 hi
  exact (h.phase i run hrun).1 hphase

lemma Core.ask (h : Core w) :
    Core { w with waiters := w.waiters ++ [w.idles], idles := w.idles + 1 } := by
  refine ⟨h.phase, h.running, fun n hn => ?_, h.requests⟩
  rcases Nat.lt_succ_iff_lt_or_eq.1 hn with hlt | rfl
  · exact (h.idles n hlt).imp_left fun hw => List.mem_append.2 (.inl hw)
  · exact .inl (List.mem_append.2 (.inr (List.mem_singleton.2 rfl)))

/-! ### One event -/

/-- `finally`: the follow-up, if any, and then `settle`. -/
lemma Inv.finish (h : Core { w with running := none })
    (htimer : ∀ t, w.timer = some t → t ∈ w.timers ∧ w.paths ≠ []) : Inv w.finish := by
  unfold World.finish
  by_cases hpaths : w.paths = []
  · have htimer' : w.timer = none :=
      Option.eq_none_iff_forall_not_mem.2 fun t ht => (htimer t ht).2 hpaths
    rw [if_neg (not_not.2 hpaths)]
    refine ⟨h.settle, ?_, ?_, fun hw => ?_⟩
    · simp [htimer']
    · simp [hpaths]
    · exact settle_waiters { w with running := none } (fun ht => absurd htimer' ht) hw
  · rw [if_pos hpaths]
    refine ⟨h.start.settle, ?_, fun hw => ?_, fun hw => ?_⟩
    · simp
    · exact .inr (by simpa using start_waits (by simpa using hw))
    · exact settle_waiters _ (by simp) hw

/-- **Step lemma**: every event keeps the invariant. -/
lemma Inv.step (h : Inv w) {e : Event} (he : w.step e = some w') : Inv w' := by
  cases e with
  | schedule path manifestChanged =>
    cases he
    have hpaths : (w.schedule path manifestChanged).paths ≠ [] :=
      List.ne_nil_of_mem (mem_schedule_paths.2 (.inr rfl))
    refine ⟨⟨h.phase, h.running, h.idles, fun r hr => ?_⟩, ?_, ?_, fun _ => .inl hpaths⟩
    · rcases List.mem_append.1 hr with hr | hr
      · have hold := h.requests r hr
        unfold World.Takes at hold ⊢
        rw [schedule_runs]
        split_ifs at hold ⊢
        · exact ⟨mem_schedule_paths.2 (.inl hold.1), fun hm => by
            simp [World.schedule, hold.2 hm]⟩
        · exact hold
      · obtain rfl := List.mem_singleton.1 hr
        rw [World.Takes, schedule_runs, if_pos rfl]
        exact ⟨mem_schedule_paths.2 (.inr rfl), fun hm => Bool.or_eq_true_iff.2 (.inr hm)⟩
    · intro t ht
      cases ht
      exact ⟨List.mem_append.2 (.inr (List.mem_singleton.2 rfl)), hpaths⟩
    · exact fun _ => .inl (Option.some_ne_none _)
  | fires t =>
    rw [World.step] at he
    split_ifs at he
    cases he
    have hcore : Core { w with timers := w.timers.erase t } :=
      ⟨h.phase, h.running, h.idles, h.requests⟩
    refine ⟨hcore.start, by simp, fun hp => .inr (start_waits hp), fun hw => ?_⟩
    unfold World.start at hw ⊢
    split_ifs at hw ⊢
    · exact h.waiters hw
    · exact .inr (Option.some_ne_none _)
  | settles i =>
    rw [World.step] at he
    split_ifs at he with hphase
    cases he
    have hi := h.running_of hphase nofun
    exact ⟨h.toCore.setPhase hi nofun, h.timer, h.waits, h.waiters⟩
  | finishes i =>
    rw [World.step] at he
    split_ifs at he with hphase
    cases he
    have hi := h.running_of hphase nofun
    exact Inv.finish (h.toCore.clear hi) h.timer
  | idle =>
    cases he
    refine ⟨h.ask.settle, by simpa [World.idle] using h.timer,
      by simpa [World.idle] using h.waits, fun hw => ?_⟩
    have htimer : w.timer ≠ none → w.paths ≠ [] := fun ht =>
      have ⟨t, ht⟩ := Option.ne_none_iff_exists'.1 ht
      (h.timer t ht).2
    exact settle_waiters { w with waiters := _, idles := _ } htimer hw

lemma inv_init : Inv system.init where
  phase := by simp [system]
  running := nofun
  idles := nofun
  requests := nofun
  timer := nofun
  waits := by simp [system]
  waiters := by simp [system]

/-! ### Progress -/

/-- The host events a phase still stands for. -/
def RunPhase.left : RunPhase → ℕ
  | .inFlight => 2
  | .settled => 1
  | .finished => 0

/-- A bound on the host events to come: every timer fires once, and a run, with its follow-up,
settles and finishes. -/
def World.hostBound (w : World) : ℕ :=
  (if w.paths = [] then 0 else 2) + w.timers.length +
    ((w.running.bind (w.runs[·]?)).map (·.phase.left)).getD 0

lemma hostBound_settle : w.settle.hostBound = w.hostBound := by
  simp [World.hostBound]

/-- `start` trades the waiting paths for a run in flight. -/
lemma hostBound_start : w.start.hostBound = w.hostBound := by
  unfold World.start
  split_ifs with hidle
  · rfl
  · obtain ⟨hrunning, hpaths⟩ := not_or.1 hidle
    rw [not_not] at hrunning
    simp [World.hostBound, hrunning, hpaths, RunPhase.left]
    omega

lemma hostBound_step (h : Inv w) {e : Event} (hhost : e.isHost) (he : w.step e = some w') :
    w'.hostBound + 1 = w.hostBound := by
  cases e with
  | schedule path manifestChanged => cases hhost
  | idle => cases hhost
  | fires t =>
    rw [World.step] at he
    split_ifs at he with ht
    cases he
    have hlength := List.length_erase_of_mem ht
    have hpos := List.length_pos_of_mem ht
    rw [hostBound_start]
    simp only [World.hostBound, hlength]
    omega
  | settles i =>
    rw [World.step] at he
    split_ifs at he with hphase
    cases he
    have hi := h.running_of hphase nofun
    obtain ⟨run, hrun, hflight⟩ := Option.map_eq_some_iff.1 hphase
    simp [World.hostBound, World.setPhase, hi, hrun, hflight, RunPhase.left]
  | finishes i =>
    rw [World.step] at he
    split_ifs at he with hphase
    cases he
    have hi := h.running_of hphase nofun
    obtain ⟨run, hrun, hsettled⟩ := Option.map_eq_some_iff.1 hphase
    have hclear : { w.setPhase i .finished with running := none }.hostBound + 1 = w.hostBound := by
      simp [World.hostBound, World.setPhase, hi, hrun, hsettled, RunPhase.left]
    unfold World.finish
    split
    · rw [hostBound_settle, hostBound_start, hclear]
    · rw [hostBound_settle, hclear]

/-- **Run lemma**: only so many host events follow one another, and the invariant is kept. -/
lemma hostBound_exec (h : Inv w) {events : List Event} (hhost : ∀ e ∈ events, e.isHost)
    (he : system.exec (fun _ _ => True) w events = some w') :
    events.length ≤ w.hostBound ∧ Inv w' := by
  induction events generalizing w with
  | nil =>
    obtain rfl : w = w' := by simpa [Run.System.exec] using he
    exact ⟨Nat.zero_le _, h⟩
  | cons e events ih =>
    rw [Run.System.exec, if_pos trivial] at he
    obtain ⟨m, hm, hrest⟩ := Option.bind_eq_some_iff.1 he
    have hlower := hostBound_step h (hhost e List.mem_cons_self) hm
    obtain ⟨hlength, hinv⟩ :=
      ih (h.step hm) (fun e he => hhost e (List.mem_cons_of_mem _ he)) hrest
    exact ⟨by rw [List.length_cons]; omega, hinv⟩

/-- The queue is at rest once no host event is left. -/
lemma Inv.quiet (h : Inv w) (hdone : ∀ e : Event, e.isHost → w.step e = none) : w.Quiet := by
  have hfinished : ∀ run ∈ w.runs, run.phase = .finished := by
    intro run hrun
    obtain ⟨i, hi⟩ := List.mem_iff_getElem?.1 hrun
    cases hphase : run.phase with
    | inFlight => simpa [World.step, hi, hphase] using hdone (.settles i) rfl
    | settled => simpa [World.step, hi, hphase] using hdone (.finishes i) rfl
    | finished => rfl
  refine ⟨by_contra fun hpaths => ?_, hfinished⟩
  rcases h.waits hpaths with htimer | hrunning
  · obtain ⟨t, ht⟩ := Option.ne_none_iff_exists'.1 htimer
    simpa [World.step, (h.timer t ht).1] using hdone (.fires t) rfl
  · obtain ⟨i, hi⟩ := Option.ne_none_iff_exists'.1 hrunning
    have hlt := h.running i hi
    exact (h.phase i _ (List.getElem?_eq_getElem hlt)).2 hi (hfinished _ (List.getElem_mem hlt))

/-- A queue at rest has answered every call of `idle`. -/
lemma Inv.answered (h : Inv w) (hquiet : w.Quiet) : ∀ n < w.idles, n ∈ w.resolved := by
  intro n hn
  refine (h.idles n hn).resolve_left fun hwaiter => ?_
  rcases h.waiters (List.ne_nil_of_mem hwaiter) with hpaths | hrunning
  · exact hpaths hquiet.1
  · obtain ⟨i, hi⟩ := Option.ne_none_iff_exists'.1 hrunning
    have hlt := h.running i hi
    exact (h.phase i _ (List.getElem?_eq_getElem hlt)).2 hi (hquiet.2 _ (List.getElem_mem hlt))

/-- Only `settle` resolves, and only at rest. -/
lemma quiet_of_settle (h : Core w) {n : ℕ} (hn : n ∈ w.settle.resolved) (hold : n ∉ w.resolved) :
    w.settle.Quiet := by
  unfold World.settle at hn ⊢
  split_ifs at hn ⊢ with hrest
  · refine ⟨hrest.2.2, fun run hrun => ?_⟩
    obtain ⟨i, hi⟩ := List.mem_iff_getElem?.1 hrun
    by_contra hphase
    simpa [hrest.2.1] using (h.phase i run hi).1 hphase
  · exact absurd hn hold

lemma Inv.quiet_of_resolved (h : Inv w) {e : Event} (he : w.step e = some w') {n : ℕ}
    (hn : n ∈ w'.resolved) (hold : n ∉ w.resolved) : w'.Quiet := by
  cases e with
  | schedule path manifestChanged =>
    cases he
    exact absurd hn hold
  | fires t =>
    rw [World.step] at he
    split_ifs at he
    cases he
    unfold World.start at hn
    split at hn <;> exact absurd hn hold
  | settles i =>
    rw [World.step] at he
    split_ifs at he
    cases he
    exact absurd hn hold
  | finishes i =>
    rw [World.step] at he
    split_ifs at he with hphase
    cases he
    have hi := h.running_of hphase nofun
    have hclear := h.toCore.clear hi
    unfold World.finish at hn ⊢
    split_ifs at hn ⊢
    · refine quiet_of_settle hclear.start hn ?_
      unfold World.start
      split <;> exact hold
    · exact quiet_of_settle hclear hn hold
  | idle =>
    cases he
    exact quiet_of_settle h.ask hn hold

/-- **The queue of the development plugins.** In every state events in any order lead to, at most
one run is in flight; what was scheduled waits or is in the first batch started since, a full one
after a manifest change; a call of `idle` is answered only at rest, and at rest they all are; and
only so many timers and runs are to come, with which the queue gets to rest. -/
theorem composeQueue_coalesces (h : system.Reaches (fun _ _ => True) w) :
    (∀ i j, w.InFlight i → w.InFlight j → i = j) ∧ (∀ r ∈ w.requests, w.Takes r) ∧
      (∀ e w', w.step e = some w' → ∀ n ∈ w'.resolved, n ∉ w.resolved → w'.Quiet) ∧
      (w.Quiet → ∀ n < w.idles, n ∈ w.resolved) ∧
      ∀ events w', (∀ e ∈ events, e.isHost) →
        system.exec (fun _ _ => True) w events = some w' →
          events.length ≤ w.hostBound ∧
            ((∀ e : Event, e.isHost → w'.step e = none) → w'.Quiet) := by
  have hinv : Inv w := h.invariant inv_init fun _ _ _ hinv _ hstep => hinv.step hstep
  refine ⟨fun i j hi hj => ?_, hinv.requests,
    fun e w' he n hn hold => hinv.quiet_of_resolved he hn hold, hinv.answered,
    fun events w' hhost he => ?_⟩
  · exact Option.some.inj ((hinv.running_of hi nofun).symm.trans (hinv.running_of hj nofun))
  · obtain ⟨hlength, hinv'⟩ := hostBound_exec hinv hhost he
    exact ⟨hlength, hinv'.quiet⟩

/-- A save while a compose runs, with the timer of the save left pending by the follow-up. -/
def saveWhileRunning : List Event :=
  [.schedule "a.ts" false, .fires 0, .schedule "pv-ui.manifest.ts" true, .idle, .settles 0,
    .finishes 0, .fires 1, .settles 1, .finishes 1]

theorem composeQueue_coalesces_saved :
    ∃ w : World, w.Takes ⟨"pv-ui.manifest.ts", true, 1⟩ ∧ 0 ∈ w.resolved := by
  obtain ⟨w, hw, hrequest, hquiet, hidles⟩ :=
    system.exists_of_exec (fun _ _ => True) system.init saveWhileRunning
      (fun w => ⟨"pv-ui.manifest.ts", true, 1⟩ ∈ w.requests ∧
        (w.paths = [] ∧ ∀ run ∈ w.runs, run.phase = .finished) ∧ 0 < w.idles) (by decide +kernel)
  obtain ⟨-, htakes, -, hanswered, -⟩ := composeQueue_coalesces (Run.System.steps_of_exec hw)
  exact ⟨w, htakes _ hrequest, hanswered hquiet 0 hidles⟩

/-- What was asked for after `n` batches had started, and nothing else. -/
structure Asked (requests : List Request) (n : ℕ) (paths : List String) (full : Bool) : Prop where
  paths : ∀ p, p ∈ paths ↔ ∃ r ∈ requests, r.after = n ∧ r.path = p
  full : full = true ↔ ∃ r ∈ requests, r.after = n ∧ r.manifestChanged = true

/-- Every batch, and what waits for the next one, is what was asked for. -/
structure Exact (w : World) : Prop where
  after : ∀ r ∈ w.requests, r.after ≤ w.runs.length
  runs : ∀ i run, w.runs[i]? = some run →
    run.batch.paths ≠ [] ∧ Asked w.requests i run.batch.paths run.batch.full
  waiting : Asked w.requests w.runs.length w.paths w.full

lemma Exact.settle (h : Exact w) : Exact w.settle := by
  unfold World.settle
  split
  · exact ⟨h.after, h.runs, h.waiting⟩
  · exact h

lemma Exact.setPhase (h : Exact w) (phase : RunPhase) : Exact (w.setPhase i phase) := by
  refine ⟨by simpa [World.setPhase] using h.after, fun j run hj => ?_,
    by simpa [World.setPhase] using ⟨h.waiting.paths, h.waiting.full⟩⟩
  simp only [World.setPhase, List.getElem?_modify] at hj
  obtain ⟨old, hold, rfl⟩ := Option.map_eq_some_iff.1 hj
  have hbatch : (if i = j then { old with phase := phase } else old).batch = old.batch := by
    split_ifs <;> rfl
  rw [hbatch]
  exact h.runs j old hold

/-- A batch takes what waits. -/
lemma Exact.start (h : Exact w) : Exact w.start := by
  unfold World.start
  split_ifs with hidle
  · exact ⟨h.after, h.runs, h.waiting⟩
  · have hnone : ∀ r ∈ w.requests, r.after ≠ w.runs.length + 1 := fun r hr =>
      (Nat.lt_succ_of_le (h.after r hr)).ne
    refine ⟨fun r hr => ?_, fun i run hi => ?_, ⟨?_, ?_⟩⟩
    · rw [List.length_append]
      exact (h.after r hr).trans (Nat.le_add_right _ _)
    · rw [List.getElem?_append] at hi
      split_ifs at hi with hlt
      · exact h.runs i run hi
      · obtain ⟨hone, rfl⟩ := List.getElem?_eq_some_iff.1 hi
        obtain rfl : i = w.runs.length := by
          rw [List.length_singleton] at hone
          omega
        refine ⟨fun hnil => (not_or.1 hidle).2 ?_, ?_, ?_⟩
        · refine List.eq_nil_iff_forall_not_mem.2 fun p hp => ?_
          have hmem := mem_sortedCodeUnits.2 hp
          simp_all
        · simpa [mem_sortedCodeUnits] using h.waiting.paths
        · simpa using h.waiting.full
    · simpa using fun _ r hr heq => absurd heq (hnone r hr)
    · simpa using fun r hr heq => absurd heq (hnone r hr)

lemma Exact.step (h : Exact w) {e : Event} (he : w.step e = some w') : Exact w' := by
  cases e with
  | schedule path manifestChanged =>
    cases he
    refine ⟨fun r hr => ?_, fun i run hi => ?_, ⟨fun p => ?_, ?_⟩⟩
    · rcases List.mem_append.1 hr with hr | hr
      · exact h.after r hr
      · rw [List.mem_singleton.1 hr]
        rfl
    · have hne : w.runs.length ≠ i := ((List.getElem?_eq_some_iff.1 hi).1).ne'
      obtain ⟨hnil, hpaths, hfull⟩ := h.runs i run hi
      exact ⟨hnil, by simpa [World.schedule, hne] using hpaths,
        by simpa [World.schedule, hne] using hfull⟩
    · rw [mem_schedule_paths, h.waiting.paths]
      simp [World.schedule, eq_comm, or_and_right, exists_or]
    · simp [World.schedule, h.waiting.full, or_and_right, exists_or]
  | fires t =>
    rw [World.step] at he
    split_ifs at he
    cases he
    exact Exact.start ⟨h.after, h.runs, h.waiting⟩
  | settles i =>
    rw [World.step] at he
    split_ifs at he
    cases he
    exact h.setPhase _
  | finishes i =>
    rw [World.step] at he
    split_ifs at he
    cases he
    have hset := h.setPhase (i := i) .finished
    have hclear : Exact { w.setPhase i .finished with running := none } :=
      ⟨hset.after, hset.runs, hset.waiting⟩
    unfold World.finish
    split
    · exact hclear.start.settle
    · exact hclear.settle
  | idle =>
    cases he
    exact Exact.settle ⟨h.after, h.runs, h.waiting⟩

/-- **Batches are exact.** Whatever the order of the events, no batch is empty, and the paths of the
batch that starts after `i` others are those asked for since the one before it started, a full batch
being one with a manifest change among them. -/
theorem composeQueue_exact (h : system.Reaches (fun _ _ => True) w) : Exact w :=
  h.invariant ⟨nofun, by simp [system], by simp [system], by simp [system]⟩
    fun _ _ _ hexact _ hstep => hexact.step hstep

theorem composeQueue_exact_saved : ∃ w, w.runs.length = 2 ∧ Exact w := by
  obtain ⟨w, hw, hruns⟩ := system.exists_of_exec (fun _ _ => True) system.init saveWhileRunning
    (fun w => w.runs.length = 2) (by decide +kernel)
  exact ⟨w, hruns, composeQueue_exact (Run.System.steps_of_exec hw)⟩

end ComposeQueue
