import ProjectVault.Db.Logic

/-!
Savepoints of a transaction.
-/

namespace Db

variable {D K R α β ε : Type}

/-- What a statement sees under further writes. -/
def Ctx.under (writes : D → D) (c : Ctx D) : Ctx D := { c with view := writes c.view }

namespace Prog

/-! ### Statements only -/

/-- No transaction is started or ended, and every lock that is asked for is one of `A`. -/
def Asks (A : Set K) : Prog D K R α → Prop
  | pure _ => True
  | start _ => False
  | stmt keys _ _ next => (∀ c, ∀ k ∈ keys c, k ∈ A) ∧ ∀ b c, Asks A (next b c)
  | choose next => ∀ b, Asks A (next b)
  | commit _ _ => False
  | rollback _ _ => False

variable {A : Set K}

lemma asks_progBind {p : Prog D K R α} {f : α → Prog D K R β} (hp : Asks A p)
    (hf : ∀ a, Asks A (f a)) : Asks A (p.bind f) := by
  induction p with
  | pure a => exact hf a
  | start next ih => exact hp.elim
  | stmt keys wait writes next ih => exact ⟨hp.1, fun b c => ih b c (hp.2 b c)⟩
  | choose next ih => exact fun b => ih b (hp b)
  | commit r next ih => exact hp.elim
  | rollback r next ih => exact hp.elim

lemma asks_bind {p : Prog D K R α} {f : α → Prog D K R β} (hp : Asks A p)
    (hf : ∀ a, Asks A (f a)) : Asks A (p >>= f) :=
  asks_progBind hp hf

lemma asks_pure (a : α) : Asks A (Pure.pure a : Prog D K R α) := trivial

lemma asks_either : Asks A (either : Prog D K R Bool) := fun _ => trivial

lemma asks_query (f : Ctx D → α) : Asks A (query f : Prog D K R α) := ⟨by simp, fun _ _ => trivial⟩

lemma asks_lock {k : K} (hk : k ∈ A) : Asks A (lock k : Prog D K R Unit) :=
  ⟨fun _ _ h => List.mem_singleton.1 h ▸ hk, fun _ _ => trivial⟩

lemma asks_tryLock {k : K} (hk : k ∈ A) : Asks A (tryLock k : Prog D K R Bool) :=
  ⟨fun _ _ h => List.mem_singleton.1 h ▸ hk, fun _ _ => trivial⟩

lemma asks_update {keys : Ctx D → List K} {writes : Ctx D → D → D} {f : Ctx D → α}
    (h : ∀ c, ∀ k ∈ keys c, k ∈ A) : Asks A (update keys writes f : Prog D K R α) :=
  ⟨h, fun _ _ => trivial⟩

lemma asks_forEach {as : List α} {f : α → Prog D K R Unit} (h : ∀ a ∈ as, Asks A (f a)) :
    Asks A (forEach as f) := by
  induction as with
  | nil => trivial
  | cons a as ih =>
    refine asks_progBind (h a List.mem_cons_self) fun _ => ?_
    exact ih fun b hb => h b (List.mem_cons_of_mem a hb)

/-! ### Savepoints -/

/-- The code after a savepoint, with the writes since then. A failure drops them; the locks that
were taken since then are kept, as the transactions that use this end right after a failure. -/
def inSavepoint : (D → D) → Prog D K R (Except ε α) → Prog D K R (Except ε α)
  | _, pure (.error e) => pure (.error e)
  | acc, pure (.ok a) => stmt (fun _ => []) true (fun _ => acc) fun _ _ => pure (.ok a)
  | acc, start next => start (inSavepoint acc next)
  | acc, stmt keys wait writes next => stmt (fun c => keys (c.under acc)) wait (fun _ => id)
      fun b c => inSavepoint (if b then writes (c.under acc) ∘ acc else acc) (next b (c.under acc))
  | acc, choose next => choose fun b => inSavepoint acc (next b)
  | acc, commit r next => commit r (inSavepoint acc next)
  | acc, rollback r next => rollback r (inSavepoint acc next)

/-- `tx.transaction(work)` inside a transaction. -/
def savepoint (p : Prog D K R (Except ε α)) : Prog D K R (Except ε α) := inSavepoint id p

lemma asks_savepoint {A : Set K} {p : Prog D K R (Except ε α)} (hp : Asks A p) :
    Asks A (savepoint p) := by
  have hin : ∀ acc, Asks A (inSavepoint acc p) := by
    induction p with
    | pure r =>
      intro acc
      cases r with
      | error e => trivial
      | ok a => exact ⟨by simp, fun _ _ => trivial⟩
    | start next ih => exact hp.elim
    | stmt keys wait writes next ih =>
      exact fun acc => ⟨fun c => hp.1 (c.under acc), fun b c => ih b _ (hp.2 b _) _⟩
    | choose next ih => exact fun acc b => ih b (hp b) acc
    | commit r next ih => exact hp.elim
    | rollback r next ih => exact hp.elim
  exact hin id

end Prog

/-! ### Rules -/

variable {P : Protocol D K R} {A : Set K}

/-- What has to hold at the end of a savepoint's program for `Q` to hold after the savepoint, when
`pending` are the writes before it. -/
def SavepointPost (P : Protocol D K R) (pending : D → D)
    (Q : Post D K R (Except ε α)) :
    Except ε α → Local D K → World D K R → Prop
  | .ok a => fun l w => ∀ w', Rely P l.held w w' → P.inv w' → Q (.ok a) l w'.bump
  | .error e => fun l w => Q (.error e) { l with pending } w

lemma wp_inSavepoint {p : Prog D K R (Except ε α)} (hp : p.Asks A)
    {Q : Post D K R (Except ε α)} {l : Local D K} {w : World D K R}
    {acc : D → D}
    (h : wp P p (SavepointPost P l.pending Q) { l with pending := acc ∘ l.pending } w) :
    wp P (p.inSavepoint acc) Q l w := by
  induction p generalizing acc l w with
  | pure r =>
    cases r with
    | error e => exact h
    | ok a =>
      intro w' hr hi
      refine ⟨?_, by simp⟩
      have hl : l.wrote [] acc = { l with pending := acc ∘ l.pending } := by
        simp [Local.wrote]
      change Q (.ok a) (l.wrote [] acc) w'.bump
      rw [hl]
      exact h w' hr hi
  | start next ih => exact hp.elim
  | stmt keys wait writes next ih =>
    intro w' hr hi
    obtain ⟨htaken, hskipped⟩ := h w' hr hi
    refine ⟨?_, fun hwait => ?_⟩
    · exact ih true _ (hp.2 true _) (l := l.wrote _ id) htaken
    · exact ih false _ (hp.2 false _) (hskipped hwait)
  | choose next ih => exact fun b => ih b (hp b) (h b)
  | commit r next ih => exact hp.elim
  | rollback r next ih => exact hp.elim

/-- The rule for a savepoint. -/
lemma wp_savepoint {p : Prog D K R (Except ε α)} (hp : p.Asks A)
    {Q : Post D K R (Except ε α)} {l : Local D K} {w : World D K R}
    (h : wp P p (SavepointPost P l.pending Q) l w) : wp P p.savepoint Q l w :=
  wp_inSavepoint hp h

end Db
