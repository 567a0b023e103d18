import ProjectVault.Run.System
import Mathlib.Order.CompletePartialOrder

/-!
Concurrent transactions of a relational database at the isolation level
READ COMMITTED, statement by statement.
-/

namespace Db

/-! ### Programs -/

/-- What a statement can read: the rows it sees, the start of its transaction
(`now()`), the clock of the process, and the next value of the sequences. -/
structure Ctx (D : Type) where
  view : D
  start : ℕ
  clock : ℕ
  seq : ℕ

/-- Client code over the rows `D`, the lock keys `K` and the answers `R`. -/
inductive Prog (D K R α : Type) where
  /-- Nothing left to do. -/
  | pure (a : α)
  /-- `BEGIN`: the transaction starts now. -/
  | start (next : Prog D K R α)
  /-- A statement: the locks it takes, whether it waits for them, the writes it
  makes once it has them, and the code after it. -/
  | stmt (keys : Ctx D → List K) (wait : Bool) (writes : Ctx D → D → D)
      (next : Bool → Ctx D → Prog D K R α)
  /-- A branch that the model leaves open. -/
  | choose (next : Bool → Prog D K R α)
  /-- `COMMIT`, with the answer the caller gets. -/
  | commit (answer : R) (next : Prog D K R α)
  /-- `ROLLBACK`, with the answer the caller gets. -/
  | rollback (answer : R) (next : Prog D K R α)

namespace Prog

variable {D K R α β : Type}

/-- Sequencing. -/
def bind : Prog D K R α → (α → Prog D K R β) → Prog D K R β
  | pure a, f => f a
  | start next, f => start (next.bind f)
  | stmt keys wait writes next, f => stmt keys wait writes fun b c => (next b c).bind f
  | choose next, f => choose fun b => (next b).bind f
  | commit r next, f => commit r (next.bind f)
  | rollback r next, f => rollback r (next.bind f)

instance : Monad (Prog D K R) where
  pure := Prog.pure
  bind := Prog.bind

/-- `BEGIN`. -/
def beginTx : Prog D K R Unit := start (pure ())

/-- `COMMIT`. -/
def commitTx (answer : R) : Prog D K R Unit := commit answer (pure ())

/-- `ROLLBACK`. -/
def rollbackTx (answer : R) : Prog D K R Unit := rollback answer (pure ())

/-- A read without locks. -/
def query (f : Ctx D → α) : Prog D K R α :=
  stmt (fun _ => []) true (fun _ => id) fun _ c => pure (f c)

/-- A lock that is waited for. -/
def lock (k : K) : Prog D K R Unit :=
  stmt (fun _ => [k]) true (fun _ => id) fun _ _ => pure ()

/-- A lock that is given up when another session holds it. -/
def tryLock (k : K) : Prog D K R Bool :=
  stmt (fun _ => [k]) false (fun _ => id) fun b _ => pure b

/-- A write that waits for the rows it needs. -/
def update (keys : Ctx D → List K) (writes : Ctx D → D → D) (f : Ctx D → α) : Prog D K R α :=
  stmt keys true writes fun _ c => pure (f c)

/-- Either outcome is possible. -/
def either : Prog D K R Bool := choose pure

/-- `for (const a of as) { … }`. -/
def forEach (as : List α) (f : α → Prog D K R Unit) : Prog D K R Unit :=
  match as with
  | [] => pure ()
  | a :: as => (f a).bind fun _ => forEach as f

end Prog

/-! ### States -/

/-- An open session: its transaction's start, its uncommitted writes and the code it
still has to run. -/
structure Session (D K R : Type) where
  startedAt : ℕ
  pending : D → D
  prog : Prog D K R Unit

/-- The end of a transaction: the committed rows before it, its answer, the committed
rows after it, and the locks that other sessions hold meanwhile. -/
structure Event (D K R : Type) where
  before : D
  answer : R
  after : D
  locked : K → Bool

/-- The committed rows with the sequence and the clock, and the log of the transactions
that have ended, the newest first. -/
structure World (D K R : Type) where
  db : D
  seq : ℕ
  clock : ℕ
  log : List (Event D K R)

/-- A state of the database and its sessions. -/
structure State (D K R : Type) where
  world : World D K R
  owner : K → Option ℕ
  session : ℕ → Option (Session D K R)

variable {D K R C : Type}

/-- No session has been opened yet. -/
def State.fresh (world : World D K R) : State D K R where
  world := world
  owner := fun _ => none
  session := fun _ => none

/-- What the next statement of a session reads. -/
def Session.ctx (e : Session D K R) (w : World D K R) : Ctx D where
  view := e.pending w.db
  start := e.startedAt
  clock := w.clock
  seq := w.seq

/-- The locks that are left when a session gives up its own. -/
def releaseOwner (owner : K → Option ℕ) (i : ℕ) (k : K) : Option ℕ :=
  if owner k = some i then none else owner k

/-- The locks after a session has taken some. -/
def acquireOwner [DecidableEq K] (owner : K → Option ℕ) (i : ℕ) (keys : List K) (k : K) :
    Option ℕ :=
  if k ∈ keys then some i else owner k

/-- No other session holds any of the locks. -/
def State.free (s : State D K R) (i : ℕ) (keys : List K) : Bool :=
  keys.all fun k => s.owner k = none ∨ s.owner k = some i

/-- The locks of the other sessions. -/
def State.lockedByOthers (s : State D K R) (i : ℕ) (k : K) : Bool :=
  match s.owner k with
  | none => false
  | some j => j ≠ i

/-- Puts a session in its place. -/
def State.put (s : State D K R) (i : ℕ) (e : Option (Session D K R)) : State D K R :=
  { s with session := fun j => if j = i then e else s.session j }

/-- The sequence value a statement has seen is not given out again. -/
def World.bump (w : World D K R) : World D K R := { w with seq := w.seq + 1 }

/-- The world after the end of a transaction. -/
def World.ended (w : World D K R) (ev : Event D K R) : World D K R :=
  { w with db := ev.after, log := ev :: w.log }

/-! ### Steps -/

/-- The next piece of code of a session. -/
def State.advance [DecidableEq K] (s : State D K R) (i : ℕ) (e : Session D K R) (b : Bool) :
    Option (State D K R) :=
  match e.prog with
  | .pure _ => none
  | .start next => some (s.put i (some { e with startedAt := s.world.clock, prog := next }))
  | .choose next => some (s.put i (some { e with prog := next b }))
  | .stmt keys wait writes next =>
    let c := e.ctx s.world
    if s.free i (keys c) then
      some { s.put i (some { e with pending := writes c ∘ e.pending, prog := next true c }) with
        world := s.world.bump, owner := acquireOwner s.owner i (keys c) }
    else if wait then none
    else some { s.put i (some { e with prog := next false c }) with world := s.world.bump }
  | .commit r next =>
    some { s.put i (some { e with pending := id, prog := next }) with
      world := s.world.ended ⟨s.world.db, r, e.pending s.world.db, s.lockedByOthers i⟩,
      owner := releaseOwner s.owner i }
  | .rollback r next =>
    some { s.put i (some { e with pending := id, prog := next }) with
      world := s.world.ended ⟨s.world.db, r, s.world.db, s.lockedByOthers i⟩,
      owner := releaseOwner s.owner i }

/-- What can happen next. -/
inductive Label (C : Type) where
  /-- A session is opened for a call. -/
  | opens (i : ℕ) (call : C)
  /-- A session runs its next piece of code; the flag decides open branches. -/
  | runs (i : ℕ) (branch : Bool)
  /-- A session is lost, or closed after its last statement: what it has not
  committed is rolled back. -/
  | closes (i : ℕ)
  /-- Time passes. -/
  | tick (n : ℕ)

/-- A session runs the next `n` pieces of its code. -/
def Label.runsFor (i n : ℕ) : List (Label C) := List.replicate n (.runs i true)

/-- One step of the database with the sessions of a program. -/
def step [DecidableEq K] (code : C → Prog D K R Unit) (s : State D K R) :
    Label C → Option (State D K R)
  | .opens i call =>
    match s.session i with
    | some _ => none
    | none => some (s.put i (some ⟨s.world.clock, id, code call⟩))
  | .runs i branch => (s.session i).bind fun e => s.advance i e branch
  | .closes i => some { s.put i none with owner := releaseOwner s.owner i }
  | .tick n => some { s with world := { s.world with clock := s.world.clock + n } }

/-- The database with the sessions of a program, started on the given rows. -/
def sessions [DecidableEq K] (code : C → Prog D K R Unit) (world : World D K R) :
    Run.System (State D K R) (Label C) where
  init := State.fresh world
  step := step code

end Db
