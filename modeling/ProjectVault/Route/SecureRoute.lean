import ProjectVault.Org.RotationHandling

/-!
The request pipeline of a route (`lib/secure-route.ts`), from the guards to the answer.

The guards before the transaction appear by their outcome. A handler that never settles has none.
-/

namespace SecureRoute

open ProjectVault.Org (OrgRole roleRank)

/-! ### Errors and answers -/

/-- `SameTransactionAuditWriteError.code`. -/
inductive AuditRefusal where
  | quotaExhausted | gateUnavailable | rateLimited

/-- What a step throws. -/
inductive Thrown (E : Type) where
  /-- `AuditWriteError` -/
  | auditWrite (message : String)
  /-- `SameTransactionAuditWriteError` -/
  | sameTransaction (message : String) (code : Option AuditRefusal)
  /-- an `Error` of the pipeline -/
  | error (message : String)
  | other (e : E)

/-- An error reply. -/
structure ErrorReply where
  status : ℕ
  code : String
  message : String
  /-- the `Retry-After` header -/
  retryAfter : Option ℕ
  isError : 400 ≤ status := by decide

/-- What a client gets. -/
inductive Answer (V E : Type) where
  | result (v : V)
  | error (reply : ErrorReply)
  /-- the route rejects and the error handler of the application answers -/
  | rejected (e : Thrown E)

/-- A step of a request that others see. -/
inductive Event (W C V E : Type) where
  | begin
  /-- a write of the handler in the transaction -/
  | write (w : W)
  /-- a call of the audit writer in the transaction -/
  | audit
  | commit
  | rollback
  | callback (c : C)
  | answer (a : Answer V E)

/-! ### The parts a request runs through -/

inductive RequestPhase where
  | rls | handler | audit
  deriving DecidableEq

/-- A request under way: the reply, the registered callbacks and the trace. -/
structure State (W C V E : Type) where
  sent : Option (Answer V E)
  /-- whether the send guard is installed -/
  guarded : Bool
  phase : RequestPhase
  postCommitCallbacks : List C
  trace : List (Event W C V E)

/-- A step of a request: it may throw, and what it did until then stays done. -/
abbrev Step (W C V E : Type) (α : Type) := EStateM (Thrown E) (State W C V E) α

/-- A route handler: it writes, registers callbacks and tries to send, and settles. After a send it
goes on with what the send threw, if it did. -/
inductive Handler (W C V E : Type) where
  | returns (v : V)
  | throws (e : Thrown E)
  | write (w : W) (next : Handler W C V E)
  | onPostCommit (c : C) (next : Handler W C V E)
  | send (v : V) (next : Option (Thrown E) → Handler W C V E)

/-- How a callback settles, if it does. -/
inductive CallbackOutcome (E : Type) where
  | settled (afterMs : ℕ) (result : Except (Thrown E) Unit)
  | pending

/-- How the steps around the handler end. -/
structure Outcomes (E : Type) where
  /-- `enforceProtectedGuards`: it passes, replies or throws -/
  guards : Except (Thrown E) (Option ErrorReply)
  /-- the connection and its `BEGIN` -/
  begins : Except (Thrown E) Unit
  setRlsOrgContext : Except (Thrown E) Unit
  isProjectDeleted : Except (Thrown E) Bool
  effectiveProjectRole : Except (Thrown E) OrgRole
  /-- the warning about a denied write -/
  logDenied : Except (Thrown E) Unit
  auditWriter : Except (Thrown E) Unit
  commits : Except (Thrown E) Unit
  /-- the callbacks by position -/
  callback : ℕ → CallbackOutcome E
  /-- the warnings about failed callbacks, by position -/
  warn : ℕ → Except (Thrown E) Unit
  logRouteError : Except (Thrown E) Unit
  /-- `recordAuditRateRefusalBestEffort` -/
  rateRefusal : Option ℕ
  auditOrgWriteRateWindowMs : ℕ
  /-- `error instanceof Error ? error.message : String(error)` -/
  text : E → String

/-- `security.writeAuditEvent`: the flag or the event type of a configuration. -/
inductive WriteAuditEvent where
  | flag (on : Bool)
  | config (eventType : String)

inductive HttpMethod where
  | get | head | post | put | patch | delete | options
  deriving DecidableEq

def HttpMethod.name : HttpMethod → String
  | get => "GET"
  | head => "HEAD"
  | post => "POST"
  | put => "PUT"
  | patch => "PATCH"
  | delete => "DELETE"
  | options => "OPTIONS"

/-- `MUTATING_METHODS`. -/
def mutatingMethods : List HttpMethod := [.post, .put, .patch, .delete]

/-- A registered route with its resolved security. -/
structure RouteOptions where
  method : HttpMethod
  url : String
  requireAuth : Bool
  requireOrgScope : Bool
  writeAuditEvent : Option WriteAuditEvent
  includeDeletedProject : Bool
  /-- whether the URL has a `:projectId` segment -/
  hasProjectIdParam : Bool
  minimumProjectRole : Option OrgRole

/-- The event type of the audit event of a route, if it writes one. -/
def auditConfigFor (options : RouteOptions) : Option String :=
  match options.writeAuditEvent with
  | some (.flag false) => none
  | some (.flag true) => some (options.method.name ++ " " ++ options.url)
  | none =>
    if options.method ∈ mutatingMethods then some (options.method.name ++ " " ++ options.url)
    else none
  | some (.config eventType) => some eventType

section Pipeline

variable {W C V E : Type}

def emit (e : Event W C V E) : Step W C V E Unit :=
  modify fun s => { s with trace := s.trace ++ [e] }

/-- A step that ends as given. -/
def endsAs {α : Type} : Except (Thrown E) α → Step W C V E α
  | .ok a => pure a
  | .error e => throw e

def setPhase (phase : RequestPhase) : Step W C V E Unit := modify fun s => { s with phase }

/-- What `reply.send` throws behind the guard. -/
def sendRefused : Thrown E :=
  .error "SecureRoute: audited handlers must return data instead of sending replies"

/-- The reply goes out. -/
def State.answered (s : State W C V E) (a : Answer V E) : State W C V E :=
  { s with sent := some a, trace := s.trace ++ [.answer a] }

/-- `isReplySent`. -/
def isReplySent : Step W C V E Bool := do return (← get).sent.isSome

/-- `reply.send`, behind the guard if it is installed; a second answer is dropped. -/
def replySend (a : Answer V E) : Step W C V E Unit := do
  let s ← get
  if s.guarded then
    throw sendRefused
  else if s.sent.isNone then set (s.answered a)

/-- What a transaction or a handler hands back: data, or the reply itself. -/
inductive Returned (V : Type) where
  | data (v : V)
  | reply

def sendIfNeeded (result : Returned V) : Step W C V E Unit := do
  match result with
  | .reply => pure ()
  | .data v => if (← isReplySent) = false then replySend (.result v)

/-- The handler, with what `onPostCommit` does. -/
def Handler.run (register : C → Step W C V E Unit) : Handler W C V E → Step W C V E V
  | .returns v => pure v
  | .throws e => throw e
  | .write w next => do
      emit (.write w)
      next.run register
  | .onPostCommit c next => do
      register c
      next.run register
  | .send v next => do
      let failure ← tryCatch (do replySend (.result v); pure none) fun e => pure (some e)
      (next failure).run register

/-! ### Callbacks -/

/-- The callback raced against ten seconds. -/
def CallbackOutcome.race : CallbackOutcome E → Except (Thrown E) Unit
  | .settled afterMs result =>
    if afterMs < 10000 then result
    else .error (.error "SecureRoute post-commit callback timed out")
  | .pending => .error (.error "SecureRoute post-commit callback timed out")

def logPostCommitCallbackFailure (o : Outcomes E) (i : ℕ) : Step W C V E Unit :=
  tryCatch (endsAs (o.warn i)) fun _ => pure ()

def runPostCommitCallback (o : Outcomes E) (i : ℕ) (callback : C) : Step W C V E Unit := do
  emit (.callback callback)
  endsAs (o.callback i).race

/-- `forEachSequential`, from a position on; it stops at the first rejection. -/
def forEachSequential (fn : ℕ → C → Step W C V E Unit) : ℕ → List C → Step W C V E Unit
  | _, [] => pure ()
  | start, item :: items => do
      fn start item
      forEachSequential fn (start + 1) items

def runPostCommitCallbacks (o : Outcomes E) (callbacks : List C) : Step W C V E Unit :=
  forEachSequential
    (fun i callback => tryCatch (runPostCommitCallback o i callback) fun _ =>
      logPostCommitCallbackFailure o i) 0 callbacks

/-! ### The transaction -/

/-- `db.transaction`: it commits if the body resolves and the commit succeeds. -/
def transaction {α : Type} (o : Outcomes E) (body : Step W C V E α) : Step W C V E α := do
  endsAs o.begins
  emit .begin
  let result ← tryCatch body fun e => do
    emit .rollback
    throw e
  match o.commits with
  | .ok _ => emit .commit
  | .error e =>
    emit .rollback
    throw e
  return result

def deletedProjectNotFound : ErrorReply := ⟨404, "project_not_found", "Project not found", none, by decide⟩

def insufficientProjectRole : ErrorReply :=
  ⟨403, "insufficient_project_role", "Your role in this project does not permit this action", none,
    by decide⟩

def rejectIfProjectDeleted (options : RouteOptions) (o : Outcomes E) : Step W C V E Bool := do
  if options.includeDeletedProject = true ∨ options.hasProjectIdParam = false then return false
  else if (← endsAs o.isProjectDeleted) = false then return false
  else
    replySend (.error deletedProjectNotFound)
    return true

def rejectIfBelowProjectRole (minimumProjectRole : OrgRole) (o : Outcomes E) :
    Step W C V E Bool := do
  let effectiveRole ← endsAs o.effectiveProjectRole
  if roleRank minimumProjectRole ≤ roleRank effectiveRole then return false
  else
    endsAs o.logDenied
    replySend (.error insufficientProjectRole)
    return true

/-- The role gate, where the route has one. -/
def belowProjectRole (options : RouteOptions) (o : Outcomes E) : Step W C V E Bool :=
  match options.minimumProjectRole with
  | none => pure false
  | some minimumProjectRole => rejectIfBelowProjectRole minimumProjectRole o

/-- The role gate of a route without org scope, in a transaction of its own. -/
def rejectUnscopedBelowProjectRole (options : RouteOptions) (o : Outcomes E) :
    Step W C V E Bool :=
  match options.minimumProjectRole with
  | none => pure false
  | some minimumProjectRole => transaction o do
      setPhase .rls
      endsAs o.setRlsOrgContext
      setPhase .handler
      rejectIfBelowProjectRole minimumProjectRole o

/-- The handler between the installation and the removal of the send guard. -/
def withAuditSendGuard (enabled : Bool) (handler : Step W C V E V) : Step W C V E V := do
  modify fun s => { s with guarded := enabled }
  let result ← tryCatch handler fun e => do
    modify fun s => { s with guarded := false }
    throw e
  modify fun s => { s with guarded := false }
  return result

/-- A failure of the audit writer, with the code it carries. -/
def rethrownAuditError (o : Outcomes E) : Thrown E → Thrown E
  | .sameTransaction message code => .sameTransaction message code
  | .auditWrite message => .auditWrite message
  | .error message => .auditWrite message
  | .other e => .auditWrite (o.text e)

def runAuditWriter (options : RouteOptions) (o : Outcomes E) : Step W C V E Unit :=
  match auditConfigFor options with
  | none => pure ()
  | some _ => do
      setPhase .audit
      emit .audit
      tryCatch (endsAs o.auditWriter) fun e => throw (rethrownAuditError o e)

/-- `onPostCommit`. -/
def onPostCommit (callback : C) : Step W C V E Unit :=
  modify fun s => { s with postCommitCallbacks := s.postCommitCallbacks ++ [callback] }

/-- What `db.transaction` runs. -/
def transactionBody (options : RouteOptions) (handler : Handler W C V E) (o : Outcomes E) :
    Step W C V E (Returned V) := do
  setPhase .rls
  endsAs o.setRlsOrgContext
  setPhase .handler
  if ← rejectIfProjectDeleted options o then return .reply
  else if ← belowProjectRole options o then return .reply
  else
    let handlerResult ← withAuditSendGuard (auditConfigFor options).isSome (handler.run onPostCommit)
    runAuditWriter options o
    return .data handlerResult

/-- The result and the callbacks to run. -/
def runProtectedHandler (options : RouteOptions) (handler : Handler W C V E) (o : Outcomes E) :
    Step W C V E (Returned V × List C) := do
  if options.requireOrgScope = false then
    if ← rejectUnscopedBelowProjectRole options o then return (.reply, [])
    else return (.data (← handler.run fun _ => pure ()), [])
  else
    let result ← transaction o (transactionBody options handler o)
    return (result, (← get).postCommitCallbacks)

/-! ### The request -/

def rlsUnavailable : ErrorReply :=
  ⟨503, "service_unavailable", "Database security context unavailable", none, by decide⟩

def auditQuotaExhausted : ErrorReply :=
  ⟨503, "audit_quota_exhausted", "Audit storage quota exhausted for this organization", none,
    by decide⟩

def auditRateLimited (o : Outcomes E) : ErrorReply :=
  ⟨429, "audit_rate_limited", "Audit write rate limit exceeded for this organization",
    some (o.rateRefusal.getD ((o.auditOrgWriteRateWindowMs + 999) / 1000)), by decide⟩

def auditGateUnavailable : ErrorReply :=
  ⟨503, "audit_gate_unavailable", "Audit quota gate is unavailable", none, by decide⟩

def auditWriteFailed : ErrorReply :=
  ⟨503, "audit_write_failed", "Audit logging is unavailable", none, by decide⟩

/-- The reply to a failure, unless it is left to the application. -/
def failureReply (o : Outcomes E) (phase : RequestPhase) : Thrown E → Option ErrorReply
  | .sameTransaction _ (some .quotaExhausted) => some auditQuotaExhausted
  | .sameTransaction _ (some .rateLimited) => some (auditRateLimited o)
  | .sameTransaction _ (some .gateUnavailable) => some auditGateUnavailable
  | .sameTransaction _ none => some auditWriteFailed
  | .auditWrite _ => some auditWriteFailed
  | .error _ => if phase = .audit then some auditWriteFailed else none
  | .other _ => if phase = .audit then some auditWriteFailed else none

def sendSecureRouteFailure (o : Outcomes E) (error : Thrown E) : Step W C V E Unit := do
  let s ← get
  if s.sent.isSome then
    throw (.error "SecureRoute: handler sent a response before audit completed")
  else
    match if s.phase = .rls then some rlsUnavailable else failureReply o s.phase error with
    | some reply =>
      endsAs o.logRouteError
      replySend (.error reply)
    | none => throw error

def handleSecureRouteRequest (options : RouteOptions) (handler : Handler W C V E)
    (o : Outcomes E) : Step W C V E Unit := do
  match ← endsAs o.guards with
  | some reply => replySend (.error reply)
  | none =>
    if options.requireAuth = false then
      sendIfNeeded (.data (← handler.run fun _ => pure ()))
    else
      tryCatch
        (do
          let outcome ← runProtectedHandler options handler o
          runPostCommitCallbacks o outcome.2
          sendIfNeeded outcome.1)
        (sendSecureRouteFailure o)

/-- A request as it comes in. -/
def State.start : State W C V E := ⟨none, false, .handler, [], []⟩

/-- A request to its end: where the route rejects, the application answers if nobody has. -/
def serve (options : RouteOptions) (handler : Handler W C V E) (o : Outcomes E) :
    State W C V E :=
  match (handleSecureRouteRequest options handler o).run .start with
  | .ok _ s => s
  | .error e s =>
    if s.sent.isSome then s else s.answered (.rejected e)

end Pipeline

/-! ### Traces -/

section Traces

variable {W C V E : Type}

/-- What the transactions of a trace commit, with the steps of the one under way. -/
def committedFrom (pending : List (Event W C V E)) : List (Event W C V E) → List (Event W C V E)
  | [] => []
  | .commit :: trace => pending ++ committedFrom [] trace
  | .rollback :: trace => committedFrom [] trace
  | .write w :: trace => committedFrom (pending ++ [.write w]) trace
  | .audit :: trace => committedFrom (pending ++ [.audit]) trace
  | .begin :: trace => committedFrom [] trace
  | .callback _ :: trace => committedFrom pending trace
  | .answer _ :: trace => committedFrom pending trace

/-- The writes and audit calls a trace makes durable. -/
def committed (trace : List (Event W C V E)) : List (Event W C V E) := committedFrom [] trace

/-- The answers of a trace. -/
def answers (trace : List (Event W C V E)) : List (Answer V E) :=
  trace.filterMap fun e => match e with
    | .answer a => some a
    | _ => none

/-- The callbacks a trace runs. -/
def callbacksRun (trace : List (Event W C V E)) : List C :=
  trace.filterMap fun e => match e with
    | .callback c => some c
    | _ => none

/-- An answer that is no result. -/
def Answer.IsError : Answer V E → Prop
  | .result _ => False
  | .error reply => 400 ≤ reply.status
  | .rejected _ => True

/-- What a handler does behind the send guard: the writes it makes, the callbacks it registers, and
how it settles. -/
structure Effects (W C V E : Type) where
  writes : List W
  callbacks : List C
  outcome : Except (Thrown E) V

def Handler.effects : Handler W C V E → Effects W C V E
  | .returns v => ⟨[], [], .ok v⟩
  | .throws e => ⟨[], [], .error e⟩
  | .write w next => ⟨w :: next.effects.writes, next.effects.callbacks, next.effects.outcome⟩
  | .onPostCommit c next =>
    ⟨next.effects.writes, c :: next.effects.callbacks, next.effects.outcome⟩
  | .send _ next => (next (some sendRefused)).effects

end Traces

/-! ### The steps of a request -/

section Steps

variable {W C V E : Type} {options : RouteOptions} {o : Outcomes E} {s : State W C V E}

@[simp] lemma run_throw {α : Type} (e : Thrown E) (s : State W C V E) :
    (throw e : Step W C V E α).run s = .error e s := rfl

@[simp] lemma run_tryCatch {α : Type} (x : Step W C V E α) (f : Thrown E → Step W C V E α)
    (s : State W C V E) : (tryCatch x f).run s = match x.run s with
      | .ok a s' => .ok a s'
      | .error e s' => (f e).run s' := by
  show EStateM.tryCatch x f s = _
  rw [EStateM.tryCatch, EStateM.run]
  cases x s <;> rfl

@[simp] lemma run_emit (e : Event W C V E) (s : State W C V E) :
    (emit e).run s = .ok () { s with trace := s.trace ++ [e] } := rfl

@[simp] lemma run_setPhase (phase : RequestPhase) (s : State W C V E) :
    (setPhase phase).run s = .ok () { s with phase } := rfl

@[simp] lemma run_isReplySent (s : State W C V E) :
    (isReplySent : Step W C V E Bool).run s = .ok s.sent.isSome s := rfl

@[simp] lemma run_endsAs_ok {α : Type} (a : α) (s : State W C V E) :
    (endsAs (.ok a)).run s = .ok a s := rfl

@[simp] lemma run_endsAs_error {α : Type} (e : Thrown E) (s : State W C V E) :
    (endsAs (.error e) : Step W C V E α).run s = .error e s := rfl

lemma run_replySend_guarded (a : Answer V E) {s : State W C V E} (hs : s.guarded = true) :
    (replySend a).run s = .error sendRefused s := by
  simp [replySend, hs]

lemma run_replySend (a : Answer V E) {s : State W C V E} (hs : s.guarded = false)
    (hsent : s.sent = none) : (replySend a).run s = .ok () (s.answered a) := by
  simp [replySend, hs, hsent]

/-- A request after the effects of its handler. -/
def State.after (s : State W C V E) (effects : Effects W C V E) : State W C V E :=
  { s with
    postCommitCallbacks := s.postCommitCallbacks ++ effects.callbacks
    trace := s.trace ++ effects.writes.map .write }

/-- A step that ends as a handler does. -/
def Effects.settle (effects : Effects W C V E) (s : State W C V E) :
    EStateM.Result (Thrown E) (State W C V E) V :=
  match effects.outcome with
  | .ok v => .ok v s
  | .error e => .error e s

/-- Behind the guard a handler writes and registers, and sends nothing. -/
lemma run_guarded (handler : Handler W C V E) (s : State W C V E) (hs : s.guarded = true) :
    (handler.run onPostCommit).run s = handler.effects.settle (s.after handler.effects) := by
  induction handler generalizing s with
  | returns v => simp [Handler.run, Handler.effects, Effects.settle, State.after]
  | throws e => simp [Handler.run, Handler.effects, Effects.settle, State.after]
  | write w next ih =>
    rw [Handler.run, EStateM.run_bind, run_emit]
    dsimp only
    rw [ih { s with trace := s.trace ++ [.write w] } hs]
    simp [Handler.effects, Effects.settle, State.after]
  | onPostCommit c next ih =>
    rw [Handler.run, EStateM.run_bind, onPostCommit, EStateM.run_modify]
    dsimp only
    rw [ih { s with postCommitCallbacks := s.postCommitCallbacks ++ [c] } hs]
    simp [Handler.effects, Effects.settle, State.after]
  | send v next ih =>
    rw [Handler.run, EStateM.run_bind, run_tryCatch, EStateM.run_bind, run_replySend_guarded _ hs]
    exact ih _ s hs

/-- The callbacks run once each, in order, whatever becomes of them. -/
lemma run_runPostCommitCallbacks (o : Outcomes E) (callbacks : List C) (s : State W C V E) :
    (runPostCommitCallbacks o callbacks).run s =
      .ok () { s with trace := s.trace ++ callbacks.map .callback } := by
  have hone : ∀ i c (s : State W C V E), (tryCatch (runPostCommitCallback o i c) fun _ =>
      logPostCommitCallbackFailure o i).run s =
      .ok () { s with trace := s.trace ++ [.callback c] } := by
    intro i c s
    rw [run_tryCatch, runPostCommitCallback, EStateM.run_bind, run_emit]
    dsimp only
    cases (o.callback i).race with
    | ok a => rfl
    | error e =>
      rw [run_endsAs_error]
      dsimp only
      rw [logPostCommitCallbackFailure, run_tryCatch]
      cases o.warn i <;> rfl
  rw [runPostCommitCallbacks]
  generalize 0 = start
  induction callbacks generalizing s start with
  | nil => simp [forEachSequential]
  | cons c callbacks ih =>
    rw [forEachSequential, EStateM.run_bind, hone]
    dsimp only
    rw [ih]
    simp

/-! ### Gates -/

/-- A gate passes, answers an error or throws. -/
def GateEnd (s : State W C V E) (r : EStateM.Result (Thrown E) (State W C V E) Bool) : Prop :=
  r = .ok false s ∨ (∃ reply, r = .ok true (s.answered (.error reply))) ∨ ∃ e, r = .error e s

lemma run_rejectIfProjectDeleted (options : RouteOptions) (o : Outcomes E) {s : State W C V E}
    (hs : s.guarded = false) (hsent : s.sent = none) :
    GateEnd s ((rejectIfProjectDeleted options o).run s) := by
  rw [rejectIfProjectDeleted]
  split_ifs
  · exact .inl rfl
  · rw [EStateM.run_bind]
    cases o.isProjectDeleted with
    | error e => exact .inr (.inr ⟨e, rfl⟩)
    | ok deleted =>
      cases deleted with
      | false => exact .inl rfl
      | true =>
        refine .inr (.inl ⟨deletedProjectNotFound, ?_⟩)
        rw [run_endsAs_ok]
        dsimp only
        rw [if_neg (by decide), EStateM.run_bind, run_replySend _ hs hsent]
        rfl

lemma run_belowProjectRole (options : RouteOptions) (o : Outcomes E) {s : State W C V E}
    (hs : s.guarded = false) (hsent : s.sent = none) :
    GateEnd s ((belowProjectRole options o).run s) := by
  rw [belowProjectRole]
  cases options.minimumProjectRole with
  | none => exact .inl rfl
  | some minimumProjectRole =>
    dsimp only
    rw [rejectIfBelowProjectRole, EStateM.run_bind]
    cases o.effectiveProjectRole with
    | error e => exact .inr (.inr ⟨e, rfl⟩)
    | ok effectiveRole =>
      rw [run_endsAs_ok]
      dsimp only
      split_ifs
      · exact .inl rfl
      · rw [EStateM.run_bind]
        cases o.logDenied with
        | error e => exact .inr (.inr ⟨e, rfl⟩)
        | ok a =>
          refine .inr (.inl ⟨insufficientProjectRole, ?_⟩)
          rw [run_endsAs_ok]
          dsimp only
          rw [EStateM.run_bind, run_replySend _ hs hsent]
          rfl

/-! ### The transaction -/

/-- A write or an audit call. -/
def Event.Pending : Event W C V E → Prop
  | .write _ => True
  | .audit => True
  | _ => False

/-- How the transaction of an audited route ends before its commit: with a result behind one call
of the audit writer, with an error reply of a gate, or with an error nobody has answered. -/
inductive BodyEnd (handler : Handler W C V E) (s : State W C V E) :
    EStateM.Result (Thrown E) (State W C V E) (Returned V) → Prop where
  | data {v : V} {s' : State W C V E} (houtcome : handler.effects.outcome = .ok v)
      (hsent : s'.sent = none) (hguarded : s'.guarded = false)
      (hcallbacks : s'.postCommitCallbacks = s.postCommitCallbacks ++ handler.effects.callbacks)
      (htrace : s'.trace = s.trace ++ (handler.effects.writes.map .write ++ [.audit])) :
      BodyEnd handler s (.ok (.data v) s')
  | reply {s' : State W C V E} (reply : ErrorReply) (hsent : s'.sent = some (.error reply))
      (hcallbacks : s'.postCommitCallbacks = s.postCommitCallbacks)
      (htrace : s'.trace = s.trace ++ [.answer (.error reply)]) :
      BodyEnd handler s (.ok .reply s')
  | error {e : Thrown E} {s' : State W C V E} (steps : List (Event W C V E))
      (hsent : s'.sent = none) (hguarded : s'.guarded = false)
      (htrace : s'.trace = s.trace ++ steps) (hpending : ∀ x ∈ steps, x.Pending) :
      BodyEnd handler s (.error e s')

lemma run_withAuditSendGuard (handler : Handler W C V E) (s : State W C V E) :
    (withAuditSendGuard true (handler.run onPostCommit)).run s =
      handler.effects.settle { s.after handler.effects with guarded := false } := by
  rw [withAuditSendGuard, EStateM.run_bind, EStateM.run_modify]
  dsimp only
  rw [EStateM.run_bind, run_tryCatch, run_guarded _ _ rfl, Effects.settle, Effects.settle]
  cases handler.effects.outcome <;> rfl

/-- An audited route calls the audit writer once. -/
lemma run_runAuditWriter (haudit : (auditConfigFor options).isSome = true) (o : Outcomes E)
    (s : State W C V E) :
    (runAuditWriter options o).run s =
      match o.auditWriter with
      | .ok _ => .ok () { s with phase := .audit, trace := s.trace ++ [.audit] }
      | .error e => .error (rethrownAuditError o e)
          { s with phase := .audit, trace := s.trace ++ [.audit] } := by
  obtain ⟨eventType, hconfig⟩ := Option.isSome_iff_exists.1 haudit
  rw [runAuditWriter, hconfig]
  dsimp only
  rw [EStateM.run_bind, run_setPhase]
  dsimp only
  rw [EStateM.run_bind, run_emit]
  dsimp only
  rw [run_tryCatch]
  cases o.auditWriter <;> rfl

lemma transactionBody_end (haudit : (auditConfigFor options).isSome = true)
    (handler : Handler W C V E) (o : Outcomes E) {s : State W C V E} (hs : s.guarded = false)
    (hsent : s.sent = none) :
    BodyEnd handler s ((transactionBody options handler o).run s) := by
  have hnil : ∀ e : Thrown E, ∀ phase, BodyEnd handler s (.error e { s with phase }) :=
    fun e phase => .error [] hsent hs (List.append_nil _).symm (by simp)
  rw [transactionBody, EStateM.run_bind, run_setPhase]
  dsimp only
  rw [EStateM.run_bind]
  cases o.setRlsOrgContext with
  | error e => exact hnil e .rls
  | ok a =>
    rw [run_endsAs_ok]
    dsimp only
    rw [EStateM.run_bind, run_setPhase]
    dsimp only
    rw [EStateM.run_bind]
    rcases run_rejectIfProjectDeleted options o (s := { s with phase := .handler }) hs hsent with
      hgate | ⟨reply, hgate⟩ | ⟨e, hgate⟩
    · rw [hgate]
      dsimp only
      rw [if_neg (by decide), EStateM.run_bind]
      rcases run_belowProjectRole options o (s := { s with phase := .handler }) hs hsent with
        hgate | ⟨reply, hgate⟩ | ⟨e, hgate⟩
      · rw [hgate]
        dsimp only
        rw [if_neg (by decide), EStateM.run_bind, haudit, run_withAuditSendGuard, Effects.settle]
        cases hout : handler.effects.outcome with
        | error e =>
          exact .error (handler.effects.writes.map .write) hsent rfl rfl
            (by simp [Event.Pending])
        | ok v =>
          dsimp only
          rw [EStateM.run_bind, run_runAuditWriter haudit]
          cases o.auditWriter with
          | error e =>
            refine .error (handler.effects.writes.map .write ++ [.audit]) hsent rfl
              (by simp [State.after]) (by simp [Event.Pending, or_imp, forall_and])
          | ok a => exact .data hout hsent rfl rfl (by simp [State.after])
      · rw [hgate]
        exact .reply reply rfl rfl rfl
      · rw [hgate]
        exact hnil e .handler
    · rw [hgate]
      exact .reply reply rfl rfl rfl
    · rw [hgate]
      exact hnil e .handler

/-- How a transaction of an audited route ends: it commits a result behind one call of the audit
writer, or a gate has answered an error, or it fails and nobody has answered. -/
inductive TransactionEnd (handler : Handler W C V E) :
    EStateM.Result (Thrown E) (State W C V E) (Returned V) → Prop where
  | committed {v : V} {s : State W C V E} (houtcome : handler.effects.outcome = .ok v)
      (hsent : s.sent = none) (hguarded : s.guarded = false)
      (hcallbacks : s.postCommitCallbacks = handler.effects.callbacks)
      (htrace : s.trace = .begin :: handler.effects.writes.map .write ++ [.audit, .commit]) :
      TransactionEnd handler (.ok (.data v) s)
  | replied {s : State W C V E} (reply : ErrorReply) (hsent : s.sent = some (.error reply))
      (hcallbacks : s.postCommitCallbacks = [])
      (htrace : s.trace = [.begin, .answer (.error reply), .commit]) :
      TransactionEnd handler (.ok .reply s)
  | refused {e : Thrown E} {s : State W C V E} (reply : ErrorReply)
      (hsent : s.sent = some (.error reply))
      (htrace : s.trace = [.begin, .answer (.error reply), .rollback]) :
      TransactionEnd handler (.error e s)
  | failed {e : Thrown E} {s : State W C V E} (hsent : s.sent = none) (hguarded : s.guarded = false)
      (htrace : s.trace = [] ∨
        ∃ steps, (∀ x ∈ steps, x.Pending) ∧ s.trace = .begin :: steps ++ [.rollback]) :
      TransactionEnd handler (.error e s)

lemma transaction_end (haudit : (auditConfigFor options).isSome = true)
    (handler : Handler W C V E) (o : Outcomes E) :
    TransactionEnd handler ((transaction o (transactionBody options handler o)).run .start) := by
  rw [transaction, EStateM.run_bind]
  cases o.begins with
  | error e => exact .failed rfl rfl (.inl rfl)
  | ok a =>
    rw [run_endsAs_ok]
    dsimp only
    rw [EStateM.run_bind, run_emit]
    dsimp only
    rw [EStateM.run_bind, run_tryCatch]
    have hend := transactionBody_end haudit handler o
      (s := { (State.start : State W C V E) with trace := State.start.trace ++ [.begin] }) rfl rfl
    generalize (transactionBody options handler o).run
      { (State.start : State W C V E) with trace := State.start.trace ++ [.begin] } = r at hend
    cases hend with
    | data houtcome hsent hguarded hcallbacks htrace =>
      cases o.commits with
      | ok a =>
        exact .committed houtcome hsent hguarded hcallbacks (by simp [htrace, State.start])
      | error e =>
        exact .failed hsent hguarded (.inr
          ⟨handler.effects.writes.map .write ++ [.audit],
            by simp [Event.Pending, or_imp, forall_and], by simp [htrace, State.start]⟩)
    | reply reply hsent hcallbacks htrace =>
      cases o.commits with
      | ok a => exact .replied reply hsent hcallbacks (by simp [htrace, State.start])
      | error e => exact .refused reply hsent (by simp [htrace, State.start])
    | error steps hsent hguarded htrace hpending =>
      exact .failed hsent hguarded (.inr ⟨steps, hpending, by simp [htrace, State.start]⟩)

/-! ### The request -/

lemma run_sendSecureRouteFailure (o : Outcomes E) (error : Thrown E) {s : State W C V E}
    (hs : s.guarded = false) (hsent : s.sent = none) :
    (∃ reply, (sendSecureRouteFailure o error).run s = .ok () (s.answered (.error reply))) ∨
      ∃ e, (sendSecureRouteFailure o error).run s = .error e s := by
  rw [sendSecureRouteFailure, EStateM.run_bind, EStateM.run_get]
  dsimp only
  rw [if_neg (by simp [hsent])]
  generalize (if s.phase = .rls then some rlsUnavailable else failureReply o s.phase error) = reply
  cases reply with
  | none => exact .inr ⟨error, rfl⟩
  | some reply =>
    dsimp only
    rw [EStateM.run_bind]
    cases o.logRouteError with
    | error e => exact .inr ⟨e, rfl⟩
    | ok a => exact .inl ⟨reply, run_replySend _ hs hsent⟩

/-- Once an answer is out a failure adds none. -/
lemma run_sendSecureRouteFailure_sent (o : Outcomes E) (error : Thrown E) {s : State W C V E}
    (hsent : s.sent.isSome = true) :
    ∃ e, (sendSecureRouteFailure o error).run s = .error e s := by
  rw [sendSecureRouteFailure, EStateM.run_bind, EStateM.run_get]
  dsimp only
  rw [if_pos hsent]
  exact ⟨_, rfl⟩

lemma run_sendIfNeeded_data (v : V) {s : State W C V E} (hs : s.guarded = false)
    (hsent : s.sent = none) :
    (sendIfNeeded (.data v)).run s = .ok () (s.answered (.result v)) := by
  rw [sendIfNeeded, EStateM.run_bind, run_isReplySent]
  dsimp only
  rw [if_pos (by simp [hsent]), run_replySend _ hs hsent]

/-- A request behind the guards of its route: the callbacks run whatever becomes of them, and only
then is the result sent. -/
lemma run_handleSecureRouteRequest (hauth : options.requireAuth = true) (handler : Handler W C V E)
    (o : Outcomes E) :
    (handleSecureRouteRequest options handler o).run .start =
      match o.guards with
      | .error e => .error e .start
      | .ok (some reply) => .ok () (State.start.answered (.error reply))
      | .ok none =>
        match (runProtectedHandler options handler o).run .start with
        | .error e s => (sendSecureRouteFailure o e).run s
        | .ok outcome s =>
          match (sendIfNeeded outcome.1).run
            { s with trace := s.trace ++ outcome.2.map .callback } with
          | .ok a s => .ok a s
          | .error e s => (sendSecureRouteFailure o e).run s := by
  rw [handleSecureRouteRequest, EStateM.run_bind]
  cases o.guards with
  | error e => rfl
  | ok refusal =>
    rw [run_endsAs_ok]
    cases refusal with
    | some reply => exact run_replySend _ rfl rfl
    | none =>
      dsimp only
      rw [if_neg (by simp [hauth]), run_tryCatch, EStateM.run_bind]
      cases (runProtectedHandler options handler o).run .start with
      | error e s => rfl
      | ok outcome s =>
        dsimp only
        rw [EStateM.run_bind, run_runPostCommitCallbacks]
        dsimp only
        cases (sendIfNeeded outcome.1).run
          { s with trace := s.trace ++ outcome.2.map .callback } <;> rfl

/-! ### Refusals -/

/-- A trace that commits nothing, runs no callback and answers one error. -/
def Refused (trace : List (Event W C V E)) : Prop :=
  committed trace = [] ∧ callbacksRun trace = [] ∧ ∃ a, answers trace = [a] ∧ a.IsError

lemma committedFrom_append (pending steps rest : List (Event W C V E))
    (h : ∀ x ∈ steps, x.Pending) :
    committedFrom pending (steps ++ rest) = committedFrom (pending ++ steps) rest := by
  induction steps generalizing pending with
  | nil => simp
  | cons x steps ih =>
    obtain ⟨hx, hsteps⟩ := List.forall_mem_cons.1 h
    have hcons : pending ++ x :: steps = (pending ++ [x]) ++ steps := by simp
    rw [hcons, ← ih _ hsteps]
    cases x with
    | write w => rfl
    | audit => rfl
    | begin => exact hx.elim
    | commit => exact hx.elim
    | rollback => exact hx.elim
    | callback c => exact hx.elim
    | answer a => exact hx.elim

lemma filterMap_pending {α : Type} {f : Event W C V E → Option α} {steps : List (Event W C V E)}
    (h : ∀ x ∈ steps, x.Pending) (hwrite : ∀ w, f (.write w) = none) (haudit : f .audit = none) :
    steps.filterMap f = [] := by
  rw [List.filterMap_eq_nil_iff]
  intro x hx
  have hpending := h x hx
  cases x with
  | write w => exact hwrite w
  | audit => exact haudit
  | begin => exact hpending.elim
  | commit => exact hpending.elim
  | rollback => exact hpending.elim
  | callback c => exact hpending.elim
  | answer a => exact hpending.elim

/-- An error answered behind a transaction that failed, or behind none. -/
lemma refused_of_failed {trace : List (Event W C V E)} {a : Answer V E} (ha : a.IsError)
    (htrace : trace = [] ∨ ∃ steps, (∀ x ∈ steps, x.Pending) ∧
      trace = .begin :: steps ++ [.rollback]) : Refused (trace ++ [.answer a]) := by
  obtain rfl | ⟨steps, hpending, rfl⟩ := htrace
  · exact ⟨rfl, rfl, a, rfl, ha⟩
  · refine ⟨?_, ?_, a, ?_, ha⟩
    · rw [committed, List.append_assoc, List.cons_append, committedFrom,
        committedFrom_append _ _ _ hpending]
      rfl
    · rw [callbacksRun, List.filterMap_append, List.filterMap_append, List.filterMap_cons,
        filterMap_pending hpending (fun _ => rfl) rfl]
      rfl
    · rw [answers, List.filterMap_append, List.filterMap_append, List.filterMap_cons,
        filterMap_pending hpending (fun _ => rfl) rfl]
      rfl

/-- How callbacks and the warnings about them end is read by the callbacks alone. -/
lemma serve_callback (hauth : options.requireAuth = true) (handler : Handler W C V E)
    (o : Outcomes E) (callback : ℕ → CallbackOutcome E) (warn : ℕ → Except (Thrown E) Unit) :
    serve options handler { o with callback, warn } = serve options handler o := by
  rw [serve, serve, run_handleSecureRouteRequest hauth, run_handleSecureRouteRequest hauth]
  rfl

/-- An audited route answers the result of its handler behind a commit of the writes of the handler
and one call of the audit writer, and then has run every callback once and in order; or it commits
nothing, runs no callback and answers an error. How callbacks fare changes nothing. -/
theorem auditedRoute_atomic (options : RouteOptions)
    (haudit : (auditConfigFor options).isSome = true) (hauth : options.requireAuth = true)
    (hscope : options.requireOrgScope = true) (handler : Handler W C V E) (o : Outcomes E) :
    ((∃ v, handler.effects.outcome = .ok v ∧ (serve options handler o).trace =
        .begin :: handler.effects.writes.map .write ++ [.audit, .commit] ++
          handler.effects.callbacks.map .callback ++ [.answer (.result v)]) ∨
      Refused (serve options handler o).trace) ∧
      ∀ callback warn, serve options handler { o with callback, warn } =
        serve options handler o := by
  refine ⟨?_, serve_callback hauth handler o⟩
  have hend := transaction_end haudit handler o
  rw [serve, run_handleSecureRouteRequest hauth]
  cases o.guards with
  | error e => exact .inr (refused_of_failed (a := .rejected e) trivial (.inl rfl))
  | ok refusal =>
    cases refusal with
    | some reply => exact .inr (refused_of_failed (a := .error reply) reply.isError (.inl rfl))
    | none =>
      dsimp only
      rw [runProtectedHandler, if_neg (by simp [hscope]), EStateM.run_bind]
      generalize (transaction o (transactionBody options handler o)).run .start = r at hend
      cases hend with
      | @committed v s houtcome hsent hguarded hcallbacks htrace =>
        dsimp only
        rw [EStateM.run_bind, EStateM.run_get]
        dsimp only
        rw [EStateM.run_pure]
        dsimp only
        rw [run_sendIfNeeded_data v (s := { s with
          trace := s.trace ++ s.postCommitCallbacks.map .callback }) hguarded hsent]
        refine .inl ⟨v, houtcome, ?_⟩
        show s.trace ++ s.postCommitCallbacks.map .callback ++ [.answer (.result v)] = _
        rw [htrace, hcallbacks]
      | @replied s reply hsent hcallbacks htrace =>
        dsimp only
        rw [EStateM.run_bind, EStateM.run_get]
        dsimp only
        rw [EStateM.run_pure]
        refine .inr ?_
        show Refused (s.trace ++ s.postCommitCallbacks.map .callback)
        rw [htrace, hcallbacks]
        exact ⟨rfl, rfl, .error reply, rfl, reply.isError⟩
      | @refused e s reply hsent htrace =>
        dsimp only
        obtain ⟨e', he⟩ := run_sendSecureRouteFailure_sent o e (s := s) (by simp [hsent])
        rw [he]
        dsimp only
        rw [if_pos (by simp [hsent]), htrace]
        exact .inr ⟨rfl, rfl, .error reply, rfl, reply.isError⟩
      | @failed e s hsent hguarded htrace =>
        dsimp only
        obtain ⟨reply, hr⟩ | ⟨e', he⟩ := run_sendSecureRouteFailure o e hguarded hsent
        · rw [hr]
          exact .inr (refused_of_failed (a := .error reply) reply.isError htrace)
        · rw [he]
          dsimp only
          rw [if_neg (by simp [hsent])]
          exact .inr (refused_of_failed (a := .rejected e') trivial htrace)

end Steps

/-- A project write for members. -/
def createNote : RouteOptions where
  method := .post
  url := "/api/v1/projects/:projectId/notes"
  requireAuth := true
  requireOrgScope := true
  writeAuditEvent := none
  includeDeletedProject := false
  hasProjectIdParam := true
  minimumProjectRole := some .member

/-- A handler that writes, tries to send, and registers two callbacks. -/
def createNoteHandler : Handler String ℕ String Unit :=
  .write "note" (.onPostCommit 1 (.send "early" fun _ => .onPostCommit 2 (.returns "created")))

/-- Everything succeeds but the first callback, which hangs, and the warning about it. -/
def hangingCallback : Outcomes Unit where
  guards := .ok none
  begins := .ok ()
  setRlsOrgContext := .ok ()
  isProjectDeleted := .ok false
  effectiveProjectRole := .ok .admin
  logDenied := .ok ()
  auditWriter := .ok ()
  commits := .ok ()
  callback i := if i = 0 then .pending else .settled 5 (.ok ())
  warn _ := .error (.error "logger unavailable")
  logRouteError := .ok ()
  rateRefusal := none
  auditOrgWriteRateWindowMs := 60000
  text _ := "error"

/-- The note is committed with its audit call, both callbacks run, and the client gets the result. -/
theorem auditedRoute_atomic_createNote :
    (serve createNote createNoteHandler hangingCallback).trace =
      [.begin, .write "note", .audit, .commit, .callback 1, .callback 2,
        .answer (.result "created")] := by
  obtain ⟨v, houtcome, htrace⟩ | ⟨hcommitted, -⟩ :=
    (auditedRoute_atomic createNote (by decide) rfl rfl createNoteHandler hangingCallback).1
  · rw [htrace, ← Except.ok.inj houtcome]
    rfl
  · exact absurd hcommitted (by decide)

end SecureRoute
