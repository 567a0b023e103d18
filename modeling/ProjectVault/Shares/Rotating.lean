import ProjectVault.Rotation.Service
import ProjectVault.Shares.History

/-!
Shares of a credential while it is rotated (`rotation/routes.ts`, `credential-shares/service.ts`),
statement by statement.

A creation inserts any active row, whatever its checks have let through. Other transactions on the
store of the credentials come between the handlers.
-/

namespace ProjectVault.Shares.Rotating

open Js

/-! ### State -/

/-- An open transaction. -/
inductive Tx where
  /-- a creation, with the row it has inserted -/
  | created (row : CredentialShare)
  /-- a reveal before its claim, with the row and the value it has read -/
  | read (share : CredentialShare) (bounded : SerializeBoundedResult)
  /-- an update of one row has been made, by a reveal with the value it shows -/
  | updated (id : ℕ) (edit : ShareEdit) (shown : Option SerializeBoundedResult)
  /-- the promote handler behind `promoteRotation`, with the store that leaves -/
  | promoted (params : RotationParams) (rotation : Rotation) (vault : Store)
  /-- the promote handler in or behind its update of the shares -/
  | superseding (scope : SupersedeParams) (vault : Store) (now : ℕ) (todo done : List ℕ)
  /-- the break-glass handler behind `breakGlassRotation` -/
  | broken (scope : SupersedeParams) (vault : Store)
  deriving DecidableEq

/-- What has been committed: a new version of the credential, or a reveal that shows a value. -/
inductive Entry where
  | rotated (scope : SupersedeParams) (before after : List CredentialShare)
      (vaultBefore vaultAfter : Store)
  | revealed (shareId : ℕ) (bounded : SerializeBoundedResult)
  deriving DecidableEq

structure State where
  vault : Store
  shares : List CredentialShare
  nextId : ℕ
  clock : ℕ
  txs : ℕ → Option Tx
  /-- the row locks, by share -/
  rowLocks : ℕ → Option ℕ
  /-- the advisory lock of the rotations of the credential -/
  rotationLock : Option ℕ
  /-- the newest first -/
  log : List Entry

inductive Label where
  | insertShare (i : ℕ) (row : CredentialShare)
  | readShare (i id : ℕ)
  | claim (i : ℕ)
  | update (i id : ℕ) (edit : ShareEdit)
  | promote (i : ℕ) (params : RotationParams) (ack : Acknowledgement)
  | supersede (i : ℕ)
  | supersedeRow (i : ℕ)
  | breakGlass (i : ℕ) (input : BreakGlassInput) (rowLock : Bool)
  | commit (i : ℕ)
  | rollback (i : ℕ)
  | credentials (vault : Store)
  | tick (n : ℕ)

namespace State

variable (s : State) (i : ℕ)

/-- The committed row of a share. -/
def row (id : ℕ) : Option CredentialShare := s.shares.find? fun r => r.id = id

def setTx (tx : Tx) : State := { s with txs := Function.update s.txs i (some tx) }

/-- The transaction is over and its locks are free. -/
def endTx : State :=
  { s with
    txs := Function.update s.txs i none
    rowLocks := fun id => if s.rowLocks id = some i then none else s.rowLocks id
    rotationLock := if s.rotationLock = some i then none else s.rotationLock }

/-- A row lock. -/
def lockRow (id : ℕ) : State := { s with rowLocks := Function.update s.rowLocks id (some i) }

end State

/-! ### Updates of one share -/

instance (edit : ShareEdit) (r : CredentialShare) : Decidable (edit.guard r) :=
  match edit with
  | .view _ => inferInstanceAs (Decidable (r.status = .active))
  | .viewAgain _ => inferInstanceAs (Decidable (r.status = .active ∧ r.singleUse = false))
  | .expire now => inferInstanceAs (Decidable (r.status = .active ∧ r.expiresAt ≤ now))
  | .revoke _ => inferInstanceAs (Decidable (r.status = .active))
  | .supersede _ => inferInstanceAs (Decidable (r.isOutstanding = true))
  | .attempt => inferInstanceAs (Decidable True)
  | .lock _ _ => inferInstanceAs (Decidable (r.status ≠ .revoked))
  | .send _ now =>
    inferInstanceAs (Decidable (verifiableShareCondition now r = true ∧ sendAllowed now r = true))
  | .reserve now =>
    inferInstanceAs (Decidable (verifiableShareCondition now r = true ∧ codeIsLive now r = true))
  | .verify _ _ => inferInstanceAs (Decidable True)

/-- Revocations, expiries and the other updates of one row, apart from views and supersessions, at
the time they are made. -/
def isMadeAt (clock : ℕ) : ShareEdit → Bool
  | .expire now => now = clock
  | .revoke now => now = clock
  | .attempt => true
  | .lock _ now => now = clock
  | .send _ now => now = clock
  | .reserve now => now = clock
  | .verify _ now => now = clock
  | _ => false

/-! ### Steps -/

section Steps

variable (rt : Runtime) (s : State) (i : ℕ)

def insertShare (row : CredentialShare) : Option State :=
  if s.txs i = none ∧ row.id = s.nextId ∧ row.status = .active then
    some { s.setTx i (.created row) with nextId := s.nextId + 1 }
  else none

/-- The checks of a reveal and its reads; where they fail it shows nothing. -/
def readShare (id : ℕ) : Option State :=
  match s.txs i with
  | some _ => none
  | none =>
    match s.row id with
    | none => some s
    | some share =>
      if share.status ∈ [.revoked, .expired, .superseded] ∨ share.expiresAt ≤ s.clock then some s
      else
        match serializeBounded rt (.at s.vault) share.credentialId
          (effectiveAttributeKeysForShare share.scope) with
        | .error _ => some s
        | .ok .notFound => some s
        | .ok bounded => some (s.setTx i (.read share bounded))

/-- `claimSingleUseView` and `recordMultiView`. -/
def claim : Option State :=
  match s.txs i with
  | some (.read share bounded) =>
    if s.rowLocks share.id ≠ none then none
    else if (s.row share.id).any fun r => r.status = .active then
      let edit := if share.singleUse then ShareEdit.view s.clock else ShareEdit.viewAgain s.clock
      some ((s.setTx i (.updated share.id edit (some bounded))).lockRow i share.id)
    else some (s.endTx i)
  | _ => none

def update (id : ℕ) (edit : ShareEdit) : Option State :=
  if s.txs i = none ∧ isMadeAt s.clock edit = true ∧ s.rowLocks id = none then
    if (s.row id).any fun r => decide (edit.guard r) then
      some ((s.setTx i (.updated id edit none)).lockRow i id)
    else some s
  else none

/-- The promote handler: `promoteRotation`, which gives up without its advisory lock. -/
def promote (params : RotationParams) (ack : Acknowledgement) : Option State :=
  match s.txs i with
  | some _ => none
  | none =>
    match promoteRotation s.vault s.clock (decide (s.rotationLock = none)) params ack with
    | (.promoted rotation _ _ _, vault) =>
      some { s.setTx i (.promoted params rotation vault) with rotationLock := some i }
    | _ => some s

/-- `supersedeOutstandingSharesForRotation` starts: the rows of its snapshot. -/
def supersede : Option State :=
  match s.txs i with
  | some (.promoted params rotation vault) =>
    let scope := ⟨params.orgId, params.credentialId, rotation.targetFields⟩
    some (s.setTx i (.superseding scope vault s.clock
      ((s.shares.filter (supersedeWhere scope)).map (·.id)) []))
  | _ => none

/-- It meets the next row: it waits for its lock and looks at its condition again. -/
def supersedeRow : Option State :=
  match s.txs i with
  | some (.superseding scope vault now (id :: todo) done) =>
    if s.rowLocks id ≠ none then none
    else if (s.row id).any (supersedeWhere scope) then
      some ((s.setTx i (.superseding scope vault now todo (done ++ [id]))).lockRow i id)
    else some (s.setTx i (.superseding scope vault now todo done))
  | _ => none

/-- The break-glass handler: `breakGlassRotation`; it does not touch the shares. -/
def breakGlass (input : BreakGlassInput) (rowLock : Bool) : Option State :=
  match s.txs i with
  | some _ => none
  | none =>
    match breakGlassRotation s.vault s.clock (decide (s.rotationLock = none)) rowLock input with
    | .ok (.ok _ _ _ _ _ false, vault) =>
      some { s.setTx i (.broken ⟨input.orgId, input.credentialId, none⟩ vault) with
        rotationLock := some i }
    | _ => some s

/-- The rows with one of them edited. -/
def editRow (id : ℕ) (edit : ShareEdit) (shares : List CredentialShare) : List CredentialShare :=
  Db.updateWhere (fun r => r.id = id) edit.apply shares

/-- The rows with some of them superseded. -/
def closeRows (now : ℕ) (ids : List ℕ) (shares : List CredentialShare) : List CredentialShare :=
  Db.updateWhere (fun r => r.id ∈ ids) (CredentialShare.superseded now) shares

def commit : Option State :=
  match s.txs i with
  | some (.created row) => some { s.endTx i with shares := s.shares ++ [row] }
  | some (.updated id edit none) => some { s.endTx i with shares := editRow id edit s.shares }
  | some (.updated id edit (some bounded)) =>
    some { s.endTx i with
      shares := editRow id edit s.shares
      log := .revealed id bounded :: s.log }
  | some (.superseding scope vault now [] done) =>
    some { s.endTx i with
      vault
      shares := closeRows now done s.shares
      log := .rotated scope s.shares (closeRows now done s.shares) s.vault vault :: s.log }
  | some (.broken scope vault) =>
    some { s.endTx i with
      vault
      log := .rotated scope s.shares s.shares s.vault vault :: s.log }
  | _ => none

def rollback : Option State :=
  match s.txs i with
  | none => none
  | some _ => some (s.endTx i)

def step : Label → Option State
  | .insertShare i row => insertShare s i row
  | .readShare i id => readShare rt s i id
  | .claim i => claim s i
  | .update i id edit => update s i id edit
  | .promote i params ack => promote s i params ack
  | .supersede i => supersede s i
  | .supersedeRow i => supersedeRow s i
  | .breakGlass i input rowLock => breakGlass s i input rowLock
  | .commit i => commit s i
  | .rollback i => rollback s i
  | .credentials vault => if s.rotationLock = none then some { s with vault } else none
  | .tick n => some { s with clock := s.clock + n }

end Steps

/-- The shares and the rotations of a credential, from a store without shares on. -/
def rotatingSystem (rt : Runtime) (vault : Store) : Run.System State Label where
  init := ⟨vault, [], 0, 0, fun _ => none, fun _ => none, none, []⟩
  step := step rt

end ProjectVault.Shares.Rotating
