import ProjectVault.Composition.Overlay
import ProjectVault.Run.Fallible

/-!
Writing a composed tree (`composition-kit/src/apply.ts`).
-/

namespace Composition

open Js Run Run.Fallible

/-! ### The app -/

/-- A directory: the content of each file by its path in the directory. -/
abbrev Dir : Type := String → Option String

/-- `FileSource`: a file elsewhere, which is copied, or a text. -/
inductive StagedSource where
  | file (abs : String)
  | text (content : String)

/-- The part of `ComposePlan` that is written. -/
structure ComposePlan where
  files : Map StagedSource
  replacementMapText : Option String
  lockText : Option String

/-- The temporary directory: its children `new` and `old`, by the names in them. -/
structure StageDir where
  fresh : String → Option Dir
  old : String → Option Dir

/-- The app root, its directories by their names, with the files the kit writes. -/
structure Disk where
  owned : String → Option Dir
  replacementMap : Option String
  lock : Option String
  /-- The temporary file of `writeFileAtomic`. -/
  temp : Option String
  stage : Option StageDir

/-- What `appRootProblems` reads of an app root. -/
structure AppRoot where
  path : String
  real : String
  hasPackageJson : Bool
  isRootOrHome : Bool
  /-- The directory of this name is no symbolic link and lies in the app root. -/
  isPlainChild : String → Bool

def appRootProblems (root : AppRoot) (owned : String → Option Dir) : List String :=
  if !root.hasPackageJson then
    [root.path ++ " is not an app root (no package.json); refusing to write generated directories there."]
  else
    (if root.isRootOrHome then
      [root.real ++ " is a filesystem root or a home directory; refusing to write generated directories there."]
    else []) ++
    (ownedDirectories.filter fun name => (owned name).isSome && !root.isPlainChild name).map fun name =>
      root.path ++ "/" ++ name ++
        " is not a plain child directory of the app root (symlink or elsewhere); refusing to delete it."

/-! ### Calls that may fail -/

inductive Output where
  | replacementMap | lock
  deriving DecidableEq

/-- The file operations of a run, its cleanup apart. -/
inductive Call where
  | makeTempDir
  | makeOwned (name : String)
  | makeParent (dest : String)
  | writeSource (dest : String)
  | makeOld
  | moveAside (name : String)
  | moveIn (name : String)
  | readMap
  | makeMapDir
  | writeTemp (file : Output)
  | renameTemp (file : Output)
  deriving DecidableEq

inductive ApplyError where
  | refused (problems : List String)
  | failed (call : Call)

/-- The disk with the two lists that `swapIn` keeps. -/
structure ApplyState where
  disk : Disk
  moved : List String
  installed : List String

abbrev Io : Type → Type := Fallible ApplyState ApplyError

/-- A file operation, which leaves the disk as it is where it fails. -/
def call (fault : Option Call) (c : Call) (effect : Disk → Disk) : Io Unit :=
  if fault = some c then throw (.failed c) else modify fun s => { s with disk := effect s.disk }

/-! ### Staging -/

/-- The first segment of a path and the rest of it. -/
def splitTop (dest : String) : Option (String × String) :=
  let top := dest.toList.takeWhile (· ≠ '/')
  match dest.toList.drop top.length with
  | [] => none
  | _ :: rest => some (String.ofList top, String.ofList rest)

/-- A file written in the tree that is built, its directory made before. -/
def stageFile (fresh : String → Option Dir) (dest content : String) : String → Option Dir :=
  match splitTop dest with
  | none => fresh
  | some (top, rel) =>
    Function.update fresh top
      (some (Function.update ((fresh top).getD fun _ => none) rel (some content)))

def Disk.updateFresh (d : Disk) (f : (String → Option Dir) → String → Option Dir) : Disk :=
  { d with stage := d.stage.map fun st => { st with fresh := f st.fresh } }

/-- The bytes of a source; `read` is the content of the files outside the app. -/
def StagedSource.content (read : String → String) : StagedSource → String
  | .file abs => read abs
  | .text content => content

section Apply

variable (fault : Option Call)

def writeSource (read : String → String) (dest : String) (source : StagedSource) : Io Unit := do
  call fault (.makeParent dest) id
  call fault (.writeSource dest) fun d => d.updateFresh fun fresh =>
    stageFile fresh dest (source.content read)

def makeOwned (name : String) : Io Unit :=
  call fault (.makeOwned name) fun d => d.updateFresh fun fresh =>
    Function.update fresh name (some ((fresh name).getD fun _ => none))

/-! ### The swap -/

/-- `renamePath(join(appRoot, name), join(stage, 'old', name))`. -/
def Disk.moveAside (d : Disk) (name : String) : Disk :=
  { d with
    owned := Function.update d.owned name none
    stage := d.stage.map fun st => { st with old := Function.update st.old name (d.owned name) } }

/-- `renamePath(join(stage, 'new', name), join(appRoot, name))`. -/
def Disk.moveIn (d : Disk) (name : String) : Disk :=
  match d.stage with
  | none => d
  | some st =>
    { d with
      owned := Function.update d.owned name (st.fresh name)
      stage := some { st with fresh := Function.update st.fresh name none } }

/-- `removePath(join(appRoot, name))`. -/
def Disk.removeOwned (d : Disk) (name : String) : Disk :=
  { d with owned := Function.update d.owned name none }

/-- `renamePath(join(stage, 'old', name), join(appRoot, name))`, of a directory that is there. -/
def Disk.restore (d : Disk) (name : String) : Disk :=
  match d.stage with
  | none => d
  | some st =>
    match st.old name with
    | none => d
    | some dir =>
      { d with
        owned := Function.update d.owned name (some dir)
        stage := some { st with old := Function.update st.old name none } }

/-- One turn of the loop of `swapIn`. -/
def swapOne (name : String) : Io Unit := do
  let s ← get
  if (s.disk.owned name).isSome then
    call fault (.moveAside name) fun d => d.moveAside name
    modify fun s => { s with moved := s.moved ++ [name] }
  call fault (.moveIn name) fun d => d.moveIn name
  modify fun s => { s with installed := s.installed ++ [name] }

/-- The removals and restoring renames after a failure. -/
def rollBack (s : ApplyState) : ApplyState :=
  { s with disk := s.moved.foldl Disk.restore (s.installed.foldl Disk.removeOwned s.disk) }

def swapIn : Io Unit := do
  modify fun s => { s with moved := [], installed := [] }
  call fault .makeOld id
  tryCatch (ownedDirectories.forM (swapOne fault)) fun error => do
    modify rollBack
    throw error

/-! ### The run -/

def Disk.set (d : Disk) (text : String) : Output → Disk
  | .replacementMap => { d with replacementMap := some text, temp := none }
  | .lock => { d with lock := some text, temp := none }

def writeFileAtomic (file : Output) (text : String) : Io Unit := do
  call fault (.writeTemp file) fun d => { d with temp := some text }
  call fault (.renameTemp file) fun d => d.set text file

/-- A step that is taken under a condition. -/
def onlyIf (condition : Bool) (x : Io Unit) : Io Unit := if condition then x else pure ()

def writeReplacementMap (text : String) : Io Unit := do
  let s ← get
  onlyIf s.disk.replacementMap.isSome (call fault .readMap id)
  onlyIf (s.disk.replacementMap ≠ some text) do
    call fault .makeMapDir id
    writeFileAtomic fault .replacementMap text

/-- A text that is written if it is there. -/
def whenSome (text : Option String) (write : String → Io Unit) : Io Unit :=
  match text with
  | none => pure ()
  | some text => write text

/-- What is built and written once the temporary directory is there. -/
def build (read : String → String) (plan : ComposePlan) : Io Unit := do
  ownedDirectories.forM (makeOwned fault)
  plan.files.entries.forM fun e => writeSource fault read e.1 e.2
  swapIn fault
  whenSome plan.replacementMapText (writeReplacementMap fault)
  whenSome plan.lockText (writeFileAtomic fault .lock)

/-- `apply(plan, appRoot)`. -/
def apply (root : AppRoot) (read : String → String) (plan : ComposePlan) : Io Unit := do
  let s ← get
  onlyIf (appRootProblems root s.disk.owned ≠ [])
    (throw (.refused (appRootProblems root s.disk.owned)))
  call fault .makeTempDir fun d => { d with stage := some ⟨fun _ => none, fun _ => none⟩ }
  tryFinally (build fault read plan)
    (modify fun s => { s with disk := { s.disk with stage := none } })

end Apply

/-! ### Rolling back -/

/-- The owned directories, the map and the lock are those of `d₀`. -/
structure Kept (d₀ d : Disk) : Prop where
  owned : ∀ x ∈ ownedDirectories, d.owned x = d₀.owned x
  replacementMap : d.replacementMap = d₀.replacementMap
  lock : d.lock = d₀.lock

/-- The map and the lock are those of `d₀`. -/
structure OutputsKept (d₀ d : Disk) : Prop where
  replacementMap : d.replacementMap = d₀.replacementMap
  lock : d.lock = d₀.lock

section RollBack

variable {d₀ d : Disk}

lemma foldl_removeOwned (names : List String) (d : Disk) :
    (∀ x, (names.foldl Disk.removeOwned d).owned x = if x ∈ names then none else d.owned x) ∧
      (names.foldl Disk.removeOwned d).stage = d.stage ∧
      OutputsKept d (names.foldl Disk.removeOwned d) := by
  induction names generalizing d with
  | nil => exact ⟨fun x => by simp, rfl, rfl, rfl⟩
  | cons name names ih =>
    obtain ⟨howned, hstage, hmap, hlock⟩ := ih (d.removeOwned name)
    refine ⟨fun x => ?_, hstage, hmap, hlock⟩
    rw [List.foldl_cons, howned, Disk.removeOwned]
    by_cases hx : x = name
    · subst hx
      simp
    · simp [hx]

/-- Every directory of the list that stands in `old` is moved back. -/
lemma foldl_restore (names : List String) {d : Disk} {st : StageDir} (hst : d.stage = some st) :
    (∀ x, (names.foldl Disk.restore d).owned x =
      if x ∈ names ∧ (st.old x).isSome then st.old x else d.owned x) ∧
      OutputsKept d (names.foldl Disk.restore d) := by
  induction names generalizing d st with
  | nil => exact ⟨fun x => by simp, rfl, rfl⟩
  | cons name names ih =>
    rw [List.foldl_cons]
    cases hold : st.old name with
    | none =>
      have hrestore : d.restore name = d := by
        rw [Disk.restore, hst]
        simp only [hold]
      obtain ⟨howned, hkept⟩ := ih hst
      rw [hrestore]
      refine ⟨fun x => ?_, hkept⟩
      rw [howned]
      by_cases hx : x = name
      · subst hx
        simp [hold]
      · simp [hx]
    | some dir =>
      have hrestore : d.restore name = { d with
          owned := Function.update d.owned name (some dir)
          stage := some { st with old := Function.update st.old name none } } := by
        rw [Disk.restore, hst]
        simp only [hold]
      obtain ⟨howned, hkept⟩ := @ih (d.restore name)
        { st with old := Function.update st.old name none } (by rw [hrestore])
      refine ⟨fun x => ?_, ?_⟩
      · rw [howned, hrestore]
        by_cases hx : x = name
        · subst hx
          simp [hold]
        · simp [hx]
      · rw [hrestore] at hkept ⊢
        exact ⟨hkept.replacementMap, hkept.lock⟩

/-- What the two lists of `swapIn` say of the disk: a directory that was moved stands in `old`, one
that was installed and not moved was not there, and any other is as it was. -/
structure Journal (d₀ : Disk) (s : ApplyState) : Prop where
  outputs : OutputsKept d₀ s.disk
  stage : ∃ st, s.disk.stage = some st ∧ ∀ x ∈ s.moved, (st.old x).isSome ∧ st.old x = d₀.owned x
  installed : ∀ x ∈ s.installed, x ∉ s.moved → d₀.owned x = none
  others : ∀ x, x ∉ s.moved → x ∉ s.installed → s.disk.owned x = d₀.owned x

/-- A rollback restores everything. -/
lemma Journal.rollBack {s : ApplyState} (h : Journal d₀ s) : Kept d₀ (rollBack s).disk := by
  obtain ⟨st, hst, hmoved⟩ := h.stage
  obtain ⟨hremoved, hstage, hmap, hlock⟩ := foldl_removeOwned s.installed s.disk
  obtain ⟨hrestored, hmap', hlock'⟩ := foldl_restore s.moved (hstage.trans hst)
  refine ⟨fun x _ => ?_, hmap'.trans (hmap.trans h.outputs.replacementMap),
    hlock'.trans (hlock.trans h.outputs.lock)⟩
  rw [Composition.rollBack, hrestored, hremoved]
  by_cases hx : x ∈ s.moved
  · rw [if_pos ⟨hx, (hmoved x hx).1⟩, (hmoved x hx).2]
  · rw [if_neg fun hcon => hx hcon.1]
    by_cases hin : x ∈ s.installed
    · rw [if_pos hin, h.installed x hin hx]
    · rw [if_neg hin, h.others x hx hin]

end RollBack

/-! ### What each part leaves -/

/-- A call of the staging or of the swap. -/
def Call.isEarly : Call → Bool
  | .readMap | .makeMapDir | .writeTemp _ | .renameTemp _ => false
  | _ => true

/-- The run ends with the early call that fails, and nothing outside the temporary directory has
changed. -/
structure FailsEarly (fault : Option Call) (d₀ : Disk) (s : ApplyState) : Prop where
  kept : Kept d₀ s.disk
  early : ∃ c, fault = some c ∧ c.isEarly = true

section Parts

variable {fault : Option Call} {d₀ : Disk} {tree : String → Option Dir} {s : ApplyState}

lemma wp_call {Q : Unit → ApplyState → Prop} {E : ApplyError → ApplyState → Prop} {c : Call}
    {f : Disk → Disk} (hok : fault ≠ some c → Q () { s with disk := f s.disk })
    (herr : fault = some c → E (.failed c) s) : wp (call fault c f) Q E s := by
  rw [call]
  split_ifs with h
  · exact herr h
  · exact hok h

/-- The loop of `swapIn` with some directories to go. -/
structure Swapping (d₀ : Disk) (tree : String → Option Dir) (rest : List String) (s : ApplyState) :
    Prop where
  journal : Journal d₀ s
  fresh : ∀ st, s.disk.stage = some st → ∀ x ∈ rest, st.fresh x = tree x
  apart : ∀ x ∈ rest, x ∉ s.moved ∧ x ∉ s.installed
  swapped : ∀ x ∈ s.installed, s.disk.owned x = tree x
  listed : ∀ x ∈ ownedDirectories, x ∈ rest ∨ x ∈ s.installed
  nodup : rest.Nodup

lemma Swapping.moveAside {name : String} {rest : List String}
    (h : Swapping d₀ tree (name :: rest) s) (hsome : (s.disk.owned name).isSome = true) :
    Journal d₀ { s with disk := s.disk.moveAside name, moved := s.moved ++ [name] } := by
  obtain ⟨st, hst, hmoved⟩ := h.journal.stage
  obtain ⟨hname, hname'⟩ := h.apart name List.mem_cons_self
  have hold := h.journal.others name hname hname'
  refine ⟨⟨h.journal.outputs.replacementMap, h.journal.outputs.lock⟩,
    ⟨{ st with old := Function.update st.old name (s.disk.owned name) }, ?_, fun x hx => ?_⟩,
    fun x hx hx' => ?_, fun x hx hx' => ?_⟩
  · rw [Disk.moveAside, hst, Option.map_some]
  · rcases List.mem_append.1 hx with hx | hx
    · have hne : x ≠ name := fun heq => hname (heq ▸ hx)
      simpa [hne] using hmoved x hx
    · obtain rfl := List.mem_singleton.1 hx
      simpa [hold] using hold ▸ hsome
  · rw [List.mem_append, not_or] at hx'
    exact h.journal.installed x hx hx'.1
  · rw [List.mem_append, not_or, List.mem_singleton] at hx
    change Function.update s.disk.owned name none x = d₀.owned x
    rw [Function.update_of_ne hx.2]
    exact h.journal.others x hx.1 hx'

lemma Disk.moveIn_of_stage {d : Disk} {st : StageDir} (hst : d.stage = some st) (name : String) :
    d.moveIn name = ⟨Function.update d.owned name (st.fresh name), d.replacementMap, d.lock, d.temp,
      some { st with fresh := Function.update st.fresh name none }⟩ := by
  rw [Disk.moveIn, hst]

/-- A directory that is moved in is journaled, if there is none in its place. -/
lemma Journal.moveIn {name : String} (h : Journal d₀ s)
    (hplace : name ∈ s.moved ∨ d₀.owned name = none) :
    Journal d₀ { s with disk := s.disk.moveIn name, installed := s.installed ++ [name] } := by
  obtain ⟨st, hst, hmoved⟩ := h.stage
  rw [Disk.moveIn_of_stage hst]
  refine ⟨⟨h.outputs.replacementMap, h.outputs.lock⟩, ⟨_, rfl, hmoved⟩, fun x hx hx' => ?_,
    fun x hx hx' => ?_⟩
  · rcases List.mem_append.1 hx with hx | hx
    · exact h.installed x hx hx'
    · obtain rfl := List.mem_singleton.1 hx
      exact hplace.resolve_left hx'
  · rw [List.mem_append, not_or, List.mem_singleton] at hx'
    change Function.update s.disk.owned name (st.fresh name) x = d₀.owned x
    rw [Function.update_of_ne hx'.2]
    exact h.others x hx hx'.1

/-- One turn of the loop swaps one directory, or fails with a journal of what it has done. -/
lemma wp_swapOne {name : String} {rest : List String} (h : Swapping d₀ tree (name :: rest) s) :
    wp (swapOne fault name) (fun _ => Swapping d₀ tree rest)
      (fun _ s' => Journal d₀ s' ∧ ∃ c, fault = some c ∧ c.isEarly = true) s := by
  obtain ⟨hnotin, hrest⟩ := List.nodup_cons.1 h.nodup
  have hne : ∀ x ∈ rest, x ≠ name := fun x hx heq => hnotin (heq ▸ hx)
  -- the second half of a turn, from a state in which the place is free
  have hin : ∀ s', Journal d₀ s' → (name ∈ s'.moved ∨ d₀.owned name = none) →
      (∀ x ∈ rest, x ∉ s'.moved) → s'.installed = s.installed →
      (∀ x ∈ s.installed, s'.disk.owned x = tree x) →
      (∀ st, s'.disk.stage = some st → ∀ x ∈ name :: rest, st.fresh x = tree x) →
      wp (do
        call fault (.moveIn name) fun d => d.moveIn name
        modify fun s => { s with installed := s.installed ++ [name] } : Io Unit)
        (fun _ => Swapping d₀ tree rest)
        (fun _ s' => Journal d₀ s' ∧ ∃ c, fault = some c ∧ c.isEarly = true) s' := by
    intro s' hjournal hplace hmoved hinstalled hswapped hfresh
    rw [wp_bind]
    refine wp_call (fun _ => ?_) fun hfault => ⟨hjournal, _, hfault, rfl⟩
    have hjournal' := hjournal.moveIn hplace
    obtain ⟨st, hst, -⟩ := hjournal.stage
    have hfresh' := hfresh st hst
    rw [wp_modify]
    rw [hinstalled] at hjournal' ⊢
    rw [Disk.moveIn_of_stage hst] at hjournal' ⊢
    refine ⟨hjournal', fun st' hst' x hx => ?_, fun x hx => ⟨hmoved x hx, ?_⟩, fun x hx => ?_,
      fun x hx => ?_, hrest⟩
    · cases hst'
      change Function.update st.fresh name none x = tree x
      rw [Function.update_of_ne (hne x hx)]
      exact hfresh' x (List.mem_cons_of_mem _ hx)
    · rw [List.mem_append, not_or, List.mem_singleton]
      exact ⟨(h.apart x (List.mem_cons_of_mem _ hx)).2, hne x hx⟩
    · change Function.update s'.disk.owned name (st.fresh name) x = tree x
      by_cases heq : x = name
      · subst heq
        rw [Function.update_self]
        exact hfresh' x List.mem_cons_self
      · rw [Function.update_of_ne heq]
        exact hswapped x ((List.mem_append.1 hx).resolve_right fun h => heq (List.mem_singleton.1 h))
    · rcases h.listed x hx with hx | hx
      · rcases List.mem_cons.1 hx with rfl | hx
        · exact .inr (List.mem_append_right _ (List.mem_singleton_self x))
        · exact .inl hx
      · exact .inr (List.mem_append_left _ hx)
  obtain ⟨hname, hname'⟩ := h.apart name List.mem_cons_self
  have hrestMoved : ∀ x ∈ rest, x ∉ s.moved := fun x hx => (h.apart x (List.mem_cons_of_mem _ hx)).1
  rw [swapOne, wp_bind, wp_get]
  cases hsome : (s.disk.owned name).isSome with
  | false =>
    have hnone : d₀.owned name = none := by
      rw [← h.journal.others name hname hname']
      simpa using hsome
    exact hin s h.journal (.inr hnone) hrestMoved rfl h.swapped h.fresh
  | true =>
    rw [if_pos rfl, wp_bind]
    refine wp_call (fun _ => ?_) fun hfault => ⟨h.journal, _, hfault, rfl⟩
    rw [wp_bind, wp_modify]
    refine hin _ (h.moveAside hsome) (.inl (List.mem_append_right _ (List.mem_singleton_self name)))
      (fun x hx => ?_) rfl (fun x hx => ?_) fun st hst => ?_
    · rw [List.mem_append, not_or, List.mem_singleton]
      exact ⟨hrestMoved x hx, hne x hx⟩
    · have hxname : x ≠ name := fun heq => hname' (heq ▸ hx)
      change Function.update s.disk.owned name none x = tree x
      rw [Function.update_of_ne hxname]
      exact h.swapped x hx
    · obtain ⟨st₀, hst₀, -⟩ := h.journal.stage
      change s.disk.stage.map _ = some st at hst
      rw [hst₀, Option.map_some, Option.some.injEq] at hst
      rw [← hst]
      exact h.fresh st₀ hst₀

/-- The swap brings in every directory of the new tree, or leaves everything as it was. -/
lemma wp_swapIn (hdisk : s.disk = { d₀ with stage := some ⟨tree, fun _ => none⟩ }) :
    wp (swapIn fault)
      (fun _ s' => (∀ x ∈ ownedDirectories, s'.disk.owned x = tree x) ∧ OutputsKept d₀ s'.disk)
      (fun _ => FailsEarly fault d₀) s := by
  have hkept : Kept d₀ s.disk := by
    rw [hdisk]
    exact ⟨fun _ _ => rfl, rfl, rfl⟩
  rw [swapIn, wp_bind, wp_modify, wp_bind]
  refine wp_call (fun _ => ?_) fun hfault => ⟨hkept, _, hfault, rfl⟩
  rw [wp_tryCatch]
  have hstart : Swapping d₀ tree ownedDirectories { disk := s.disk, moved := [], installed := [] } := by
    refine ⟨⟨⟨hkept.replacementMap, hkept.lock⟩, ⟨_, by rw [hdisk], fun x hx => absurd hx List.not_mem_nil⟩,
      fun x hx => absurd hx List.not_mem_nil, fun x _ _ => by rw [hdisk]⟩, fun st hst x _ => ?_,
      fun x _ => ⟨List.not_mem_nil, List.not_mem_nil⟩, fun x hx => absurd hx List.not_mem_nil,
      fun x hx => .inl hx, by decide⟩
    rw [hdisk] at hst
    rw [← Option.some.inj hst]
  refine wp_mono (fun _ s' h => ?_) (fun e s' h => ?_)
    (wp_forM (Swapping d₀ tree) (fun name rest s' h => wp_swapOne h) hstart)
  · refine ⟨fun x hx => h.swapped x ?_, h.journal.outputs⟩
    exact (h.listed x hx).resolve_left List.not_mem_nil
  · rw [wp_bind, wp_modify, wp_throw]
    exact ⟨h.1.rollBack, h.2⟩

/-- The tree with the owned directories, and with some files more. -/
def emptyTree : String → Option Dir :=
  ownedDirectories.foldl (fun fresh name =>
    Function.update fresh name (some ((fresh name).getD fun _ => none))) fun _ => none

/-- The tree a plan describes. -/
def stagedTree (read : String → String) (plan : ComposePlan) : String → Option Dir :=
  plan.files.entries.foldl (fun fresh e => stageFile fresh e.1 (e.2.content read)) emptyTree

/-- A loop of the staging folds its turns into the new tree. -/
lemma wp_stage {α : Type} {f : α → Io Unit} {turn : (String → Option Dir) → α → String → Option Dir}
    {xs : List α} {fresh : String → Option Dir}
    (hturn : ∀ x fresh s, s.disk = { d₀ with stage := some ⟨fresh, fun _ => none⟩ } →
      wp (f x) (fun _ s' => s'.disk = { d₀ with stage := some ⟨turn fresh x, fun _ => none⟩ })
        (fun _ => FailsEarly fault d₀) s)
    (hdisk : s.disk = { d₀ with stage := some ⟨fresh, fun _ => none⟩ }) :
    wp (xs.forM f)
      (fun _ s' => s'.disk = { d₀ with stage := some ⟨xs.foldl turn fresh, fun _ => none⟩ })
      (fun _ => FailsEarly fault d₀) s := by
  refine wp_mono ?_ (fun _ _ h => h) (wp_forM (fun rest s' => ∃ fresh', s'.disk =
    { d₀ with stage := some ⟨fresh', fun _ => none⟩ } ∧ rest.foldl turn fresh' = xs.foldl turn fresh)
    ?_ ⟨fresh, hdisk, rfl⟩)
  · rintro - s' ⟨fresh', hs', hfold⟩
    rw [hs', ← hfold]
    rfl
  · rintro x rest s' ⟨fresh', hs', hfold⟩
    exact wp_mono (fun _ s'' h => ⟨turn fresh' x, h, hfold⟩) (fun _ _ h => h)
      (hturn x fresh' s' hs')

/-- A failure while the new tree is built. -/
lemma failsEarly_of_staging {fresh : String → Option Dir} {c : Call} (hfault : fault = some c)
    (hearly : c.isEarly = true) (hdisk : s.disk = { d₀ with stage := some ⟨fresh, fun _ => none⟩ }) :
    FailsEarly fault d₀ s :=
  ⟨by rw [hdisk]; exact ⟨fun _ _ => rfl, rfl, rfl⟩, c, hfault, hearly⟩

lemma wp_makeOwned (name : String) (fresh : String → Option Dir)
    (hdisk : s.disk = { d₀ with stage := some ⟨fresh, fun _ => none⟩ }) :
    wp (makeOwned fault name)
      (fun _ s' => s'.disk = { d₀ with
        stage := some ⟨Function.update fresh name (some ((fresh name).getD fun _ => none)),
          fun _ => none⟩ })
      (fun _ => FailsEarly fault d₀) s := by
  refine wp_call (fun _ => ?_) fun hfault => failsEarly_of_staging hfault rfl hdisk
  simp only [hdisk, Disk.updateFresh, Option.map_some]

lemma wp_writeSource (read : String → String) (e : String × StagedSource)
    (fresh : String → Option Dir)
    (hdisk : s.disk = { d₀ with stage := some ⟨fresh, fun _ => none⟩ }) :
    wp (writeSource fault read e.1 e.2)
      (fun _ s' => s'.disk = { d₀ with
        stage := some ⟨stageFile fresh e.1 (e.2.content read), fun _ => none⟩ })
      (fun _ => FailsEarly fault d₀) s := by
  rw [writeSource, wp_bind]
  refine wp_call (fun _ => ?_) fun hfault => failsEarly_of_staging hfault rfl hdisk
  refine wp_call (fun _ => ?_) fun hfault => failsEarly_of_staging hfault rfl hdisk
  simp only [hdisk, id, Disk.updateFresh, Option.map_some]

/-! ### The two files -/

/-- The failing call is one of those that write a map, and it is made. -/
structure MapCallFails (fault : Option Call) (text : String) (old : Option String) : Prop where
  made : fault = some .readMap ∧ old.isSome = true ∨ old ≠ some text ∧ (fault = some .makeMapDir ∨
    fault = some (.writeTemp .replacementMap) ∨ fault = some (.renameTemp .replacementMap))

/-- The plan has a map, and writing it fails. -/
def MapFails (fault : Option Call) (plan : ComposePlan) (old : Option String) : Prop :=
  ∃ text, plan.replacementMapText = some text ∧ MapCallFails fault text old

/-- The failing call is one of those that write the lock, and it is made. -/
def LockFails (fault : Option Call) (plan : ComposePlan) : Prop :=
  plan.lockText.isSome = true ∧ (fault = some (.writeTemp .lock) ∨ fault = some (.renameTemp .lock))

lemma wp_writeFileAtomic {file : Output} {text : String} :
    wp (writeFileAtomic fault file text)
      (fun _ s' => s'.disk = s.disk.set text file ∧ fault ≠ some (.writeTemp file) ∧
        fault ≠ some (.renameTemp file))
      (fun _ s' => s'.disk.owned = s.disk.owned ∧ OutputsKept s.disk s'.disk ∧
        (fault = some (.writeTemp file) ∨ fault = some (.renameTemp file))) s := by
  rw [writeFileAtomic, wp_bind]
  refine wp_call (fun hwrite => ?_) fun hfault => ⟨rfl, ⟨rfl, rfl⟩, .inl hfault⟩
  refine wp_call (fun hrename => ⟨?_, hwrite, hrename⟩) fun hfault => ⟨rfl, ⟨rfl, rfl⟩, .inr hfault⟩
  cases file <;> rfl

lemma wp_onlyIf {Q : Unit → ApplyState → Prop} {E : ApplyError → ApplyState → Prop}
    {condition : Bool} {x : Io Unit} (hdo : condition = true → wp x Q E s)
    (hskip : condition = false → Q () s) : wp (onlyIf condition x) Q E s := by
  cases condition with
  | true => exact hdo rfl
  | false => exact hskip rfl

lemma wp_writeReplacementMap {text : String} :
    wp (writeReplacementMap fault text)
      (fun _ s' => s'.disk.owned = s.disk.owned ∧ s'.disk.lock = s.disk.lock ∧
        s'.disk.replacementMap = some text ∧ ¬ MapCallFails fault text s.disk.replacementMap)
      (fun _ s' => s'.disk.owned = s.disk.owned ∧ OutputsKept s.disk s'.disk ∧
        MapCallFails fault text s.disk.replacementMap) s := by
  -- what is left to do once the old map has been read
  have hrest : ¬ (fault = some .readMap ∧ s.disk.replacementMap.isSome = true) →
      wp (onlyIf (s.disk.replacementMap ≠ some text) do
          call fault .makeMapDir id
          writeFileAtomic fault .replacementMap text)
        (fun _ s' => s'.disk.owned = s.disk.owned ∧ s'.disk.lock = s.disk.lock ∧
          s'.disk.replacementMap = some text ∧ ¬ MapCallFails fault text s.disk.replacementMap)
        (fun _ s' => s'.disk.owned = s.disk.owned ∧ OutputsKept s.disk s'.disk ∧
          MapCallFails fault text s.disk.replacementMap) s := by
    intro hread
    refine wp_onlyIf (fun hne => ?_) fun heq => ?_
    · have hne' : s.disk.replacementMap ≠ some text := of_decide_eq_true hne
      rw [wp_bind]
      refine wp_call (fun hdir => ?_) fun hfault => ⟨rfl, ⟨rfl, rfl⟩, ⟨.inr ⟨hne', .inl hfault⟩⟩⟩
      refine wp_mono (fun _ s' h => ?_) (fun _ s' h => ?_) wp_writeFileAtomic
      · obtain ⟨hdisk, htemp, hrename⟩ := h
        rw [hdisk]
        refine ⟨rfl, rfl, rfl, ?_⟩
        rintro ⟨h | ⟨-, h | h | h⟩⟩
        · exact hread h
        · exact hdir h
        · exact htemp h
        · exact hrename h
      · exact ⟨h.1, h.2.1, ⟨.inr ⟨hne', .inr h.2.2⟩⟩⟩
    · have heq' : s.disk.replacementMap = some text := not_not.1 (of_decide_eq_false heq)
      refine ⟨rfl, rfl, heq', ?_⟩
      rintro ⟨h | ⟨hne, -⟩⟩
      · exact hread h
      · exact hne heq'
  rw [writeReplacementMap, wp_bind, wp_get, wp_bind]
  refine wp_onlyIf (fun hsome => ?_) fun hnone => hrest fun h => by simp [hnone] at h
  refine wp_call (fun hread => ?_) fun hfault => ⟨rfl, ⟨rfl, rfl⟩, ⟨.inl ⟨hfault, hsome⟩⟩⟩
  exact hrest fun h => hread h.1

lemma wp_writeMap {plan : ComposePlan} :
    wp (whenSome plan.replacementMapText (writeReplacementMap fault))
      (fun _ s' => s'.disk.owned = s.disk.owned ∧ s'.disk.lock = s.disk.lock ∧
        s'.disk.replacementMap = plan.replacementMapText.or s.disk.replacementMap ∧
        ¬ MapFails fault plan s.disk.replacementMap)
      (fun _ s' => s'.disk.owned = s.disk.owned ∧ OutputsKept s.disk s'.disk ∧
        MapFails fault plan s.disk.replacementMap) s := by
  cases hplan : plan.replacementMapText with
  | none =>
    refine ⟨rfl, rfl, rfl, ?_⟩
    rintro ⟨text, htext, -⟩
    exact absurd (hplan.symm.trans htext) (by simp)
  | some text =>
    refine wp_mono (fun _ s' h => ⟨h.1, h.2.1, h.2.2.1, ?_⟩)
      (fun _ s' h => ⟨h.1, h.2.1, text, hplan, h.2.2⟩) wp_writeReplacementMap
    rintro ⟨text', htext', hfails⟩
    obtain rfl := Option.some.inj (hplan.symm.trans htext')
    exact h.2.2.2 hfails

lemma wp_writeLock {plan : ComposePlan} :
    wp (whenSome plan.lockText (writeFileAtomic fault .lock))
      (fun _ s' => s'.disk.owned = s.disk.owned ∧
        s'.disk.replacementMap = s.disk.replacementMap ∧
        s'.disk.lock = plan.lockText.or s.disk.lock ∧ ¬ LockFails fault plan)
      (fun _ s' => s'.disk.owned = s.disk.owned ∧ OutputsKept s.disk s'.disk ∧
        LockFails fault plan) s := by
  cases hplan : plan.lockText with
  | none =>
    refine ⟨rfl, rfl, rfl, ?_⟩
    rintro ⟨hsome, -⟩
    simp [hplan] at hsome
  | some text =>
    refine wp_mono (fun _ s' h => ?_) (fun _ s' h => ⟨h.1, h.2.1, by simp [hplan], h.2.2⟩)
      wp_writeFileAtomic
    obtain ⟨hdisk, htemp, hrename⟩ := h
    rw [hdisk]
    refine ⟨rfl, rfl, rfl, ?_⟩
    rintro ⟨-, h | h⟩
    · exact htemp h
    · exact hrename h

/-! ### The run -/

/-- The outcomes of a run that throws: everything is as it was, or the new directories are in and
the map is not, or the map is in as well and the lock is not. -/
inductive Thrown (fault : Option Call) (plan : ComposePlan) (tree : String → Option Dir)
    (d₀ d : Disk) : Prop where
  | early (hkept : Kept d₀ d) (hearly : ∃ c, fault = some c ∧ c.isEarly = true)
  | map (howned : ∀ x ∈ ownedDirectories, d.owned x = tree x) (houtputs : OutputsKept d₀ d)
      (hfails : MapFails fault plan d₀.replacementMap)
  | lock (howned : ∀ x ∈ ownedDirectories, d.owned x = tree x)
      (hmap : d.replacementMap = plan.replacementMapText.or d₀.replacementMap)
      (hlock : d.lock = d₀.lock) (hfails : LockFails fault plan)

/-- What a run that returns has written. -/
structure Written (plan : ComposePlan) (tree : String → Option Dir) (d₀ d : Disk) : Prop where
  owned : ∀ x ∈ ownedDirectories, d.owned x = tree x
  replacementMap : d.replacementMap = plan.replacementMapText.or d₀.replacementMap
  lock : d.lock = plan.lockText.or d₀.lock

lemma wp_build (read : String → String) (plan : ComposePlan)
    (hdisk : s.disk = { d₀ with stage := some ⟨fun _ => none, fun _ => none⟩ }) :
    wp (build fault read plan)
      (fun _ s' => Written plan (stagedTree read plan) d₀ s'.disk ∧
        ¬ MapFails fault plan d₀.replacementMap ∧ ¬ LockFails fault plan)
      (fun _ s' => Thrown fault plan (stagedTree read plan) d₀ s'.disk) s := by
  rw [build, wp_bind]
  refine wp_mono (fun _ s₁ h₁ => ?_) (fun _ _ h => .early h.kept h.early)
    (@wp_stage _ d₀ _ _ _ _ _ _ (fun name fresh _ h => wp_makeOwned name fresh h) hdisk)
  rw [wp_bind]
  refine wp_mono (fun _ s₂ h₂ => ?_) (fun _ _ h => .early h.kept h.early)
    (@wp_stage _ d₀ _ _ _ _ _ _ (fun e fresh _ h => wp_writeSource read e fresh h) h₁)
  rw [wp_bind]
  refine wp_mono (fun _ s₃ h₃ => ?_) (fun _ _ h => .early h.kept h.early) (wp_swapIn h₂)
  obtain ⟨howned, hmap, hlock⟩ := h₃
  rw [wp_bind]
  refine wp_mono (fun _ s₄ h₄ => ?_) (fun _ s₄ h₄ => ?_) wp_writeMap
  · obtain ⟨howned₄, hlock₄, hmap₄, hfails₄⟩ := h₄
    rw [hmap] at hmap₄ hfails₄
    refine wp_mono (fun _ s₅ h₅ => ?_) (fun _ s₅ h₅ => ?_) wp_writeLock
    · obtain ⟨howned₅, hmap₅, hlock₅, hfails₅⟩ := h₅
      refine ⟨⟨fun x hx => ?_, hmap₅.trans hmap₄, ?_⟩, hfails₄, hfails₅⟩
      · rw [howned₅, howned₄, howned x hx]
        rfl
      · rw [hlock₅, hlock₄, hlock]
    · obtain ⟨howned₅, houtputs₅, hfails₅⟩ := h₅
      refine .lock (fun x hx => ?_) (houtputs₅.replacementMap.trans hmap₄)
        (houtputs₅.lock.trans (hlock₄.trans hlock)) hfails₅
      rw [howned₅, howned₄, howned x hx]
      rfl
  · obtain ⟨howned₄, houtputs₄, hfails₄⟩ := h₄
    rw [hmap] at hfails₄
    refine .map (fun x hx => ?_) ⟨houtputs₄.replacementMap.trans hmap, houtputs₄.lock.trans hlock⟩
      hfails₄
    rw [howned₄, howned x hx]
    rfl

/-- An app in which no other run is going on. -/
def start (d : Disk) : ApplyState := ⟨{ d with stage := none }, [], []⟩

/-- The run as a whole, the temporary directory gone on every way out. -/
lemma wp_apply (fault : Option Call) (root : AppRoot) (read : String → String) (plan : ComposePlan)
    (d : Disk) : wp (apply fault root read plan)
      (fun _ s' => s'.disk.stage = none ∧ appRootProblems root d.owned = [] ∧
        Written plan (stagedTree read plan) d s'.disk ∧
        ¬ MapFails fault plan d.replacementMap ∧ ¬ LockFails fault plan)
      (fun _ s' => s'.disk.stage = none ∧ (appRootProblems root d.owned ≠ [] ∧ Kept d s'.disk ∨
        appRootProblems root d.owned = [] ∧ Thrown fault plan (stagedTree read plan) d s'.disk))
      (start d) := by
  rw [apply, wp_bind, wp_get, wp_bind]
  refine wp_onlyIf (fun hrefused => ⟨rfl, .inl ⟨of_decide_eq_true hrefused, fun _ _ => rfl, rfl, rfl⟩⟩)
    fun hnone => ?_
  have hroot : appRootProblems root d.owned = [] := not_not.1 (of_decide_eq_false hnone)
  rw [wp_bind]
  refine wp_call (fun _ => ?_) fun hfault =>
    ⟨rfl, .inr ⟨hroot, .early ⟨fun _ _ => rfl, rfl, rfl⟩ ⟨_, hfault, rfl⟩⟩⟩
  rw [wp_tryFinally]
  refine wp_mono (fun _ s' h => ?_) (fun _ s' h => ?_) (@wp_build _ d _ read plan rfl)
  · exact ⟨rfl, hroot, ⟨h.1.owned, h.1.replacementMap, h.1.lock⟩, h.2⟩
  · refine ⟨rfl, .inr ⟨hroot, ?_⟩⟩
    cases h with
    | early hkept hearly => exact .early ⟨hkept.owned, hkept.replacementMap, hkept.lock⟩ hearly
    | map howned houtputs hfails =>
      exact .map howned ⟨houtputs.replacementMap, houtputs.lock⟩ hfails
    | lock howned hmap hlock hfails => exact .lock howned hmap hlock hfails

end Parts

/-! ### All or nothing -/

/-- **A run is all or nothing**: it returns with the new directories, map and lock, or throws with
all three as they were; the temporary directory is gone either way. -/
structure AllOrNothing (fault : Option Call) (root : AppRoot) (read : String → String)
    (plan : ComposePlan) (d : Disk) : Prop where
  returns : ∀ s, outcome (apply fault root read plan) (start d) = (.ok (), s) →
    Written plan (stagedTree read plan) d s.disk ∧ s.disk.stage = none
  throws : ∀ error s, outcome (apply fault root read plan) (start d) = (.error error, s) →
    Kept d s.disk ∧ s.disk.stage = none

/-- The owned directories are those the plan describes already. -/
def Composed (read : String → String) (plan : ComposePlan) (d : Disk) : Prop :=
  ∀ x ∈ ownedDirectories, d.owned x = stagedTree read plan x

/-- The failing call is not made once the directories are swapped, unless the swap (and the map
written before the lock) changes nothing. -/
structure FailsInTime (fault : Option Call) (read : String → String) (plan : ComposePlan)
    (d : Disk) : Prop where
  map : MapFails fault plan d.replacementMap → Composed read plan d
  lock : LockFails fault plan → Composed read plan d ∧
    plan.replacementMapText.or d.replacementMap = d.replacementMap

/-- A single call fails: one that is made early is none of the last ones. -/
lemma not_fails_of_early {fault : Option Call} {plan : ComposePlan} {old : Option String}
    (h : ∃ c, fault = some c ∧ c.isEarly = true) :
    ¬ MapFails fault plan old ∧ ¬ LockFails fault plan := by
  obtain ⟨c, rfl, hc⟩ := h
  constructor
  · rintro ⟨text, -, ⟨⟨h, -⟩ | ⟨-, h | h | h⟩⟩⟩ <;> cases h <;> cases hc
  · rintro ⟨-, h | h⟩ <;> cases h <;> cases hc

lemma not_mapFails_and_lockFails {fault : Option Call} {plan : ComposePlan} {old : Option String} :
    ¬ (MapFails fault plan old ∧ LockFails fault plan) := by
  rintro ⟨⟨text, -, ⟨h⟩⟩, -, rfl | rfl⟩
  · rcases h with ⟨h, -⟩ | ⟨-, h | h | h⟩ <;> cases h
  · rcases h with ⟨h, -⟩ | ⟨-, h | h | h⟩ <;> cases h

/-- **The failures a run survives**: a run is all or nothing exactly if it is refused, or the call
that fails is not one that writes the map or the lock, or nothing had changed when it is made. -/
theorem apply_allOrNothing_iff (fault : Option Call) (root : AppRoot) (read : String → String)
    (plan : ComposePlan) (d : Disk) :
    AllOrNothing fault root read plan d ↔
      appRootProblems root d.owned ≠ [] ∨ FailsInTime fault read plan d := by
  have hrun := wp_apply fault root read plan d
  rw [wp] at hrun
  constructor
  · rintro ⟨hreturns, hthrows⟩
    refine or_iff_not_imp_left.2 fun hroot => ?_
    rcases hout : outcome (apply fault root read plan) (start d) with ⟨error | ⟨⟩, s⟩
    · rw [hout] at hrun
      obtain ⟨hkept, -⟩ := hthrows error s hout
      obtain ⟨-, ⟨hcon, -⟩ | ⟨-, hthrown⟩⟩ := hrun
      · exact absurd hcon hroot
      cases hthrown with
      | early _ hearly =>
        obtain ⟨hmap, hlock⟩ := @not_fails_of_early _ plan _ hearly
        exact ⟨fun h => absurd h hmap, fun h => absurd h hlock⟩
      | map howned _ hfails =>
        have hcomposed : Composed read plan d := fun x hx =>
          (hkept.owned x hx).symm.trans (howned x hx)
        refine ⟨fun _ => hcomposed, fun hlock => ?_⟩
        exact absurd ⟨hfails, hlock⟩ not_mapFails_and_lockFails
      | lock howned hmap _ hfails =>
        have hcomposed : Composed read plan d := fun x hx =>
          (hkept.owned x hx).symm.trans (howned x hx)
        exact ⟨fun _ => hcomposed, fun _ => ⟨hcomposed, hmap.symm.trans hkept.replacementMap⟩⟩
    · rw [hout] at hrun
      obtain ⟨-, -, -, hmap, hlock⟩ := hrun
      exact ⟨fun h => absurd h hmap, fun h => absurd h hlock⟩
  · intro hcondition
    refine ⟨fun s hout => ?_, fun error s hout => ?_⟩
    · rw [hout] at hrun
      exact ⟨hrun.2.2.1, hrun.1⟩
    · rw [hout] at hrun
      obtain ⟨hstage, ⟨-, hkept⟩ | ⟨hroot, hthrown⟩⟩ := hrun
      · exact ⟨hkept, hstage⟩
      have hintime := hcondition.resolve_left (not_not.2 hroot)
      refine ⟨?_, hstage⟩
      cases hthrown with
      | early hkept _ => exact hkept
      | map howned houtputs hfails =>
        exact ⟨fun x hx => (howned x hx).trans (hintime.map hfails x hx).symm,
          houtputs.replacementMap, houtputs.lock⟩
      | lock howned hmap hlock hfails =>
        obtain ⟨hcomposed, hsame⟩ := hintime.lock hfails
        exact ⟨fun x hx => (howned x hx).trans (hcomposed x hx).symm, hmap.trans hsame, hlock⟩

/-! ### A lock that cannot be written -/

/-- An app with one file and a lock. -/
def smallApp : Disk where
  owned name := if name = "src" then some fun path => if path = "app.html" then some "old" else none
    else none
  replacementMap := none
  lock := some "old lock"
  temp := none
  stage := none

def smallRoot : AppRoot := ⟨"/app", "/app", true, false, fun _ => true⟩

/-- A plan that changes the file and writes a lock. -/
def smallPlan : ComposePlan where
  files := ⟨[("src/app.html", .text "new")], by decide⟩
  replacementMapText := none
  lockText := some "new lock"

/-- **A failed write of the lock leaves the new directories with the old lock.** -/
theorem lockFailure_leavesNewTree : ∃ s,
    outcome (apply (some (.writeTemp .lock)) smallRoot (fun _ => "") smallPlan) (start smallApp) =
      (.error (.failed (.writeTemp .lock)), s) ∧
    (s.disk.owned "src").bind (· "app.html") = some "new" ∧ s.disk.lock = some "old lock" ∧
    ¬ AllOrNothing (some (.writeTemp .lock)) smallRoot (fun _ => "") smallPlan smallApp := by
  have hrun : ∃ s,
      outcome (apply (some (.writeTemp .lock)) smallRoot (fun _ => "") smallPlan) (start smallApp) =
        (.error (.failed (.writeTemp .lock)), s) ∧
      (s.disk.owned "src").bind (· "app.html") = some "new" ∧ s.disk.lock = some "old lock" :=
    ⟨_, rfl, by decide, rfl⟩
  obtain ⟨s, hout, hsrc, hlock⟩ := hrun
  refine ⟨s, hout, hsrc, hlock, fun hall => ?_⟩
  have hkept := (hall.throws _ s hout).1.owned "src" (by decide)
  rw [hkept] at hsrc
  exact absurd hsrc (by decide)

end Composition
