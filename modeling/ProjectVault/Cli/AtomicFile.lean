import ProjectVault.Run.Fallible

/-!
The atomic, owner-only file writer (`cli/src/atomic-file.ts`).
-/

namespace AtomicFile

open Run Run.Fallible

inductive ErrorCode where
  | eexist | eperm | enotsup | eopnotsupp | enosys | eio
  | other (code : String)
  deriving DecidableEq

/-- A regular file: its bytes and its permission bits. -/
structure Entry where
  content : List UInt8
  mode : ℕ
  deriving DecidableEq

/-- The two names a write works on. -/
inductive Place where
  | temp | target

/-- What stands under the random temporary name of a write and under its target. -/
structure Disk where
  temp : Option Entry
  target : Option Entry
  deriving DecidableEq

def Disk.get (d : Disk) : Place → Option Entry
  | .temp => d.temp
  | .target => d.target

def Disk.set (d : Disk) (e : Option Entry) : Place → Disk
  | .temp => { d with temp := e }
  | .target => { d with target := e }

/-- The disk, and all disks up to now, the latest one first. -/
structure World where
  disk : Disk
  seen : List Disk

/-! ### The system -/

inductive WriteReply where
  | wrote (bytes : ℕ)
  | failed (code : ErrorCode)

/-- The answers of the system to the calls of one write. -/
structure Schedule where
  /-- The failure of an attempt to create the temporary file, if it fails. -/
  openTemp : ℕ → Option ErrorCode
  /-- The failure of the exclusive creation of the target by the fallback. -/
  openTarget : Option ErrorCode
  /-- The mode of a file that is created with `FILE_MODE`: the umask narrows it and some platforms
  widen it. -/
  openMode : ℕ
  /-- The reply to each call of `write`. -/
  write : Place → ℕ → WriteReply
  fsync : Place → Option ErrorCode
  close : Place → Option ErrorCode
  chmod : Place → Option ErrorCode
  rename : Option ErrorCode
  link : Option ErrorCode

abbrev Io : Type → Type := Fallible World ErrorCode

/-- A call that changes the disk. -/
def change (f : Disk → Disk) : Io Unit :=
  modify fun w => ⟨f w.disk, f w.disk :: w.seen⟩

/-- A call that may fail. -/
def check : Option ErrorCode → Io Unit
  | none => pure ()
  | some code => throw code

def fileMode : ℕ := 0o600

def linkUnsupportedCodes : List ErrorCode := [.eperm, .enotsup, .eopnotsupp, .enosys]

variable (os : Schedule)

/-- `fs.openSync(path, 'wx', FILE_MODE)`. -/
def openSync (fault : Option ErrorCode) (place : Place) : Io Unit := do
  check fault
  let w ← get
  if (w.disk.get place).isSome then throw .eexist
  change fun d => d.set (some ⟨[], os.openMode⟩) place

/-- `fs.writeSync(fd, bytes, offset, …)` of some bytes behind those the file has. -/
def append (bytes : List UInt8) (place : Place) (d : Disk) : Disk :=
  d.set ((d.get place).map fun e => { e with content := e.content ++ bytes }) place

def chmodSync (place : Place) : Io Unit := do
  check (os.chmod place)
  change fun d => d.set ((d.get place).map fun e => { e with mode := fileMode }) place

/-- `fs.renameSync(tmpPath, target)`. -/
def renameSync : Io Unit := do
  check os.rename
  change fun d => ⟨none, d.temp⟩

/-- `fs.linkSync(tmpPath, target)`. -/
def linkSync : Io Unit := do
  check os.link
  let w ← get
  if w.disk.target.isSome then throw .eexist
  change fun d => { d with target := d.temp }

def unlinkIfPresent (place : Place) : Io Unit := change fun d => d.set none place

/-! ### The writer -/

/-- The loop of `writeFully` on the bytes that are left, `call` counting its calls. -/
def writeFully (place : Place) (call : ℕ) : List UInt8 → Io Unit
  | [] => pure ()
  | b :: rest =>
    match os.write place call with
    | .failed code => throw code
    | .wrote 0 => throw .eio
    | .wrote (n + 1) => do
        change (append (b :: rest.take n) place)
        writeFully place (call + 1) (rest.drop n)
  termination_by bytes => bytes.length
  decreasing_by simp

def writeAndClose (place : Place) (data : List UInt8) : Io Unit :=
  tryFinally (do
    writeFully os place 0 data
    check (os.fsync place))
    (check (os.close place))

def openTemp : Io Unit :=
  tryCatch (openSync os (os.openTemp 0) .temp) fun code =>
    if code ≠ .eexist then throw code else openSync os (os.openTemp 1) .temp

/-- Where `link` is unsupported: an exclusive create of the target, written in place. -/
def commitFallback (data : List UInt8) : Io Unit := do
  openSync os os.openTarget .target
  tryCatch (do
    writeAndClose os .target data
    chmodSync os .target)
    fun code => do
      unlinkIfPresent .target
      throw code

def commitExclusive (data : List UInt8) : Io Unit :=
  tryCatch (linkSync os) fun code =>
    if code ∉ linkUnsupportedCodes then throw code else commitFallback os data

/-- `writeFileAtomicOwnerOnly(target, data, { exclusive })`. -/
def writeFileAtomicOwnerOnly (exclusive : Bool) (data : List UInt8) : Io Unit := do
  openTemp os
  tryFinally (do
    writeAndClose os .temp data
    chmodSync os .temp
    if exclusive then commitExclusive os data else renameSync os)
    (unlinkIfPresent .temp)

/-! ### What each call leaves -/

section Calls

variable {os} {w : World}
variable {E : ErrorCode → World → Prop} {Q : Unit → World → Prop}

lemma wp_change (f : Disk → Disk) :
    wp (change f) Q E w ↔ Q () ⟨f w.disk, f w.disk :: w.seen⟩ := Iff.rfl

lemma wp_check {fault : Option ErrorCode} (hok : Q () w)
    (herr : ∀ code, fault = some code → E code w) : wp (check fault) Q E w := by
  cases fault with
  | none => exact hok
  | some code => exact herr code rfl

@[simp] lemma append_nil (place : Place) (d : Disk) : append [] place d = d := by
  cases place with
  | temp => obtain ⟨_ | e, t⟩ := d <;> simp [append, Disk.get, Disk.set]
  | target => obtain ⟨t, _ | e⟩ := d <;> simp [append, Disk.get, Disk.set]

lemma append_append (xs ys : List UInt8) (place : Place) (d : Disk) :
    append ys place (append xs place d) = append (xs ++ ys) place d := by
  cases place with
  | temp => obtain ⟨_ | e, t⟩ := d <;> simp [append, Disk.get, Disk.set]
  | target => obtain ⟨t, _ | e⟩ := d <;> simp [append, Disk.get, Disk.set]

/-- All bytes are written, or a part of them where a write fails; on the way the file holds a part
of them. -/
lemma wp_writeFully {I : Disk → Prop} (place : Place) (data : List UInt8) (call : ℕ)
    (hseen : ∀ d ∈ w.seen, I d) (hI : ∀ part, part <+: data → I (append part place w.disk)) :
    wp (writeFully os place call data)
      (fun _ w' => w'.disk = append data place w.disk ∧ ∀ d ∈ w'.seen, I d)
      (fun _ w' => (∃ part, part <+: data ∧ w'.disk = append part place w.disk) ∧
        ∀ d ∈ w'.seen, I d) w := by
  have hnothing : (∃ part, part <+: data ∧ w.disk = append part place w.disk) ∧
      ∀ d ∈ w.seen, I d :=
    ⟨⟨[], List.nil_prefix, (append_nil place w.disk).symm⟩, hseen⟩
  induction call, data using writeFully.induct os place generalizing w with
  | case1 call =>
    rw [writeFully]
    exact ⟨(append_nil place w.disk).symm, hseen⟩
  | case2 call b rest code hreply =>
    rw [writeFully, hreply]
    exact hnothing
  | case3 call b rest hreply =>
    rw [writeFully, hreply]
    exact hnothing
  | case4 call b rest n hreply ih =>
    have hsplit : b :: rest = (b :: rest.take n) ++ rest.drop n := by
      rw [List.cons_append, List.take_append_drop]
    have hpart : ∀ part, part <+: rest.drop n → (b :: rest.take n) ++ part <+: b :: rest :=
      fun part h => by
        rw [hsplit]
        exact (List.prefix_append_right_inj _).2 h
    rw [writeFully, hreply]
    simp only [wp_bind, wp_change]
    have hfirst : I (append (b :: rest.take n) place w.disk) :=
      hI _ (by simpa using hpart [] List.nil_prefix)
    refine wp_mono ?_ ?_ (ih (List.forall_mem_cons.2 ⟨hfirst, hseen⟩) ?_ ?_)
    · rintro - w' ⟨hdisk, hw'⟩
      rw [hdisk, append_append, ← hsplit]
      exact ⟨rfl, hw'⟩
    · rintro - w' ⟨⟨part, hprefix, hdisk⟩, hw'⟩
      rw [hdisk, append_append]
      exact ⟨⟨_, hpart part hprefix, rfl⟩, hw'⟩
    · intro part hprefix
      rw [append_append]
      exact hI _ (hpart part hprefix)
    · exact ⟨⟨[], List.nil_prefix, (append_nil _ _).symm⟩, List.forall_mem_cons.2 ⟨hfirst, hseen⟩⟩

/-- Writing, flushing and closing a file: as `wp_writeFully`, the failures of the last two calls
included. -/
lemma wp_writeAndClose {I : Disk → Prop} (place : Place) (data : List UInt8)
    (hseen : ∀ d ∈ w.seen, I d) (hI : ∀ part, part <+: data → I (append part place w.disk)) :
    wp (writeAndClose os place data)
      (fun _ w' => w'.disk = append data place w.disk ∧ ∀ d ∈ w'.seen, I d)
      (fun _ w' => (∃ part, part <+: data ∧ w'.disk = append part place w.disk) ∧
        ∀ d ∈ w'.seen, I d) w := by
  rw [writeAndClose, wp_tryFinally, wp_bind]
  refine wp_mono ?_ ?_ (wp_writeFully place data 0 hseen hI)
  · rintro - w' ⟨hdisk, hw'⟩
    have herr : (∃ part, part <+: data ∧ w'.disk = append part place w.disk) ∧
        ∀ d ∈ w'.seen, I d := ⟨⟨data, List.prefix_rfl, hdisk⟩, hw'⟩
    exact wp_check (wp_check ⟨hdisk, hw'⟩ fun _ _ => herr)
      fun _ _ => wp_check herr fun _ _ => herr
  · rintro - w' herr
    exact wp_check herr fun _ _ => herr

/-- A file is created where there is none. -/
lemma wp_openSync (place : Place) {fault : Option ErrorCode}
    (hok : (w.disk.get place).isSome = false →
      Q () ⟨w.disk.set (some ⟨[], os.openMode⟩) place,
        w.disk.set (some ⟨[], os.openMode⟩) place :: w.seen⟩) (herr : ∀ code, E code w) :
    wp (openSync os fault place) Q E w := by
  rw [openSync, wp_bind]
  refine wp_check ?_ fun code _ => herr code
  simp only [wp_bind, wp_get]
  cases hsome : (w.disk.get place).isSome with
  | true => exact herr _
  | false => exact hok hsome

lemma wp_chmodSync (place : Place)
    (hok : Q () ⟨w.disk.set ((w.disk.get place).map fun e => { e with mode := fileMode }) place,
      w.disk.set ((w.disk.get place).map fun e => { e with mode := fileMode }) place :: w.seen⟩)
    (herr : ∀ code, E code w) : wp (chmodSync os place) Q E w := by
  rw [chmodSync, wp_bind]
  exact wp_check hok fun code _ => herr code

end Calls

/-! ### The write as a whole -/

/-- The file system does not support hard links, as it answers to `link`. -/
def LinkUnsupported (os : Schedule) : Prop := ∃ code ∈ linkUnsupportedCodes, os.link = some code

/-- The disk before a write, which has seen no other. -/
def start (initial : Option Entry) : World := ⟨⟨none, initial⟩, [⟨none, initial⟩]⟩

/-- The target is as it was or as it is meant to be. -/
def Whole (initial : Option Entry) (data : List UInt8) (d : Disk) : Prop :=
  d.target = initial ∨ d.target = some ⟨data, fileMode⟩

/-- The target of the fallback while it is written: it was absent, holds a part of the data and has
the mode it was created with or the one it is meant to have. -/
structure InPlace (os : Schedule) (initial : Option Entry) (data : List UInt8) (d : Disk) :
    Prop where
  unsupported : LinkUnsupported os
  absent : initial = none
  partly : ∃ e, d.target = some e ∧ e.content <+: data ∧ (e.mode = os.openMode ∨ e.mode = fileMode)

/-- What the target may hold on the way. -/
def OnTheWay (os : Schedule) (exclusive : Bool) (initial : Option Entry) (data : List UInt8)
    (d : Disk) : Prop :=
  Whole initial data d ∨ exclusive = true ∧ InPlace os initial data d

section Write

variable {os} {w : World} {initial : Option Entry} {data : List UInt8}

/-- What a commit leaves, the temporary file apart: the target as meant, or as it was where the
commit fails. -/
structure Committed (I : Disk → Prop) (target : Option Entry) (w : World) : Prop where
  target : w.disk.target = target
  seen : ∀ d ∈ w.seen, I d

lemma wp_renameSync {e : Entry} {I : Disk → Prop} (hdisk : w.disk = ⟨some e, initial⟩)
    (hseen : ∀ d ∈ w.seen, I d) (hI : ∀ temp, I ⟨temp, some e⟩) :
    wp (renameSync os) (fun _ => Committed I (some e)) (fun _ => Committed I initial) w := by
  rw [renameSync, wp_bind]
  refine wp_check ?_ fun code _ => ⟨by rw [hdisk], hseen⟩
  rw [wp_change, hdisk]
  exact ⟨rfl, List.forall_mem_cons.2 ⟨hI none, hseen⟩⟩

lemma wp_linkSync {e : Entry} {I : Disk → Prop} (hdisk : w.disk = ⟨some e, initial⟩)
    (hseen : ∀ d ∈ w.seen, I d) (hI : ∀ temp, I ⟨temp, some e⟩) :
    wp (linkSync os) (fun _ => Committed I (some e))
      (fun code w' => w' = w ∧ (code ∈ linkUnsupportedCodes → LinkUnsupported os)) w := by
  rw [linkSync, wp_bind]
  refine wp_check ?_ fun code hcode => ⟨rfl, fun hmem => ⟨code, hmem, hcode⟩⟩
  obtain ⟨disk, seen⟩ := w
  subst hdisk
  cases initial with
  | some old => exact ⟨rfl, fun h => absurd h (by decide)⟩
  | none => exact ⟨rfl, List.forall_mem_cons.2 ⟨hI _, hseen⟩⟩

lemma wp_commitFallback {e : Entry} (hdisk : w.disk = ⟨some e, initial⟩)
    (hlink : LinkUnsupported os) (hseen : ∀ d ∈ w.seen, OnTheWay os true initial data d) :
    wp (commitFallback os data)
      (fun _ => Committed (OnTheWay os true initial data) (some ⟨data, fileMode⟩))
      (fun _ => Committed (OnTheWay os true initial data) initial) w := by
  rw [commitFallback, wp_bind]
  refine wp_openSync .target (fun habsent => ?_) fun code => ⟨by rw [hdisk], hseen⟩
  obtain rfl : initial = none := by
    rw [hdisk] at habsent
    exact Option.isNone_iff_eq_none.1 (by simpa [Disk.get] using habsent)
  have hpart : ∀ part mode, part <+: data → (mode = os.openMode ∨ mode = fileMode) →
      OnTheWay os true none data ⟨some e, some ⟨part, mode⟩⟩ := fun part mode hprefix hmode =>
    .inr ⟨rfl, hlink, rfl, _, rfl, hprefix, hmode⟩
  -- whatever fails behind the creation, the target is removed
  have hremove : ∀ code w', (∀ d ∈ w'.seen, OnTheWay os true none data d) →
      wp (do unlinkIfPresent .target; throw code : Io Unit)
        (fun _ => Committed (OnTheWay os true none data) (some ⟨data, fileMode⟩))
        (fun _ => Committed (OnTheWay os true none data) none) w' := fun code w' hw' =>
    ⟨rfl, List.forall_mem_cons.2 ⟨.inl (.inl rfl), hw'⟩⟩
  rw [hdisk, wp_tryCatch, wp_bind]
  refine wp_mono ?_ ?_ (wp_writeAndClose .target data (I := OnTheWay os true none data)
    (List.forall_mem_cons.2 ⟨hpart [] _ List.nil_prefix (.inl rfl), hseen⟩)
    fun part hprefix => hpart part _ hprefix (.inl rfl))
  · rintro - w' ⟨hwritten, hw'⟩
    refine wp_chmodSync .target ?_ fun code => hremove code w' hw'
    rw [hwritten]
    exact ⟨rfl, List.forall_mem_cons.2 ⟨hpart data _ List.prefix_rfl (.inr rfl), hw'⟩⟩
  · rintro code w' ⟨-, hw'⟩
    exact hremove code w' hw'

/-- Either way of committing leaves the target as meant, or as it was where it fails. -/
lemma wp_commit {exclusive : Bool} (hdisk : w.disk = ⟨some ⟨data, fileMode⟩, initial⟩)
    (hseen : ∀ d ∈ w.seen, OnTheWay os exclusive initial data d) :
    wp (if exclusive then commitExclusive os data else renameSync os)
      (fun _ => Committed (OnTheWay os exclusive initial data) (some ⟨data, fileMode⟩))
      (fun _ => Committed (OnTheWay os exclusive initial data) initial) w := by
  have hmeant : ∀ temp, OnTheWay os exclusive initial data ⟨temp, some ⟨data, fileMode⟩⟩ :=
    fun _ => .inl (.inr rfl)
  cases exclusive with
  | false => exact wp_renameSync hdisk hseen hmeant
  | true =>
    rw [if_pos rfl, commitExclusive, wp_tryCatch]
    refine wp_mono (fun _ _ h => h) ?_ (wp_linkSync hdisk hseen hmeant)
    rintro code w' ⟨rfl, hcode⟩
    by_cases hmem : code ∈ linkUnsupportedCodes
    · rw [if_neg (not_not.2 hmem)]
      exact wp_commitFallback hdisk (hcode hmem) hseen
    · rw [if_pos hmem]
      exact ⟨by rw [hdisk], hseen⟩

/-- What a write leaves: the target as given and no temporary file. -/
structure Finished (I : Disk → Prop) (target : Option Entry) (w : World) : Prop where
  disk : w.disk = ⟨none, target⟩
  seen : ∀ d ∈ w.seen, I d

/-- Once the temporary file is there, it is removed on every way out. -/
lemma wp_writeTemp {exclusive : Bool} {mode : ℕ} (hdisk : w.disk = ⟨some ⟨[], mode⟩, initial⟩)
    (hseen : ∀ d ∈ w.seen, OnTheWay os exclusive initial data d) :
    wp (tryFinally (do
        writeAndClose os .temp data
        chmodSync os .temp
        if exclusive then commitExclusive os data else renameSync os)
        (unlinkIfPresent .temp))
      (fun _ => Finished (OnTheWay os exclusive initial data) (some ⟨data, fileMode⟩))
      (fun _ => Finished (OnTheWay os exclusive initial data) initial) w := by
  have hkept : ∀ temp, OnTheWay os exclusive initial data ⟨temp, initial⟩ := fun _ => .inl (.inl rfl)
  have hunlink : ∀ target w', Committed (OnTheWay os exclusive initial data) target w' →
      (∀ temp, OnTheWay os exclusive initial data ⟨temp, target⟩) →
      Finished (OnTheWay os exclusive initial data) target
        ⟨w'.disk.set none .temp, w'.disk.set none .temp :: w'.seen⟩ := by
    rintro target ⟨⟨temp, _⟩, seen⟩ ⟨rfl, hw'⟩ htarget
    exact ⟨rfl, List.forall_mem_cons.2 ⟨htarget none, hw'⟩⟩
  have hmeant : ∀ temp, OnTheWay os exclusive initial data ⟨temp, some ⟨data, fileMode⟩⟩ :=
    fun _ => .inl (.inr rfl)
  rw [wp_tryFinally, wp_bind]
  refine wp_mono ?_ ?_ (wp_writeAndClose .temp data (I := OnTheWay os exclusive initial data) hseen
    fun part _ => by rw [hdisk]; exact hkept _)
  · rintro - w' ⟨hwritten, hw'⟩
    rw [hdisk] at hwritten
    rw [wp_bind]
    refine wp_chmodSync .temp ?_ fun code => hunlink initial w' ⟨by rw [hwritten]; rfl, hw'⟩ hkept
    rw [hwritten]
    refine wp_mono ?_ ?_ (@wp_commit os _ initial data exclusive rfl
      (List.forall_mem_cons.2 ⟨hkept _, hw'⟩))
    · exact fun _ w'' h => hunlink _ w'' h hmeant
    · exact fun _ w'' h => hunlink _ w'' h hkept
  · rintro code w' ⟨⟨part, -, hwritten⟩, hw'⟩
    rw [hdisk] at hwritten
    exact hunlink initial w' ⟨by rw [hwritten]; rfl, hw'⟩ hkept

/-- The writer leaves the target with the data and the owner-only mode, or as it was where it
throws, and no temporary file. -/
lemma wp_writeFileAtomicOwnerOnly (os : Schedule) (exclusive : Bool) (initial : Option Entry)
    (data : List UInt8) : wp (writeFileAtomicOwnerOnly os exclusive data)
      (fun _ => Finished (OnTheWay os exclusive initial data) (some ⟨data, fileMode⟩))
      (fun _ => Finished (OnTheWay os exclusive initial data) initial) (start initial) := by
  have hkept : ∀ temp, OnTheWay os exclusive initial data ⟨temp, initial⟩ := fun _ => .inl (.inl rfl)
  have hstart : ∀ d ∈ (start initial).seen, OnTheWay os exclusive initial data d :=
    List.forall_mem_cons.2 ⟨hkept none, fun _ h => absurd h List.not_mem_nil⟩
  have hunopened : Finished (OnTheWay os exclusive initial data) initial (start initial) :=
    ⟨rfl, hstart⟩
  have hopened := @wp_writeTemp os ⟨⟨some ⟨[], os.openMode⟩, initial⟩,
      ⟨some ⟨[], os.openMode⟩, initial⟩ :: (start initial).seen⟩ initial data exclusive os.openMode
    rfl (List.forall_mem_cons.2 ⟨hkept _, hstart⟩)
  rw [writeFileAtomicOwnerOnly, wp_bind, openTemp, wp_tryCatch]
  refine wp_openSync .temp (fun _ => hopened) fun code => ?_
  by_cases hexist : code ≠ .eexist
  · rw [if_pos hexist]
    exact hunopened
  · rw [if_neg hexist]
    exact wp_openSync .temp (fun _ => hopened) fun _ => hunopened

end Write

/-- **A write is atomic**: where it returns, the target holds exactly the data with the owner-only
mode; where it throws, the target is as it was; no temporary file is left either way, and every disk
on the way has the target satisfy `I`. -/
structure Atomic (os : Schedule) (exclusive : Bool) (initial : Option Entry) (data : List UInt8)
    (I : Disk → Prop) : Prop where
  returns : ∀ w, outcome (writeFileAtomicOwnerOnly os exclusive data) (start initial) = (.ok (), w) →
    w.disk = ⟨none, some ⟨data, fileMode⟩⟩
  throws : ∀ code w, outcome (writeFileAtomicOwnerOnly os exclusive data) (start initial) =
    (.error code, w) → w.disk = ⟨none, initial⟩
  onTheWay : ∀ r w, outcome (writeFileAtomicOwnerOnly os exclusive data) (start initial) = (r, w) →
    ∀ d ∈ w.seen, I d

/-- **The writer is atomic** for every schedule of short writes and failures: the target is at every
step as it was or as it is meant to be, unless an exclusive write falls back to writing the absent
target in place because links are unsupported. -/
theorem writeFileAtomicOwnerOnly_atomic (os : Schedule) (exclusive : Bool) (initial : Option Entry)
    (data : List UInt8) :
    Atomic os exclusive initial data (OnTheWay os exclusive initial data) := by
  have h := wp_writeFileAtomicOwnerOnly os exclusive initial data
  rw [wp] at h
  refine ⟨fun w hw => ?_, fun code w hw => ?_, fun r w hw => ?_⟩
  · rw [hw] at h
    exact h.disk
  · rw [hw] at h
    exact h.disk
  · rw [hw] at h
    cases r with
    | ok a => exact h.seen
    | error e => exact h.seen

/-- A system on which nothing fails and links are not supported. -/
def linkless : Schedule where
  openTemp _ := none
  openTarget := none
  openMode := fileMode
  write _ _ := .wrote 1
  fsync _ := none
  close _ := none
  chmod _ := none
  rename := none
  link := some .eperm

lemma writeFully_linkless (place : Place) : writeFully linkless place 0 [104, 105] = (do
    change (append [104] place)
    change (append [105] place)
    pure ()) := by
  rw [writeFully, linkless]
  simp only [List.take_zero, List.drop_zero]
  rw [writeFully]
  simp only [List.take_zero, List.drop_zero]
  rw [writeFully]

/-- **An exclusive write without links shows a partial file**: of two bytes that are written one by
one the target holds the first one alone for a while. -/
theorem linkless_partial : ∃ w, outcome (writeFileAtomicOwnerOnly linkless true [104, 105])
      (start none) = (.ok (), w) ∧ ⟨some ⟨[104, 105], fileMode⟩, some ⟨[104], fileMode⟩⟩ ∈ w.seen ∧
    ¬ Atomic linkless true none [104, 105] (Whole none [104, 105]) := by
  have hrun : ∃ w, outcome (writeFileAtomicOwnerOnly linkless true [104, 105]) (start none) =
      (.ok (), w) ∧ ⟨some ⟨[104, 105], fileMode⟩, some ⟨[104], fileMode⟩⟩ ∈ w.seen := by
    simp only [writeFileAtomicOwnerOnly, commitExclusive, commitFallback, writeAndClose,
      writeFully_linkless]
    exact ⟨_, rfl, by decide⟩
  obtain ⟨w, hw, hmem⟩ := hrun
  refine ⟨w, hw, hmem, fun hatomic => ?_⟩
  rcases hatomic.onTheWay _ w hw _ hmem with h | h
  · exact absurd h (by decide)
  · exact absurd h (by decide)

end AtomicFile
