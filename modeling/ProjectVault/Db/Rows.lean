import ProjectVault.Db.Logic
import ProjectVault.Db.Table

/-!
Tables whose rows are changed one by one, each under its own lock.
-/

namespace Db

variable {D K R Row ε : Type}

/-! ### Tables and statements -/

/-- A table: its rows in the data, the id of a row, and the lock of an id. -/
structure Table (D K Row : Type) where
  rows : D → List Row
  modify : (List Row → List Row) → D → D
  rows_modify : ∀ f d, rows (modify f d) = f (rows d)
  id : Row → ℕ
  lock : ℕ → K
  lock_injective : Function.Injective lock

namespace Table

variable (T : Table D K Row)

/-- The row of an id. -/
def find (d : D) (n : ℕ) : Option Row := (T.rows d).find? fun r => T.id r = n

/-- The ids in use. -/
def ids (d : D) : List ℕ := (T.rows d).map T.id

/-- The row of an id, if it meets a condition. -/
def candidate (n : ℕ) (cond : Ctx D → Row → Bool) (c : Ctx D) : Option Row :=
  (T.find c.view n).filter (cond c)

/-- `UPDATE … SET … WHERE id = … AND … RETURNING *`: one row, which is waited for and
seen as it is then. -/
def updateRow (n : ℕ) (cond : Ctx D → Row → Bool) (set : Ctx D → Row → Row) :
    Prog D K R (Option Row) :=
  .update (fun c => ((T.candidate n cond c).map fun _ => T.lock n).toList)
    (fun c d => if (T.candidate n cond c).isSome then
      T.modify (updateWhere (fun r => T.id r = n) (set c)) d else d)
    (fun c => (T.candidate n cond c).map (set c))

/-- The rows of some ids, one after another. -/
def updateEach (cond : Ctx D → Row → Bool) (set : Ctx D → Row → Row) :
    List ℕ → Prog D K R (List Row)
  | [] => pure []
  | n :: ns => do
      let row ← T.updateRow n cond set
      let rows ← updateEach cond set ns
      return row.toList ++ rows

/-- `UPDATE … SET … WHERE … RETURNING *`: the rows are found first, and each is looked at
again once its lock is there. -/
def updateRows (cond : Ctx D → Row → Bool) (set : Ctx D → Row → Row) : Prog D K R (List Row) := do
  let found ← .query fun c => ((T.rows c.view).filter (cond c)).map T.id
  T.updateEach cond set found

/-- `SELECT * … WHERE id = … AND … FOR UPDATE`: one row, which is waited for and seen as it is
then. -/
def selectForUpdate (n : ℕ) (cond : Ctx D → Row → Bool) : Prog D K R (Option Row) :=
  .update (fun c => ((T.candidate n cond c).map fun _ => T.lock n).toList) (fun _ d => d)
    (T.candidate n cond)

/-- `INSERT INTO … RETURNING *`. -/
def insertRow (values : Ctx D → Row) : Prog D K R Row :=
  .update (fun c => [T.lock (T.id (values c))]) (fun c => T.modify fun rows => rows ++ [values c])
    values

/-- Ids are unique and drawn from the sequence. -/
structure Keyed (w : World D K R) : Prop where
  nodup : (T.ids w.db).Nodup
  drawn : ∀ r ∈ T.rows w.db, T.id r < w.seq

variable {T}

lemma find_eq_some {d : D} {n : ℕ} {r : Row} (h : T.find d n = some r) :
    r ∈ T.rows d ∧ T.id r = n := by
  refine ⟨List.mem_of_find?_eq_some h, ?_⟩
  simpa using List.find?_some h

lemma find_isSome_iff {d : D} {n : ℕ} : (∃ r, T.find d n = some r) ↔ n ∈ T.ids d := by
  constructor
  · rintro ⟨r, hr⟩
    obtain ⟨hmem, rfl⟩ := find_eq_some hr
    exact List.mem_map_of_mem hmem
  · intro h
    obtain ⟨r, hr, hid⟩ := List.mem_map.1 h
    exact Option.isSome_iff_exists.1 (List.find?_isSome.2 ⟨r, hr, by simpa using hid⟩)

lemma find_eq_none {d : D} {n : ℕ} (h : n ∉ T.ids d) : T.find d n = none := by
  cases hr : T.find d n with
  | none => rfl
  | some r => exact absurd (find_isSome_iff.1 ⟨r, hr⟩) h

lemma find_of_mem {d : D} (hnodup : (T.ids d).Nodup) {r : Row} (hr : r ∈ T.rows d) :
    T.find d (T.id r) = some r := by
  obtain ⟨r', hr'⟩ := find_isSome_iff.2 (List.mem_map_of_mem hr : T.id r ∈ T.ids d)
  obtain ⟨hmem, hid⟩ := find_eq_some hr'
  rw [hr', List.inj_on_of_nodup_map hnodup hmem hr hid]

lemma candidate_eq_some {n : ℕ} {cond : Ctx D → Row → Bool} {c : Ctx D} {r : Row} :
    T.candidate n cond c = some r ↔ T.find c.view n = some r ∧ cond c r = true :=
  Option.filter_eq_some_iff

end Table

/-! ### Edits -/

/-- What statements can do to the rows of a table, and when. -/
structure Edits (T : Table D K Row) (ε : Type) where
  guard : ε → Row → Prop
  apply : ε → Row → Row
  id_apply : ∀ e r, T.id (apply e r) = T.id r

namespace Edits

variable {T : Table D K Row} (E : Edits T ε)
variable {new : List Row} {l : Local D K} {r : Row} {held : Set K} {w : World D K R} {n : ℕ}
  {script : ℕ → List ε}

/-- A row after some edits. -/
def run (es : List ε) (r : Row) : Row := es.foldl (fun r e => E.apply e r) r

/-- Each of the edits can be made when it is its turn. -/
def Applied : List ε → Row → Prop
  | [], _ => True
  | e :: es, r => E.guard e r ∧ Applied es (E.apply e r)

/-- The edits of a transaction, row by row. -/
def play (script : ℕ → List ε) (r : Row) : Row := E.run (script (T.id r)) r

variable {E}

@[simp] lemma run_nil (r : Row) : E.run [] r = r := rfl

@[simp] lemma run_cons (e : ε) (es : List ε) (r : Row) :
    E.run (e :: es) r = E.run es (E.apply e r) := rfl

lemma run_append (es es' : List ε) (r : Row) : E.run (es ++ es') r = E.run es' (E.run es r) :=
  List.foldl_append

@[simp] lemma id_run (es : List ε) (r : Row) : T.id (E.run es r) = T.id r := by
  induction es generalizing r with
  | nil => rfl
  | cons e es ih => rw [run_cons, ih, E.id_apply]

@[simp] lemma id_play (script : ℕ → List ε) (r : Row) : T.id (E.play script r) = T.id r :=
  id_run _ r

lemma applied_append {es es' : List ε} :
    E.Applied (es ++ es') r ↔ E.Applied es r ∧ E.Applied es' (E.run es r) := by
  induction es generalizing r with
  | nil => simp [Applied]
  | cons e es ih => simp [Applied, ih, and_assoc]

lemma applied_singleton {e : ε} : E.Applied [e] r ↔ E.guard e r := by
  simp [Applied]

/-- **Row rule**: what every edit keeps, every run of edits keeps. -/
lemma Applied.keeps {I : Row → Prop} {es : List ε} (h : E.Applied es r)
    (hstep : ∀ e ∈ es, ∀ r, E.guard e r → I r → I (E.apply e r)) (hr : I r) : I (E.run es r) := by
  induction es generalizing r with
  | nil => exact hr
  | cons e es ih =>
    exact ih h.2 (fun e' he' => hstep e' (List.mem_cons_of_mem e he'))
      (hstep e List.mem_cons_self r h.1 hr)

/-- A column that every edit leaves alone. -/
lemma run_column {β : Type*} (f : Row → β) {es : List ε} (r : Row)
    (hstep : ∀ e ∈ es, ∀ r, f (E.apply e r) = f r) : f (E.run es r) = f r := by
  induction es generalizing r with
  | nil => rfl
  | cons e es ih =>
    rw [run_cons, ih _ fun e' he' => hstep e' (List.mem_cons_of_mem e he'),
      hstep e List.mem_cons_self]

/-! ### Transactions -/

variable (E)

/-- The end of a transaction that has edited its locked rows and inserted new ones. -/
structure Changed (script : ℕ → List ε) (new : List Row) (held : Set K) (seq : ℕ)
    (before after : D) : Prop where
  rows : T.rows after = (T.rows before).map (E.play script) ++ new
  applied : ∀ r ∈ T.rows before, E.Applied (script (T.id r)) r
  owned : ∀ n, script n ≠ [] → T.lock n ∈ held ∧ n ∈ T.ids before
  fresh : ∀ r ∈ new, T.lock (T.id r) ∈ held ∧ T.id r < seq ∧ T.id r ∉ T.ids before
  nodup : (new.map T.id).Nodup

/-- An open transaction that has edited its locked rows and inserted new ones. -/
structure Working (script : ℕ → List ε) (new : List Row) (l : Local D K) (w : World D K R) :
    Prop where
  pending : ∀ d, T.rows (l.pending d) = (T.rows d).map (E.play script) ++ new
  applied : ∀ r ∈ T.rows w.db, E.Applied (script (T.id r)) r
  owned : ∀ n, script n ≠ [] → T.lock n ∈ l.held ∧ n ∈ T.ids w.db
  fresh : ∀ r ∈ new, T.lock (T.id r) ∈ l.held ∧ T.id r < w.seq ∧ T.id r ∉ T.ids w.db
  nodup : (new.map T.id).Nodup

/-- The transactions of a protocol edit rows under their locks. -/
def Respected (P : Protocol D K R) : Prop :=
  ∀ held w ev, P.inv w → ev.before = w.db → P.move held w ev →
    ∃ script new, E.Changed script new held w.seq ev.before ev.after

variable {E}

lemma Changed.ids {seq : ℕ} {before after : D} (h : E.Changed script new held seq before after) :
    T.ids after = T.ids before ++ new.map T.id := by
  rw [Table.ids, h.rows, List.map_append, List.map_map]
  congr 1
  exact List.map_congr_left fun r _ => id_play script r

/-- Ids stay unique. -/
lemma Changed.keyed {ev : Event D K R} (h : E.Changed script new held w.seq ev.before ev.after)
    (hbefore : ev.before = w.db) (hw : T.Keyed w) : T.Keyed (w.ended ev) where
  nodup := by
    change (T.ids ev.after).Nodup
    rw [h.ids, List.nodup_append]
    refine ⟨hbefore ▸ hw.nodup, h.nodup, ?_⟩
    rintro n hn _ hm rfl
    obtain ⟨r, hr, rfl⟩ := List.mem_map.1 hm
    exact (h.fresh r hr).2.2 hn
  drawn := by
    intro r hr
    change r ∈ T.rows ev.after at hr
    rw [h.rows, List.mem_append, List.mem_map] at hr
    rcases hr with ⟨r', hr', rfl⟩ | hr
    · rw [id_play]
      exact hw.drawn r' (hbefore ▸ hr')
    · exact (h.fresh r hr).2.1

/-- The row of an id after a transaction. -/
lemma Changed.find_of_some {seq : ℕ} {before after : D}
    (h : E.Changed script new held seq before after) (hr : T.find before n = some r) :
    T.find after n = some (E.play script r) := by
  rw [Table.find, h.rows, List.find?_append, List.find?_map]
  have hcomp : ((fun r => decide (T.id r = n)) ∘ E.play script) = fun r => decide (T.id r = n) := by
    funext r
    simp
  rw [hcomp]
  change ((T.find before n).map _).or _ = _
  rw [hr]
  rfl

lemma Changed.find_of_none {seq : ℕ} {before after : D}
    (h : E.Changed script new held seq before after) (hr : T.find before n = none) :
    T.find after n = new.find? fun r => T.id r = n := by
  rw [Table.find, h.rows, List.find?_append, List.find?_map]
  have hcomp : ((fun r => decide (T.id r = n)) ∘ E.play script) = fun r => decide (T.id r = n) := by
    funext r
    simp
  rw [hcomp]
  change ((T.find before n).map _).or _ = _
  rw [hr]
  rfl

/-- Other transactions leave a locked row as it is. -/
lemma Changed.find_eq {other : Set K} {seq : ℕ} {before after : D}
    (h : E.Changed script new other seq before after) (hdisj : Disjoint held other)
    (hn : T.lock n ∈ held) : T.find after n = T.find before n := by
  have hnot : T.lock n ∉ other := Set.disjoint_left.1 hdisj hn
  have hscript : script n = [] := by
    by_contra hne
    exact hnot (h.owned n hne).1
  cases hr : T.find before n with
  | some r =>
    rw [h.find_of_some hr, play, (Table.find_eq_some hr).2, hscript, run_nil]
  | none =>
    rw [h.find_of_none hr, List.find?_eq_none]
    intro r hmem
    have hne : T.id r ≠ n := by
      rintro rfl
      exact hnot (h.fresh r hmem).1
    simpa using hne

/-! ### What the others do -/

variable {P : Protocol D K R}

/-- A locked row does not change. -/
lemma Respected.find_eq_of_rely (hP : E.Respected P) {w' : World D K R} (hr : Rely P held w w')
    (hn : T.lock n ∈ held) : T.find w'.db n = T.find w.db n := by
  refine Rely.stable (A := fun v => T.find v.db n = T.find w.db n) ?_ ?_ hr rfl
  · intro other v ev hdisj _ hbefore hinv _ hmove hA
    obtain ⟨script, new, h⟩ := hP other v ev hinv hbefore hmove
    change T.find ev.after n = _
    rw [h.find_eq hdisj hn, hbefore, hA]
  · exact fun v n t _ _ hA => hA

/-- A row stays, and changes by edits. -/
lemma Respected.find_of_rely (hP : E.Respected P) {w' : World D K R} (hr : Rely P held w w')
    (hn : T.find w.db n = some r) :
    ∃ es, E.Applied es r ∧ T.find w'.db n = some (E.run es r) := by
  refine Rely.stable (A := fun v => ∃ es, E.Applied es r ∧ T.find v.db n = some (E.run es r))
    ?_ ?_ hr ⟨[], trivial, hn⟩
  · rintro other v ev - - hbefore hinv - hmove ⟨es, hes, hfind⟩
    obtain ⟨script, new, h⟩ := hP other v ev hinv hbefore hmove
    rw [← hbefore] at hfind
    refine ⟨es ++ script n, applied_append.2 ⟨hes, ?_⟩, ?_⟩
    · obtain ⟨hmem, hid⟩ := Table.find_eq_some hfind
      rw [← hid]
      exact h.applied _ hmem
    · change T.find ev.after n = _
      rw [h.find_of_some hfind, play, (Table.find_eq_some hfind).2, run_append]
  · exact fun v n t _ _ hA => hA

/-- **Frame rule**: what the others do keeps the work of an open transaction. -/
lemma Working.rely (hP : E.Respected P) {w' : World D K R} (h : E.Working script new l w)
    (hr : Rely P l.held w w') :
    E.Working script new l w' := by
  refine Rely.stable (A := fun v => E.Working script new l v) ?_ ?_ hr h
  · intro other v ev hdisj _ hbefore hinv _ hmove hv
    obtain ⟨script', new', h'⟩ := hP other v ev hinv hbefore hmove
    rw [hbefore] at h'
    refine ⟨hv.pending, ?_, ?_, ?_, hv.nodup⟩
    · intro r hmem
      change r ∈ T.rows ev.after at hmem
      by_cases hscript : script (T.id r) = []
      · rw [hscript]
        trivial
      · -- a row of the script is locked, so it is one of the old ones, unchanged
        obtain ⟨hlock, hid⟩ := hv.owned _ hscript
        have hnot : T.lock (T.id r) ∉ other := Set.disjoint_left.1 hdisj hlock
        rw [h'.rows, List.mem_append, List.mem_map] at hmem
        rcases hmem with ⟨r', hr', rfl⟩ | hnew
        · rw [id_play] at hnot ⊢
          have hnil : script' (T.id r') = [] := by
            by_contra hne
            exact hnot (h'.owned _ hne).1
          rw [play, hnil, run_nil]
          exact hv.applied r' hr'
        · exact absurd (h'.fresh r hnew).1 hnot
    · intro n hn
      obtain ⟨hlock, hid⟩ := hv.owned n hn
      refine ⟨hlock, ?_⟩
      change n ∈ T.ids ev.after
      rw [h'.ids]
      exact List.mem_append_left _ hid
    · intro r hr
      obtain ⟨hlock, hlt, hid⟩ := hv.fresh r hr
      refine ⟨hlock, hlt, ?_⟩
      change T.id r ∉ T.ids ev.after
      rw [h'.ids, List.mem_append]
      rintro (hmem | hmem)
      · exact hid hmem
      · obtain ⟨r', hr', heq⟩ := List.mem_map.1 hmem
        have := (h'.fresh r' hr').1
        rw [heq] at this
        exact Set.disjoint_left.1 hdisj hlock this
  · intro v n t hn _ hv
    exact ⟨hv.pending, hv.applied, hv.owned,
      fun r hr => ⟨(hv.fresh r hr).1, (hv.fresh r hr).2.1.trans_le hn, (hv.fresh r hr).2.2⟩, hv.nodup⟩

/-! ### Statements of an open transaction -/

/-- No statement has been run yet. -/
lemma Working.start (E : Edits T ε) (t : ℕ) (held : Set K) (w : World D K R) :
    E.Working (fun _ => []) [] ⟨t, held, id⟩ w where
  pending d := by
    have hplay : E.play (fun _ => []) = id := by
      funext r
      rfl
    simp [hplay]
  applied _ _ := trivial
  owned n hn := absurd rfl hn
  fresh r hr := by simp at hr
  nodup := List.nodup_nil

lemma Working.bump (h : E.Working script new l w) : E.Working script new l w.bump :=
  ⟨h.pending, h.applied, h.owned,
    fun r hr => ⟨(h.fresh r hr).1, Nat.lt_succ_of_lt (h.fresh r hr).2.1, (h.fresh r hr).2.2⟩, h.nodup⟩

/-- A statement on something else. -/
lemma Working.wrote (h : E.Working script new l w) (keys : List K) {writes : D → D}
    (hwrites : ∀ d, T.rows (writes d) = T.rows d) :
    E.Working script new (l.wrote keys writes) w where
  pending d := (hwrites _).trans (h.pending d)
  applied := h.applied
  owned n hn := ⟨l.held_wrote keys writes (h.owned n hn).1, (h.owned n hn).2⟩
  fresh r hr := ⟨l.held_wrote keys writes (h.fresh r hr).1, (h.fresh r hr).2⟩
  nodup := h.nodup

/-- The work of a transaction, when it is committed. -/
lemma Working.changed (h : E.Working script new l w) :
    E.Changed script new l.held w.seq w.db (l.pending w.db) :=
  ⟨h.pending _, h.applied, h.owned, h.fresh, h.nodup⟩

/-- A script with one more edit of a row. -/
def addEdit (script : ℕ → List ε) (n : ℕ) (e : ε) (m : ℕ) : List ε :=
  if m = n then script n ++ [e] else script m

@[simp] lemma addEdit_self (script : ℕ → List ε) (n : ℕ) (e : ε) :
    addEdit script n e n = script n ++ [e] := if_pos rfl

lemma addEdit_of_ne (script : ℕ → List ε) {m : ℕ} (e : ε) (h : m ≠ n) :
    addEdit script n e m = script m := if_neg h

lemma play_addEdit (script : ℕ → List ε) (n : ℕ) (e : ε) (r : Row) :
    E.play (addEdit script n e) r =
      if T.id r = n then E.apply e (E.play script r) else E.play script r := by
  by_cases h : T.id r = n
  · rw [if_pos h, play, h, addEdit_self, run_append, play, h]
    rfl
  · rw [if_neg h, play, addEdit_of_ne _ _ h, play]

/-- What an open transaction sees of an old row. -/
lemma Working.find (h : E.Working script new l w) (hn : n ∉ new.map T.id) :
    T.find (l.pending w.db) n = (T.find w.db n).map (E.play script) := by
  cases hr : T.find w.db n with
  | some r => exact h.changed.find_of_some hr
  | none =>
    rw [h.changed.find_of_none hr, Option.map_none, List.find?_eq_none]
    intro r hmem
    have hne : T.id r ≠ n := by
      rintro rfl
      exact hn (List.mem_map_of_mem hmem)
    simpa using hne

lemma Working.edit (h : E.Working script new l w) (hn : n ∉ new.map T.id)
    (hfind : T.find w.db n = some r) (hnodup : (T.ids w.db).Nodup) {e : ε}
    (hguard : E.guard e (E.play script r)) {set : Row → Row} (hset : ∀ r, set r = E.apply e r) :
    E.Working (addEdit script n e) new
      (l.wrote [T.lock n] (T.modify (updateWhere (fun r => T.id r = n) set))) w := by
  have hset' : set = E.apply e := funext hset
  subst hset'
  refine ⟨?_, ?_, ?_, ?_, h.nodup⟩
  · intro d
    change T.rows (T.modify _ (l.pending d)) = _
    rw [T.rows_modify, h.pending, updateWhere_append]
    congr 1
    · rw [updateWhere, List.map_map]
      refine List.map_congr_left fun r _ => ?_
      simp [play_addEdit]
    · refine updateWhere_eq_self fun r' hr' hid => ?_
      exact absurd (List.mem_map_of_mem hr') (of_decide_eq_true hid ▸ hn)
  · intro r' hr'
    by_cases hid : T.id r' = n
    · have hrr : r' = r := by
        have := Table.find_of_mem hnodup hr'
        rw [hid, hfind] at this
        exact (Option.some.inj this).symm
      subst hrr
      rw [hid, addEdit_self, applied_append]
      refine ⟨hid ▸ h.applied r' hr', applied_singleton.2 ?_⟩
      rwa [play, hid] at hguard
    · rw [addEdit_of_ne _ _ hid]
      exact h.applied r' hr'
  · intro m hm
    by_cases hmn : m = n
    · subst hmn
      exact ⟨Or.inr (List.mem_singleton.2 rfl), Table.find_isSome_iff.1 ⟨r, hfind⟩⟩
    · rw [addEdit_of_ne _ _ hmn] at hm
      exact ⟨Or.inl (h.owned m hm).1, (h.owned m hm).2⟩
  · exact fun r' hr' => ⟨Or.inl (h.fresh r' hr').1, (h.fresh r' hr').2⟩

/-- **Update rule**: the row, if there is one that meets the condition, gets the edit. -/
lemma Working.wp_updateRow (hP : E.Respected P) (hkeyed : ∀ w, P.inv w → T.Keyed w)
    (h : E.Working script new l w) (hn : n ∉ new.map T.id) {cond : Ctx D → Row → Bool}
    {set : Ctx D → Row → Row} (e : Ctx D → ε) (hset : ∀ c r, set c r = E.apply (e c) r)
    (hguard : ∀ w' r, Rely P l.held w w' → P.inv w' → T.find w'.db n = some r →
      cond (l.ctx w') (E.play script r) = true → E.guard (e (l.ctx w')) (E.play script r))
    {Q : Post D K R (Option Row)}
    (hnone : ∀ w', Rely P l.held w w' → P.inv w' → E.Working script new l w'.bump →
      (∀ r, T.find w'.db n = some r → cond (l.ctx w') (E.play script r) = false) →
      Q none l w'.bump)
    (hsome : ∀ w' r l', Rely P l.held w w' → P.inv w' → T.find w'.db n = some r →
      cond (l.ctx w') (E.play script r) = true →
      l' = l.wrote [T.lock n] (T.modify (updateWhere (fun r => T.id r = n) (set (l.ctx w')))) →
      E.Working (addEdit script n (e (l.ctx w'))) new l' w'.bump →
      Q (some (E.apply (e (l.ctx w')) (E.play script r))) l' w'.bump) :
    wp P (T.updateRow n cond set) Q l w := by
  refine wp_update fun w' hr hinv => ?_
  have hw := h.rely hP hr
  have hfind : T.find (l.ctx w').view n = (T.find w'.db n).map (E.play script) := hw.find hn
  cases hrow : T.find w'.db n with
  | none =>
    have hcand : T.candidate n cond (l.ctx w') = none := by
      rw [Table.candidate, hfind, hrow]
      rfl
    simp only [hcand, Option.map_none, Option.toList_none, Option.isSome_none, Bool.false_eq_true,
      if_false]
    have hl : l.wrote [] (fun d => d) = l := l.wrote_nil
    rw [hl]
    exact hnone w' hr hinv hw.bump (by simp [hrow])
  | some r =>
    by_cases hcond : cond (l.ctx w') (E.play script r) = true
    · have hcand : T.candidate n cond (l.ctx w') = some (E.play script r) := by
        rw [Table.candidate_eq_some, hfind, hrow]
        exact ⟨rfl, hcond⟩
      simp only [hcand, Option.map_some, Option.toList_some, Option.isSome_some, if_true, hset]
      exact hsome w' r _ hr hinv hrow hcond rfl
        (hw.edit hn hrow (hkeyed w' hinv).nodup (hguard w' r hr hinv hrow hcond) (hset _)).bump
    · have hcand : T.candidate n cond (l.ctx w') = none := by
        rw [Table.candidate, hfind, hrow]
        simp [hcond]
      simp only [hcand, Option.map_none, Option.toList_none, Option.isSome_none,
        Bool.false_eq_true, if_false]
      have hl : l.wrote [] (fun d => d) = l := l.wrote_nil
      rw [hl]
      refine hnone w' hr hinv hw.bump fun r' hr' => ?_
      rw [hrow] at hr'
      cases hr'
      simpa using hcond

/-- **Lock rule**: the row, if there is one that meets the condition, is locked as it is. -/
lemma Working.wp_selectForUpdate (hP : E.Respected P) (h : E.Working script new l w)
    (hn : n ∉ new.map T.id) {cond : Ctx D → Row → Bool}
    {Q : Post D K R (Option Row)}
    (hnone : ∀ w', Rely P l.held w w' → P.inv w' → E.Working script new l w'.bump →
      Q none l w'.bump)
    (hsome : ∀ w' r l', Rely P l.held w w' → P.inv w' → T.find w'.db n = some r →
      cond (l.ctx w') (E.play script r) = true → l' = l.wrote [T.lock n] (fun d => d) →
      E.Working script new l' w'.bump → Q (some (E.play script r)) l' w'.bump) :
    wp P (T.selectForUpdate n cond) Q l w := by
  refine wp_update fun w' hr hinv => ?_
  have hw := h.rely hP hr
  have hfind : T.find (l.ctx w').view n = (T.find w'.db n).map (E.play script) := hw.find hn
  cases hcand : T.candidate n cond (l.ctx w') with
  | none =>
    have hl : l.wrote [] (fun d => d) = l := l.wrote_nil
    simp only [Option.map_none, Option.toList_none, hl]
    exact hnone w' hr hinv hw.bump
  | some r =>
    obtain ⟨hrow, hcond⟩ := Table.candidate_eq_some.1 hcand
    rw [hfind, Option.map_eq_some_iff] at hrow
    obtain ⟨r, hrow, rfl⟩ := hrow
    simp only [Option.map_some, Option.toList_some]
    exact hsome w' r _ hr hinv hrow hcond rfl (hw.wrote [T.lock n] fun _ => rfl).bump

/-- **Insert rule**: a row with the next id of the sequence. -/
lemma Working.wp_insertRow (hP : E.Respected P) (hkeyed : ∀ w, P.inv w → T.Keyed w)
    (h : E.Working script new l w) {values : Ctx D → Row} (hid : ∀ c, T.id (values c) = c.seq)
    {Q : Post D K R Row} (hQ : ∀ w' l', Rely P l.held w w' → P.inv w' →
      l' = l.wrote [T.lock w'.seq] (T.modify fun rows => rows ++ [values (l.ctx w')]) →
      E.Working script (new ++ [values (l.ctx w')]) l' w'.bump → Q (values (l.ctx w')) l' w'.bump) :
    wp P (T.insertRow values) Q l w := by
  refine wp_update fun w' hr hinv => ?_
  have hw := h.rely hP hr
  have hseq : T.id (values (l.ctx w')) = w'.seq := hid _
  rw [hseq]
  refine hQ w' _ hr hinv rfl ⟨?_, hw.applied, ?_, ?_, ?_⟩
  · intro d
    change T.rows (T.modify _ (l.pending d)) = _
    rw [T.rows_modify, hw.pending, List.append_assoc]
  · exact fun n hn => ⟨Or.inl (hw.owned n hn).1, (hw.owned n hn).2⟩
  · intro r hmem
    rw [List.mem_append, List.mem_singleton] at hmem
    rcases hmem with hold | rfl
    · exact ⟨Or.inl (hw.fresh r hold).1, Nat.lt_succ_of_lt (hw.fresh r hold).2.1,
        (hw.fresh r hold).2.2⟩
    · rw [hseq]
      refine ⟨Or.inr (List.mem_singleton.2 rfl), Nat.lt_succ_self _, ?_⟩
      intro hmem
      obtain ⟨r, hr, heq⟩ := List.mem_map.1 hmem
      exact absurd ((hkeyed w' hinv).drawn r hr) (by rw [heq]; exact lt_irrefl _)
  · rw [List.map_append, List.nodup_append]
    refine ⟨hw.nodup, List.nodup_singleton _, ?_⟩
    rintro n hn m hm rfl
    obtain ⟨r, hr, rfl⟩ := List.mem_map.1 hn
    rw [List.map_singleton, List.mem_singleton, hseq] at hm
    exact absurd (hw.fresh r hr).2.1 (by rw [hm]; exact lt_irrefl _)

/-- A script that only adds edits of a kind. -/
def Extends (A : ℕ → ε → Prop) (script script' : ℕ → List ε) : Prop :=
  ∀ n, ∃ es, script' n = script n ++ es ∧ ∀ e ∈ es, A n e

lemma Extends.refl (A : ℕ → ε → Prop) (script : ℕ → List ε) : Extends A script script :=
  fun n => ⟨[], by simp, by simp⟩

lemma Extends.trans {A : ℕ → ε → Prop} {s s' s'' : ℕ → List ε} (h : Extends A s s')
    (h' : Extends A s' s'') : Extends A s s'' := by
  intro n
  obtain ⟨es, hes, hA⟩ := h n
  obtain ⟨es', hes', hA'⟩ := h' n
  refine ⟨es ++ es', by rw [hes', hes, List.append_assoc], fun e he => ?_⟩
  rcases List.mem_append.1 he with he | he
  · exact hA e he
  · exact hA' e he

lemma Extends.addEdit {A : ℕ → ε → Prop} (script : ℕ → List ε) {e : ε} (h : A n e) :
    Extends A script (addEdit script n e) := by
  intro m
  by_cases hm : m = n
  · subst hm
    exact ⟨[e], addEdit_self _ _ _, by simpa using h⟩
  · exact ⟨[], by rw [addEdit_of_ne _ _ hm, List.append_nil], by simp⟩

end Edits

end Db
