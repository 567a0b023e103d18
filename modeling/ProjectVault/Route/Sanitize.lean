import ProjectVault.Platform.Queue

/-!
The sanitizer of audit payloads (`lib/secure-route.ts`) on graphs of plain objects and arrays.
A payload that is a tree is the case `Platform.sanitizeAuditPayload` covers.
-/

namespace Sanitize

open ProjectVault.Platform

/-- The values without parts. -/
inductive Scalar where
  | undefined
  | null
  | bool (b : Bool)
  | num (n : Js.NumLit)
  | str (s : String)

/-- A value: a scalar, or a reference to an object or an array. -/
inductive Value (V : Type) where
  | scalar (p : Scalar)
  | ref (v : V)

/-- An object, as `Object.entries` lists it, or an array. -/
inductive Node (V : Type) where
  | obj (entries : List (String × Value V))
  | arr (elems : List (Value V))

/-- What is written: no two parts of it are one. -/
inductive Tree where
  | scalar (p : Scalar)
  | obj (members : List (String × Tree))
  | arr (elems : List Tree)

/-- The key occurs at some depth. -/
inductive Tree.HasKey (key : String) : Tree → Prop where
  | here {t : Tree} {members} : (key, t) ∈ members → HasKey key (.obj members)
  | member {k : String} {t : Tree} {members} :
      (k, t) ∈ members → HasKey key t → HasKey key (.obj members)
  | elem {t : Tree} {elems} : t ∈ elems → HasKey key t → HasKey key (.arr elems)

/-- `'[Circular]'`. -/
def circular : Tree := .scalar (.str "[Circular]")

/-- `map` with a callback that also changes what has been seen. -/
def mapSeen {α β σ : Type} (f : α → σ → Option (β × σ)) : List α → σ → Option (List β × σ)
  | [], s => some ([], s)
  | a :: as, s => (f a s).bind fun r => (mapSeen f as r.2).map fun rs => (r.1 :: rs.1, rs.2)

section

variable {V : Type} (env : PlatformEnv)

/-- An object. -/
def Node.isObj : Node V → Bool
  | .obj _ => true
  | .arr _ => false

/-- The values of the entries that may be written, or the elements. -/
def Node.kids : Node V → List (Value V)
  | .obj entries => (entries.filter (!isForbiddenAuditKey env ·.1)).map Prod.snd
  | .arr elems => elems

/-- The object or the array with other values in place of these. -/
def Node.build : Node V → List Tree → Tree
  | .obj entries, ts => .obj (((entries.filter (!isForbiddenAuditKey env ·.1)).map Prod.fst).zip ts)
  | .arr _, ts => .arr ts

/-- `sanitizeAuditPayload`, for the entries of an object and what sanitizes a value. -/
def sanitizeEntries (f : Value V → Finset V → Option (Tree × Finset V))
    (entries : List (String × Value V)) (seen : Finset V) : Option (Tree × Finset V) :=
  (mapSeen (fun e s => (f e.2 s).map fun r => ((e.1, r.1), r.2))
    (entries.filter (!isForbiddenAuditKey env ·.1)) seen).map fun r => (.obj r.1, r.2)

variable {env}

lemma mapSeen_length {α β σ : Type} {f : α → σ → Option (β × σ)} {as : List α} {s s' : σ}
    {bs : List β} (h : mapSeen f as s = some (bs, s')) : bs.length = as.length := by
  induction as generalizing s bs with
  | nil =>
    cases h
    rfl
  | cons a as ih =>
    obtain ⟨r, -, hrest⟩ := Option.bind_eq_some_iff.1 h
    obtain ⟨rs, hrs, heq⟩ := Option.map_eq_some_iff.1 hrest
    cases heq
    rw [List.length_cons, List.length_cons, ih hrs]

/-- The entries of an object are sanitized like the elements of an array. -/
lemma mapSeen_entries {β σ : Type} (f : Value V → σ → Option (β × σ))
    (entries : List (String × Value V)) (s : σ) :
    mapSeen (fun e s => (f e.2 s).map fun r => ((e.1, r.1), r.2)) entries s =
      (mapSeen f (entries.map Prod.snd) s).map fun r =>
        ((entries.map Prod.fst).zip r.1, r.2) := by
  induction entries generalizing s with
  | nil => rfl
  | cons e entries ih =>
    simp only [mapSeen, List.map_cons, Option.bind_map, Option.map_bind, Function.comp_def, ih,
      Option.map_map, List.zip_cons_cons]

lemma sanitizeEntries_eq (f : Value V → Finset V → Option (Tree × Finset V))
    (entries : List (String × Value V)) (s : Finset V) :
    sanitizeEntries env f entries s = (mapSeen f ((Node.obj entries).kids env) s).map fun r =>
      ((Node.obj entries).build env r.1, r.2) := by
  rw [sanitizeEntries, mapSeen_entries, Option.map_map]
  rfl

lemma build_inj {o : Node V} {ts ts' : List Tree} (hts : ts.length = (o.kids env).length)
    (hts' : ts'.length = (o.kids env).length) (h : o.build env ts = o.build env ts') :
    ts = ts' := by
  cases o with
  | arr elems => exact Tree.arr.inj h
  | obj entries =>
    simp only [Node.kids, List.length_map] at hts hts'
    have hsnd := congrArg (List.map Prod.snd) (Tree.obj.inj h)
    rwa [List.map_snd_zip (by rw [hts, List.length_map]), List.map_snd_zip
      (by rw [hts', List.length_map])] at hsnd

lemma build_ne_circular {o : Node V} {ts : List Tree} : o.build env ts ≠ circular := by
  cases o <;> exact nofun

variable [DecidableEq V] (env) (heap : V → Node V)

/-- `sanitizeAuditValue`, down to a depth of calls; `none` is a call below that depth. -/
def sanitizeAuditValue : ℕ → Value V → Finset V → Option (Tree × Finset V)
  | 0, _, _ => none
  | _ + 1, .scalar p, seen => some (.scalar p, seen)
  | n + 1, .ref v, seen =>
    match heap v with
    | .arr elems =>
      (mapSeen (sanitizeAuditValue n) elems seen).map fun r => (.arr r.1, r.2)
    | .obj entries =>
      if v ∈ seen then some (circular, seen)
      else sanitizeEntries env (sanitizeAuditValue n) entries (insert v seen)

/-- `sanitizeAuditPayload`, called without a set. -/
def sanitizeAuditPayload (n : ℕ) (entries : List (String × Value V)) : Option Tree :=
  (sanitizeEntries env (sanitizeAuditValue env heap n) entries ∅).map Prod.fst

/-! ### What it is for -/

lemma card_compl_insert_lt [Fintype V] {v : V} {A : Finset V} (h : v ∉ A) :
    ((insert v A)ᶜ).card < Aᶜ.card := by
  refine Finset.card_lt_card ⟨Finset.compl_subset_compl.2 (Finset.subset_insert v A), fun hsub => ?_⟩
  exact Finset.mem_compl.1 (hsub (Finset.mem_compl.2 h)) (Finset.mem_insert_self v A)

/-- The value without forbidden entries, read inside the nodes of `A`: a reference back to one of
them is marked, and everything else is kept. -/
def prune [Fintype V] (A : Finset V) : Value V → Tree
  | .scalar p => .scalar p
  | .ref v =>
    if _h : v ∈ A then circular
    else (heap v).build env (((heap v).kids env).map fun x => prune (insert v A) x)
termination_by Aᶜ.card
decreasing_by exact card_compl_insert_lt _h

/-- What reading a value comes across. -/
inductive Visit (V : Type) where
  | object (v : V)
  | back (v : V)

/-- The objects read and the references back, in order. -/
def walk [Fintype V] (A : Finset V) : Value V → List (Visit V)
  | .scalar _ => []
  | .ref v =>
    if h : v ∈ A then [.back v]
    else (if (heap v).isObj then [.object v] else []) ++
      ((heap v).kids env).flatMap fun x => walk (insert v A) x
termination_by Aᶜ.card
decreasing_by exact card_compl_insert_lt h

/-- The objects seen after some more. -/
def after (seen : Finset V) (visits : List (Visit V)) : Finset V :=
  visits.foldl (fun s x => match x with | .object v => insert v s | .back _ => s) seen

/-- No object is read that has been read before, and every reference back goes to an object other
than the payload. -/
def Plain (root : V) : Finset V → List (Visit V) → Prop
  | _, [] => True
  | seen, .object v :: visits => v ∉ seen ∧ Plain root (insert v seen) visits
  | seen, .back v :: visits => (v ≠ root ∧ (heap v).isObj) ∧ Plain root seen visits

/-! ### One value -/

variable {env heap} {root v : V} {A seen : Finset V}

/-- What reading a node adds to the visits. -/
def enter (heap : V → Node V) (v : V) : List (Visit V) :=
  if (heap v).isObj then [.object v] else []

lemma sanitizeAuditValue_ref (n : ℕ) : sanitizeAuditValue env heap (n + 1) (.ref v) seen =
    if (heap v).isObj ∧ v ∈ seen then some (circular, seen)
    else (mapSeen (sanitizeAuditValue env heap n) ((heap v).kids env)
      (after seen (enter heap v))).map fun r => ((heap v).build env r.1, r.2) := by
  rw [sanitizeAuditValue, enter]
  cases heap v with
  | arr elems => simp [Node.isObj, after, Node.kids, Node.build]
  | obj entries =>
    simp only [Node.isObj, true_and, if_true]
    rw [sanitizeEntries_eq]
    rfl

/-! ### Reading a value -/

variable [Fintype V]

variable (env heap) in
/-- **Induction on reading**: scalars, references back, and nodes after what they hold. -/
lemma walk_induction {P : Finset V → Value V → Prop} (hscalar : ∀ A p, P A (.scalar p))
    (hback : ∀ A v, v ∈ A → P A (.ref v))
    (hnode : ∀ A v, v ∉ A → (∀ x ∈ (heap v).kids env, P (insert v A) x) → P A (.ref v))
    (A : Finset V) (x : Value V) : P A x := by
  induction hn : Aᶜ.card using Nat.strong_induction_on generalizing A x with
  | h n ih =>
    cases x with
    | scalar p => exact hscalar A p
    | ref v =>
      by_cases hv : v ∈ A
      · exact hback A v hv
      · exact hnode A v hv fun x _ => ih _ (hn ▸ card_compl_insert_lt hv) _ x rfl

lemma prune_back (hv : v ∈ A) : prune env heap A (.ref v) = circular := by
  rw [prune, dif_pos hv]

lemma prune_node (hv : v ∉ A) : prune env heap A (.ref v) =
    (heap v).build env (((heap v).kids env).map (prune env heap (insert v A))) := by
  rw [prune, dif_neg hv]

lemma walk_back (hv : v ∈ A) : walk env heap A (.ref v) = [.back v] := by
  rw [walk, dif_pos hv]

lemma walk_node (hv : v ∉ A) : walk env heap A (.ref v) =
    enter heap v ++ ((heap v).kids env).flatMap (walk env heap (insert v A)) := by
  rw [walk, dif_neg hv]
  rfl

omit [Fintype V] in
lemma after_append (seen : Finset V) (w w' : List (Visit V)) :
    after seen (w ++ w') = after (after seen w) w' := List.foldl_append

omit [Fintype V] in
lemma plain_append (seen : Finset V) (w w' : List (Visit V)) :
    Plain heap root seen (w ++ w') ↔
      Plain heap root seen w ∧ Plain heap root (after seen w) w' := by
  induction w generalizing seen with
  | nil => simp [Plain, after]
  | cons x w ih =>
    cases x with
    | object v => exact (and_congr_right fun _ => ih _).trans and_assoc.symm
    | back v => exact (and_congr_right fun _ => ih _).trans and_assoc.symm

omit [Fintype V] in
lemma subset_after (seen : Finset V) (w : List (Visit V)) : seen ⊆ after seen w := by
  induction w generalizing seen with
  | nil => exact Finset.Subset.refl _
  | cons x w ih =>
    cases x with
    | object v => exact (Finset.subset_insert v seen).trans (ih _)
    | back v => exact ih _

/-- An object that is read is seen from then on. -/
lemma mem_after_walk (hv : v ∉ A) (hobj : (heap v).isObj) :
    v ∈ after seen (walk env heap A (.ref v)) := by
  rw [walk_node hv, after_append]
  refine subset_after _ _ ?_
  rw [enter, if_pos hobj]
  exact Finset.mem_insert_self v seen

lemma notMem_of_plain (hv : v ∉ A) (hobj : (heap v).isObj)
    (h : Plain heap root seen (walk env heap A (.ref v))) : v ∉ seen := by
  rw [walk_node hv, plain_append, enter, if_pos hobj] at h
  exact h.1.1

/-- What is seen when the nodes of `A` are being read: all objects among them but the payload. -/
structure Seen (heap : V → Node V) (root : V) (A seen : Finset V) : Prop where
  root_mem : root ∈ A
  root_notMem : root ∉ seen
  objects : ∀ v ∈ A, (heap v).isObj → v ≠ root → v ∈ seen

omit [Fintype V] in
/-- Entering a node. -/
lemma Seen.enter (h : Seen heap root A seen) (hv : v ∉ A) :
    Seen heap root (insert v A) (after seen (enter heap v)) := by
  have hroot : root ≠ v := fun heq => hv (heq ▸ h.root_mem)
  refine ⟨Finset.mem_insert_of_mem h.root_mem, ?_, fun u hu hobj hne => ?_⟩
  · rw [Sanitize.enter]
    split
    · exact fun hmem => (Finset.mem_insert.1 hmem).elim hroot h.root_notMem
    · exact h.root_notMem
  · rcases Finset.mem_insert.1 hu with rfl | hu
    · rw [Sanitize.enter, if_pos hobj]
      exact Finset.mem_insert_self _ _
    · exact subset_after _ _ (h.objects u hu hobj hne)

omit [Fintype V] [DecidableEq V] in
/-- Leaving it. -/
lemma Seen.leave {seen' : Finset V} (h : Seen heap root A seen) (hsub : seen ⊆ seen')
    (hroot : root ∉ seen') : Seen heap root A seen' :=
  ⟨h.root_mem, hroot, fun v hv hobj hne => hsub (h.objects v hv hobj hne)⟩

/-- How a run, given enough depth, stands to what should come of it: the payload is not seen, a
plain walk has the result, and only a plain walk has it. -/
structure Reads (heap : V → Node V) (root : V) (A seen : Finset V) (w : List (Visit V)) {β : Type}
    (run : ℕ → Option (β × Finset V)) (result : β) : Prop where
  state : Seen heap root A (after seen w)
  total : Plain heap root seen w → ∃ N, ∀ n ≥ N, run n = some (result, after seen w)
  only : ∀ n seen', run n = some (result, seen') → Plain heap root seen w ∧ seen' = after seen w

/-- Values are read one after another. -/
lemma reads_mapSeen {xs : List (Value V)} (h : Seen heap root A seen)
    (hxs : ∀ x ∈ xs, ∀ seen, Seen heap root A seen → Reads heap root A seen (walk env heap A x)
      (sanitizeAuditValue env heap · x seen) (prune env heap A x)) :
    Reads heap root A seen (xs.flatMap (walk env heap A))
      (fun n => mapSeen (sanitizeAuditValue env heap n) xs seen)
      (xs.map (prune env heap A)) := by
  induction xs generalizing seen with
  | nil =>
    refine ⟨h, fun _ => ⟨0, fun _ _ => ?_⟩, fun n seen' hrun => ⟨trivial, ?_⟩⟩
    · rfl
    · exact (Prod.mk.inj (Option.some.inj hrun)).2.symm
  | cons x xs ih =>
    have hx := hxs x List.mem_cons_self seen h
    have hrest := ih hx.state fun y hy => hxs y (List.mem_cons_of_mem x hy)
    rw [List.flatMap_cons]
    refine ⟨?_, fun hplain => ?_, fun n seen' hrun => ?_⟩
    · rw [after_append]
      exact hrest.state
    · obtain ⟨hfirst, hothers⟩ := (plain_append _ _ _).1 hplain
      obtain ⟨N, hN⟩ := hx.total hfirst
      obtain ⟨M, hM⟩ := hrest.total hothers
      refine ⟨max N M, fun n hn => ?_⟩
      rw [mapSeen, hN n (le_of_max_le_left hn), Option.bind_some,
        hM n (le_of_max_le_right hn), after_append]
      rfl
    · obtain ⟨r, hr, hmap⟩ := Option.bind_eq_some_iff.1 hrun
      obtain ⟨rs, hrs, heq⟩ := Option.map_eq_some_iff.1 hmap
      obtain ⟨hcons, rfl⟩ := Prod.mk.inj heq
      obtain ⟨hhead, htail⟩ := List.cons.inj hcons
      obtain ⟨hfirst, hseen⟩ := hx.only n r.2 (by rw [hr, ← hhead])
      rw [hseen] at hrs
      obtain ⟨hothers, hlast⟩ := hrest.only n rs.2 (by rw [hrs, ← htail])
      exact ⟨(plain_append _ _ _).2 ⟨hfirst, hothers⟩, hlast.trans (after_append _ _ _).symm⟩

variable (env) in
/-- **Reading a value.** -/
lemma reads (A : Finset V) (x : Value V) : ∀ seen, Seen heap root A seen →
    Reads heap root A seen (walk env heap A x) (sanitizeAuditValue env heap · x seen)
      (prune env heap A x) := by
  induction A, x using walk_induction env heap with
  | hscalar A p =>
    intro seen h
    rw [walk, prune]
    refine ⟨h, fun _ => ⟨1, fun n hn => ?_⟩, fun n seen' hrun => ⟨trivial, ?_⟩⟩
    · obtain ⟨m, rfl⟩ := Nat.exists_eq_add_of_le' hn
      rfl
    · cases n with
      | zero => cases hrun
      | succ n => exact (Prod.mk.inj (Option.some.inj hrun)).2.symm
  | hback A v hv =>
    intro seen h
    rw [walk_back hv, prune_back hv]
    refine ⟨h, fun hplain => ⟨1, fun n hn => ?_⟩, fun n seen' hrun => ?_⟩
    · obtain ⟨m, rfl⟩ := Nat.exists_eq_add_of_le' hn
      obtain ⟨⟨hne, hobj⟩, -⟩ := hplain
      exact (sanitizeAuditValue_ref m).trans (if_pos ⟨hobj, h.objects v hv hobj hne⟩)
    · cases n with
      | zero => cases hrun
      | succ n =>
        rw [sanitizeAuditValue_ref] at hrun
        split_ifs at hrun with hmarked
        · have hne : v ≠ root := fun heq => h.root_notMem (heq ▸ hmarked.2)
          exact ⟨⟨⟨hne, hmarked.1⟩, trivial⟩, (Prod.mk.inj (Option.some.inj hrun)).2.symm⟩
        · obtain ⟨r, -, heq⟩ := Option.map_eq_some_iff.1 hrun
          exact absurd (Prod.mk.inj heq).1 build_ne_circular
  | hnode A v hv ih =>
    intro seen h
    have hkids := reads_mapSeen (h.enter hv) ih
    have hfresh : Plain heap root seen (enter heap v) ↔ ¬((heap v).isObj ∧ v ∈ seen) := by
      rw [enter]
      split_ifs with hobj <;> simp [Plain, hobj]
    have hmem : root ∉ after seen
        (enter heap v ++ ((heap v).kids env).flatMap (walk env heap (insert v A))) := by
      rw [after_append]
      exact hkids.state.root_notMem
    rw [walk_node hv, prune_node hv]
    refine ⟨h.leave (subset_after _ _) hmem, fun hplain => ?_, fun n seen' hrun => ?_⟩
    · obtain ⟨henter, hrest⟩ := (plain_append _ _ _).1 hplain
      obtain ⟨N, hN⟩ := hkids.total hrest
      refine ⟨N + 1, fun n hn => ?_⟩
      obtain ⟨m, rfl⟩ := Nat.exists_eq_add_of_le' (Nat.one_le_of_lt hn)
      rw [sanitizeAuditValue_ref, if_neg (hfresh.1 henter), hN m (by omega), after_append]
      rfl
    · cases n with
      | zero => cases hrun
      | succ n =>
        rw [sanitizeAuditValue_ref] at hrun
        split_ifs at hrun with hmarked
        · exact absurd (Prod.mk.inj (Option.some.inj hrun)).1.symm build_ne_circular
        · obtain ⟨r, hr, heq⟩ := Option.map_eq_some_iff.1 hrun
          obtain ⟨hbuild, rfl⟩ := Prod.mk.inj heq
          have hlist := build_inj (mapSeen_length hr) (List.length_map _) hbuild
          obtain ⟨hrest, hlast⟩ := hkids.only n r.2 (by rw [hr, ← hlist])
          exact ⟨(plain_append _ _ _).2 ⟨hfresh.2 hmarked, hrest⟩,
            hlast.trans (after_append _ _ _).symm⟩

/-- Nothing forbidden is left. -/
lemma prune_clean {key : String} (A : Finset V) (x : Value V) :
    (prune env heap A x).HasKey key → isForbiddenAuditKey env key = false := by
  induction A, x using walk_induction env heap with
  | hscalar A p =>
    rw [prune]
    nofun
  | hback A v hv =>
    rw [prune_back hv]
    nofun
  | hnode A v hv ih =>
    rw [prune_node hv]
    cases hnode : heap v with
    | arr elems =>
      rintro (⟨⟩ | ⟨⟩ | ⟨ht, hkey⟩)
      obtain ⟨x, hx, rfl⟩ := List.mem_map.1 ht
      exact ih x (by rwa [hnode]) hkey
    | obj entries =>
      rw [Node.build]
      rintro (ht | ⟨ht, hkey⟩)
      · obtain ⟨e, he, rfl⟩ := List.mem_map.1 (List.of_mem_zip ht).1
        simpa using (List.mem_filter.1 he).2
      · obtain ⟨x, hx, rfl⟩ := List.mem_map.1 (List.of_mem_zip ht).2
        exact ih x (by rwa [hnode]) hkey

omit [Fintype V] in
lemma sanitizeAuditPayload_eq {entries : List (String × Value V)}
    (hroot : heap root = .obj entries) (n : ℕ) : sanitizeAuditPayload env heap n entries =
      (mapSeen (sanitizeAuditValue env heap n) ((heap root).kids env) ∅).map fun r =>
        (heap root).build env r.1 := by
  rw [sanitizeAuditPayload, sanitizeEntries_eq, Option.map_map, hroot]
  rfl

lemma prune_root : prune env heap ∅ (.ref root) =
    (heap root).build env (((heap root).kids env).map (prune env heap {root})) := by
  rw [prune_node (Finset.notMem_empty root), insert_empty_eq]

variable (env heap root) in
/-- Reading a payload, of which nothing has been seen. -/
lemma reads_root : Reads heap root {root} ∅
    (((heap root).kids env).flatMap (walk env heap {root}))
    (fun n => mapSeen (sanitizeAuditValue env heap n) ((heap root).kids env) ∅)
    (((heap root).kids env).map (prune env heap {root})) :=
  reads_mapSeen ⟨Finset.mem_singleton_self root, Finset.notMem_empty root,
    fun _ hv _ hne => absurd (Finset.mem_singleton.1 hv) hne⟩ fun x _ => reads env {root} x

lemma plain_of_pruned {entries : List (String × Value V)} (hroot : heap root = .obj entries)
    {n : ℕ} (h : sanitizeAuditPayload env heap n entries = some (prune env heap ∅ (.ref root))) :
    Plain heap root ∅ (((heap root).kids env).flatMap (walk env heap {root})) := by
  rw [sanitizeAuditPayload_eq hroot, prune_root] at h
  obtain ⟨r, hr, hbuild⟩ := Option.map_eq_some_iff.1 h
  have hlist := build_inj (mapSeen_length hr) (List.length_map _) hbuild
  exact ((reads_root env heap root).only n r.2 (by rw [hr, ← hlist])).1

/-- **The sanitizer.** It ends, with no forbidden key and with everything else as it was but for
the references back to an enclosing node, exactly if no object is read twice, and every such
reference goes to an object other than the payload. -/
theorem sanitizeAuditPayload_prunes_iff {entries : List (String × Value V)}
    (hroot : heap root = .obj entries) :
    (∃ n t, sanitizeAuditPayload env heap n entries = some t ∧
      (∀ key, t.HasKey key → isForbiddenAuditKey env key = false) ∧
      t = prune env heap ∅ (.ref root)) ↔
    Plain heap root ∅ (((heap root).kids env).flatMap (walk env heap {root})) := by
  constructor
  · rintro ⟨n, t, ht, -, rfl⟩
    exact plain_of_pruned hroot ht
  · intro hplain
    obtain ⟨n, hn⟩ := (reads_root env heap root).total hplain
    refine ⟨n, _, ?_, fun key => prune_clean ∅ (.ref root), rfl⟩
    rw [sanitizeAuditPayload_eq hroot, hn n le_rfl, prune_root]
    rfl

end

/-- A payload with a nested object and a reference back to it. -/
def selfReference : Fin 2 → Node (Fin 2)
  | 0 => .obj [("password", .scalar (.str "hidden")), ("circular", .ref (Fin.last 1))]
  | 1 => .obj [("self", .ref (Fin.last 1))]

theorem sanitizeAuditPayload_prunes_iff_selfReference :
    ∃ n t, sanitizeAuditPayload plainPlatformEnv selfReference n
        [("password", .scalar (.str "hidden")), ("circular", .ref 1)] = some t ∧
      (∀ key, t.HasKey key → isForbiddenAuditKey plainPlatformEnv key = false) ∧
      t = prune plainPlatformEnv selfReference ∅ (.ref 0) := by
  have hroot : (selfReference 0).kids plainPlatformEnv = [.ref 1] := by
    rw [selfReference, Node.kids, List.filter_cons_of_neg (by decide +kernel),
      List.filter_cons_of_pos (by decide +kernel)]
    rfl
  have hself : (selfReference 1).kids plainPlatformEnv = [.ref 1] := by
    rw [selfReference, Node.kids, List.filter_cons_of_pos (by decide +kernel)]
    rfl
  refine (sanitizeAuditPayload_prunes_iff (show selfReference 0 = .obj _ from rfl)).2 ?_
  rw [hroot, List.flatMap_singleton, walk_node (by decide), hself, List.flatMap_singleton,
    walk_back (by decide)]
  exact ⟨by decide, ⟨by decide, rfl⟩, trivial⟩

/-- A payload that holds one object twice. -/
def sharedObject : Fin 2 → Node (Fin 2)
  | 0 => .obj [("before", .ref (Fin.last 1)), ("after", .ref (Fin.last 1))]
  | 1 => .obj [("name", .scalar (.str "db"))]

/-- The second time it is marked as circular. -/
theorem sharedObject_marked :
    ¬∃ n t, sanitizeAuditPayload plainPlatformEnv sharedObject n
        [("before", .ref 1), ("after", .ref 1)] = some t ∧
      (∀ key, t.HasKey key → isForbiddenAuditKey plainPlatformEnv key = false) ∧
      t = prune plainPlatformEnv sharedObject ∅ (.ref 0) := by
  rintro ⟨n, t, ht, -, rfl⟩
  have hroot : (sharedObject 0).kids plainPlatformEnv = [.ref 1, .ref 1] := by
    rw [sharedObject, Node.kids, List.filter_cons_of_pos (by decide +kernel),
      List.filter_cons_of_pos (by decide +kernel)]
    rfl
  have hplain := @plain_of_pruned _ plainPlatformEnv _ sharedObject 0 _ _ rfl n ht
  rw [hroot, List.flatMap_cons, plain_append, List.flatMap_singleton] at hplain
  exact notMem_of_plain (by decide) rfl hplain.2 (mem_after_walk (by decide) rfl)

end Sanitize
