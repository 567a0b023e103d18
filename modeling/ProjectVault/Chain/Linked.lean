import Mathlib.Data.List.Infix
import Mathlib.Data.List.Sort
import Mathlib.Tactic

/-!
Chains of entries that each carry the hash of the entry before.
-/

namespace Chain

variable {ε H : Type} (prev : ε → Option H) (hash : ε → H)
variable {es : List ε} {expected : Option H} {p : ε → Bool}

/-- Every entry carries the hash of the one before it, the first one `expected`. -/
def Linked : Option H → List ε → Prop
  | _, [] => True
  | expected, e :: es => prev e = expected ∧ Linked (some (hash e)) es

/-- The hash of the last entry, or what came before the first. -/
def lastHash (expected : Option H) (es : List ε) : Option H :=
  (es.getLast?.map hash).or expected

variable {prev hash}

@[simp] lemma linked_nil (expected : Option H) : Linked prev hash expected [] := trivial

@[simp] lemma linked_cons {e : ε} :
    Linked prev hash expected (e :: es) ↔
      prev e = expected ∧ Linked prev hash (some (hash e)) es :=
  Iff.rfl

@[simp] lemma lastHash_nil (expected : Option H) : lastHash hash expected [] = expected := rfl

lemma lastHash_cons (expected : Option H) (e : ε) (es : List ε) :
    lastHash hash expected (e :: es) = lastHash hash (some (hash e)) es := by
  cases es with
  | nil => rfl
  | cons f fs => simp [lastHash, List.getLast?_cons]

lemma lastHash_append (expected : Option H) (es fs : List ε) :
    lastHash hash expected (es ++ fs) = lastHash hash (lastHash hash expected es) fs := by
  induction es generalizing expected with
  | nil => rfl
  | cons e es ih => rw [List.cons_append, lastHash_cons, lastHash_cons, ih]

/-- What came before does not matter once there is an entry. -/
lemma lastHash_of_ne_nil (h : es ≠ []) (expected expected' : Option H) :
    lastHash hash expected es = lastHash hash expected' es := by
  cases es with
  | nil => exact absurd rfl h
  | cons e es => rw [lastHash_cons, lastHash_cons]

variable (hash) in
lemma lastHash_none_eq (es : List ε) :
    lastHash hash none es = none ∨ ∃ d ∈ es, lastHash hash none es = some (hash d) := by
  cases es using List.reverseRecOn with
  | nil => exact .inl rfl
  | append_singleton es e _ => exact .inr ⟨e, by simp, by simp [lastHash]⟩

lemma linked_append {fs : List ε} :
    Linked prev hash expected (es ++ fs) ↔
      Linked prev hash expected es ∧ Linked prev hash (lastHash hash expected es) fs := by
  induction es generalizing expected with
  | nil => simp
  | cons e es ih =>
    rw [List.cons_append, linked_cons, linked_cons, ih, lastHash_cons, and_assoc]

/-- A chain grows by an entry that carries its last hash. -/
lemma linked_snoc {e : ε} :
    Linked prev hash expected (es ++ [e]) ↔
      Linked prev hash expected es ∧ prev e = lastHash hash expected es := by
  rw [linked_append]
  simp

/-- The predecessor of an entry of a chain. -/
lemma Linked.prev_eq {fs : List ε} {e : ε} (h : Linked prev hash expected (es ++ e :: fs)) :
    prev e = lastHash hash expected es :=
  (linked_append.1 h).2.1

/-- An entry carries nothing or the hash of an entry of the chain. -/
lemma Linked.prev_mem (h : Linked prev hash none es) {e : ε} (he : e ∈ es) :
    prev e = none ∨ ∃ d ∈ es, prev e = some (hash d) := by
  obtain ⟨as, bs, rfl⟩ := List.append_of_mem he
  rw [h.prev_eq]
  cases lastHash_none_eq hash as with
  | inl hnone => exact .inl hnone
  | inr hsome =>
    obtain ⟨d, hd, heq⟩ := hsome
    exact .inr ⟨d, by simp [hd], heq⟩

lemma Linked.of_isPrefix {fs : List ε} (h : Linked prev hash expected fs) (hpre : es <+: fs) :
    Linked prev hash expected es := by
  obtain ⟨gs, rfl⟩ := hpre
  exact (linked_append.1 h).1

/-- A chain whose hashes determine the hash before them repeats none. -/
lemma Linked.nodup (h : Linked prev hash none es)
    (hdet : ∀ a ∈ es, ∀ b ∈ es, hash a = hash b → prev a = prev b) : (es.map hash).Nodup := by
  induction es using List.reverseRecOn with
  | nil => simp
  | append_singleton es e ih =>
    obtain ⟨hes, he⟩ := linked_snoc.1 h
    have hnodup := ih hes fun a ha b hb => hdet a (by simp [ha]) b (by simp [hb])
    rw [List.map_append, List.nodup_append]
    refine ⟨hnodup, by simp, ?_⟩
    intro x hx y hy hxy
    obtain ⟨d, hd, rfl⟩ := List.mem_map.1 hx
    obtain rfl : y = hash e := by simpa using hy
    -- the entry before `d` would have the hash of the last one
    have hprev := hdet d (by simp [hd]) e (by simp) hxy
    obtain ⟨as, bs, rfl⟩ := List.append_of_mem hd
    rw [hes.prev_eq, he] at hprev
    cases as using List.reverseRecOn with
    | nil =>
      cases bs using List.reverseRecOn with
      | nil => simp [lastHash] at hprev
      | append_singleton bs b _ => simp [lastHash] at hprev
    | append_singleton as a _ =>
      rw [List.map_append, List.nodup_append] at hnodup
      cases bs using List.reverseRecOn with
      | nil =>
        refine hnodup.2.2 (hash a) (by simp) (hash d) (by simp) ?_
        simpa [lastHash] using hprev
      | append_singleton bs b _ =>
        refine hnodup.2.2 (hash a) (by simp) (hash b) (by simp) ?_
        have hlast : (as ++ [a] ++ d :: (bs ++ [b])).getLast? = some b := by
          rw [← List.cons_append, ← List.append_assoc, List.getLast?_concat]
        simpa only [lastHash, hlast, List.getLast?_concat, Option.map_some, Option.some_or,
          Option.some.injEq] using hprev

/-! ### Windows -/

/-- The entries a window selects from a chain, read from where the chain starts, are a
chain only if they are the first entries of it. -/
lemma Linked.filter_isPrefix (h : Linked prev hash expected es) (hnodup : (es.map hash).Nodup)
    (hfresh : ∀ e ∈ es, expected ≠ some (hash e)) (hw : Linked prev hash expected (es.filter p)) :
    es.filter p <+: es := by
  induction es generalizing expected with
  | nil => simp
  | cons e es ih =>
    obtain ⟨he, hes⟩ := linked_cons.1 h
    rw [List.map_cons, List.nodup_cons] at hnodup
    cases hp : p e with
    | true =>
      rw [List.filter_cons_of_pos hp] at hw ⊢
      have hfresh' : ∀ f ∈ es, some (hash e) ≠ some (hash f) := by
        intro f hf heq
        exact hnodup.1 (List.mem_map.2 ⟨f, hf, (Option.some.inj heq).symm⟩)
      exact List.cons_prefix_cons.2 ⟨rfl, ih hes hnodup.2 hfresh' (linked_cons.1 hw).2⟩
    | false =>
      rw [List.filter_cons_of_neg (by simp [hp])] at hw ⊢
      cases hf : es.filter p with
      | nil => simp
      | cons y ys =>
        -- an entry further on would carry the hash of an entry of the list
        exfalso
        have hy : y ∈ es := List.mem_of_mem_filter (hf ▸ List.mem_cons_self)
        obtain ⟨as, bs, rfl⟩ := List.append_of_mem hy
        have hprev := hes.prev_eq
        rw [hf] at hw
        rw [(linked_cons.1 hw).1] at hprev
        cases as using List.reverseRecOn with
        | nil => exact hfresh e List.mem_cons_self hprev
        | append_singleton as a _ =>
          refine hfresh a ?_ ?_
          · simp
          · simpa [lastHash] using hprev

/-- The entries before the first one a window selects. -/
def beforeWindow (p : ε → Bool) (es : List ε) : List ε := es.takeWhile fun e => !p e

/-- The entries from the first one a window selects. -/
def fromWindow (p : ε → Bool) (es : List ε) : List ε := es.dropWhile fun e => !p e

lemma beforeWindow_append_fromWindow (p : ε → Bool) (es : List ε) :
    beforeWindow p es ++ fromWindow p es = es :=
  List.takeWhile_append_dropWhile

lemma not_of_mem_beforeWindow {e : ε} (he : e ∈ beforeWindow p es) :
    p e = false := by
  induction es with
  | nil => simp [beforeWindow] at he
  | cons f fs ih =>
    rw [beforeWindow, List.takeWhile_cons] at he
    cases hf : p f with
    | true => simp [hf] at he
    | false =>
      simp only [hf, Bool.not_false, if_true, List.mem_cons] at he
      cases he with
      | inl heq => rw [heq, hf]
      | inr hmem => exact ih hmem

lemma head_fromWindow {rest : List ε} {a : ε} (h : fromWindow p es = a :: rest) : p a = true := by
  have := List.head?_dropWhile_not (fun e => !p e) es
  rw [show es.dropWhile (fun e => !p e) = a :: rest from h] at this
  simpa using this

lemma filter_beforeWindow (p : ε → Bool) (es : List ε) : (beforeWindow p es).filter p = [] := by
  rw [List.filter_eq_nil_iff]
  intro e he
  simp [not_of_mem_beforeWindow he]

lemma filter_fromWindow (p : ε → Bool) (es : List ε) :
    (fromWindow p es).filter p = es.filter p := by
  conv_rhs => rw [← beforeWindow_append_fromWindow p es, List.filter_append,
    filter_beforeWindow, List.nil_append]

/-- Nothing between two selected entries was left out. -/
def Convex (p : ε → Bool) (es : List ε) : Prop :=
  ∀ a b c, List.Sublist [a, b, c] es → p a = true → p c = true → p b = true

/-- The selected entries come first if and only if no entry that was left out has a
selected one after it. -/
lemma filter_isPrefix_iff (p : ε → Bool) (es : List ε) :
    es.filter p <+: es ↔ ∀ b c, List.Sublist [b, c] es → p c = true → p b = true := by
  induction es with
  | nil => simp
  | cons e es ih =>
    cases hp : p e with
    | true =>
      rw [List.filter_cons_of_pos hp, List.cons_prefix_cons, ih]
      constructor
      · rintro ⟨-, h⟩ b c hbc hc
        cases hbc with
        | cons _ hbc => exact h b c hbc hc
        | cons_cons _ _ => exact hp
      · intro h
        exact ⟨rfl, fun b c hbc hc => h b c (hbc.cons e) hc⟩
    | false =>
      rw [List.filter_cons_of_neg (by simp [hp])]
      constructor
      · intro h b c hbc hc
        -- the first entry is left out, so nothing is selected at all
        have hnone : es.filter p = [] := by
          cases hf : es.filter p with
          | nil => rfl
          | cons y ys =>
            rw [hf, List.cons_prefix_cons] at h
            have hy : p y = true := by
              have : y ∈ es.filter p := hf ▸ List.mem_cons_self
              exact (List.mem_filter.1 this).2
            rw [h.1, hp] at hy
            simp at hy
        have hcmem : c ∈ e :: es := hbc.subset (by simp)
        cases List.mem_cons.1 hcmem with
        | inl heq => rw [heq, hp] at hc; simp at hc
        | inr hmem =>
          have : c ∈ es.filter p := List.mem_filter.2 ⟨hmem, hc⟩
          rw [hnone] at this
          simp at this
      · intro h
        have hnone : es.filter p = [] := by
          rw [List.filter_eq_nil_iff]
          intro c hc hpc
          have := h e c (List.Sublist.cons_cons e (List.singleton_sublist.2 hc)) hpc
          rw [hp] at this
          simp at this
        rw [hnone]
        exact List.nil_prefix

/-- A window is convex if and only if its entries are a block. -/
lemma convex_iff_isPrefix (p : ε → Bool) (es : List ε) :
    Convex p es ↔ es.filter p <+: fromWindow p es := by
  have hsplit := beforeWindow_append_fromWindow p es
  rw [← filter_fromWindow p es, filter_isPrefix_iff]
  constructor
  · intro h b c hbc hc
    cases hfrom : fromWindow p es with
    | nil =>
      rw [hfrom] at hbc
      simp at hbc
    | cons a rest =>
      have ha := head_fromWindow hfrom
      rw [hfrom] at hbc
      cases hbc with
      | cons_cons _ _ => exact ha
      | cons _ hbc =>
        refine h a b c ?_ ha hc
        rw [← hsplit, hfrom]
        exact (hbc.cons_cons a).trans (List.sublist_append_right _ _)
  · intro h a b c habc ha hc
    rw [← hsplit, List.sublist_append_iff] at habc
    obtain ⟨l₁, l₂, heq, hl₁, hl₂⟩ := habc
    cases l₁ with
    | nil =>
      rw [List.nil_append] at heq
      rw [← heq] at hl₂
      exact h b c ((List.sublist_cons_self a [b, c]).trans hl₂) hc
    | cons x xs =>
      obtain rfl : a = x := by simpa using (List.cons.inj heq).1
      have := not_of_mem_beforeWindow (hl₁.subset List.mem_cons_self)
      rw [ha] at this
      simp at this

lemma Linked.fromWindow (h : Linked prev hash none es) (p : ε → Bool) :
    Linked prev hash (lastHash hash none (beforeWindow p es)) (fromWindow p es) := by
  rw [← beforeWindow_append_fromWindow p es] at h
  exact (linked_append.1 h).2

/-- A convex window of a chain is linked to the entry before it. -/
lemma Linked.filter_of_convex (h : Linked prev hash none es) (hconvex : Convex p es) :
    Linked prev hash (lastHash hash none (beforeWindow p es)) (es.filter p) :=
  (h.fromWindow p).of_isPrefix ((convex_iff_isPrefix p es).1 hconvex)

/-- **Windows of a chain**: of a chain without repeated hashes, the selected entries
are linked to the entry before them and to each other if and only if nothing
between two of them was left out. -/
lemma linked_filter_iff (h : Linked prev hash none es) (hnodup : (es.map hash).Nodup) :
    Linked prev hash (lastHash hash none (beforeWindow p es)) (es.filter p) ↔ Convex p es := by
  refine ⟨fun hw => (convex_iff_isPrefix p es).2 ?_, h.filter_of_convex⟩
  rw [← filter_fromWindow p es] at hw ⊢
  rw [← beforeWindow_append_fromWindow p es, List.map_append, List.nodup_append] at hnodup
  refine (h.fromWindow p).filter_isPrefix hnodup.2.1 ?_ hw
  intro e he heq
  cases hlast : (beforeWindow p es).getLast? with
  | none => simp [lastHash, hlast] at heq
  | some a =>
    have ha : a ∈ beforeWindow p es := List.mem_of_getLast? hlast
    have hhash : hash a = hash e := by simpa [lastHash, hlast] using heq
    exact hnodup.2.2 _ (List.mem_map_of_mem ha) _ (List.mem_map_of_mem he) hhash

/-- The first selected entry, with what stands before it. -/
lemma eq_beforeWindow_append {ws : List ε} {a : ε} (h : es.filter p = a :: ws) :
    ∃ rest, es = beforeWindow p es ++ a :: rest := by
  cases hfrom : fromWindow p es with
  | nil =>
    rw [← filter_fromWindow, hfrom] at h
    simp at h
  | cons x rest =>
    have hx := head_fromWindow hfrom
    rw [← filter_fromWindow, hfrom, List.filter_cons_of_pos hx] at h
    have hxa : x = a := (List.cons.inj h).1
    refine ⟨rest, ?_⟩
    rw [← hxa, ← hfrom, beforeWindow_append_fromWindow]

/-- In a list sorted by a key, a window is convex if and only if it selects whatever
has its key between two selected ones. -/
lemma convex_iff_of_pairwise {key : ε → ℕ} (hsorted : es.Pairwise fun a b => key a < key b) :
    Convex p es ↔ ∀ a ∈ es, ∀ b ∈ es, ∀ c ∈ es, key a < key b → key b < key c →
      p a = true → p c = true → p b = true := by
  constructor
  · intro h a ha b hb c hc hab hbc
    have hpw : [a, b, c].Pairwise fun x y => key x < key y := by
      simp [hab, hbc, hab.trans hbc]
    have : Std.Antisymm fun x y : ε => key x < key y :=
      ⟨fun x y hxy hyx => absurd hxy (lt_asymm hyx)⟩
    have hnodup : [a, b, c].Nodup := hpw.imp fun hlt heq => absurd hlt (by rw [heq]; exact lt_irrefl _)
    have hsub : [a, b, c] ⊆ es := by
      intro x hx
      simp only [List.mem_cons, List.not_mem_nil, or_false] at hx
      obtain rfl | rfl | rfl := hx
      · exact ha
      · exact hb
      · exact hc
    exact h a b c (List.sublist_of_subperm_of_pairwise (hnodup.subperm hsub) hpw hsorted)
  · intro h a b c habc ha hc
    have hpw := hsorted.sublist habc
    simp only [List.pairwise_cons, List.mem_cons, List.not_mem_nil, or_false, forall_eq_or_imp,
      forall_eq, IsEmpty.forall_iff, implies_true, and_true, List.Pairwise.nil] at hpw
    exact h a (habc.subset (by simp)) b (habc.subset (by simp)) c (habc.subset (by simp))
      hpw.1.1 hpw.2 ha hc

end Chain
