import Mathlib.Tactic
import Mathlib.Data.List.Basic

/-!
Regular expressions with captures, matched by backtracking.
-/

namespace Js

variable {α : Type*}

/-! ### Patterns -/

/-- Patterns over an alphabet: classes, sequences, alternatives, greedy `*` and `?`, and
numbered groups. -/
inductive Regex (α : Type*) where
  | empty
  | unit (p : α → Bool)
  | seq (r s : Regex α)
  | alt (r s : Regex α)
  | star (r : Regex α)
  | opt (r : Regex α)
  | group (i : ℕ) (r : Regex α)

/-- What the groups have captured, `none` being `undefined`. -/
abbrev Captures (α : Type*) := ℕ → Option (List α)

namespace Regex

/-- The groups of a pattern. -/
def groups : Regex α → List ℕ
  | empty | unit _ => []
  | seq r s | alt r s => r.groups ++ s.groups
  | star r | opt r => r.groups
  | group i r => i :: r.groups

/-- A round of a repetition starts with the groups inside it undefined. -/
def clear (r : Regex α) (c : Captures α) : Captures α :=
  fun i => if i ∈ r.groups then none else c i

/-- Where a match is: what is left of the text, and the captures. -/
structure State (α : Type*) where
  rest : List α
  captures : Captures α

/-- Rounds of a repetition, the longest first; a round that consumes nothing is a dead end. -/
def iterate (f : State α → List (State α)) : ℕ → State α → List (State α)
  | 0, x => [x]
  | n + 1, x =>
    ((f x).filter fun y => decide (y.rest.length < x.rest.length)).flatMap (iterate f n) ++ [x]

/-- What a pattern can lead to, in the order in which it is tried. -/
def run : Regex α → State α → List (State α)
  | empty, x => [x]
  | unit p, x =>
    match x.rest with
    | [] => []
    | a :: rest => if p a then [⟨rest, x.captures⟩] else []
  | seq r s, x => (r.run x).flatMap s.run
  | alt r s, x => r.run x ++ s.run x
  | star r, x =>
    iterate (fun y => r.run ⟨y.rest, r.clear y.captures⟩) x.rest.length x
  | opt r, x =>
    ((r.run ⟨x.rest, r.clear x.captures⟩).filter
      fun y => decide (y.rest.length < x.rest.length)) ++ [x]
  | group i r, x =>
    (r.run x).map fun y =>
      ⟨y.rest, Function.update y.captures i
        (some (x.rest.take (x.rest.length - y.rest.length)))⟩

/-- `pattern.exec(text)` for a pattern between `^` and `$`: the captures of the first way to
consume the whole text. -/
def exec (r : Regex α) (text : List α) : Option (Captures α) :=
  ((r.run ⟨text, fun _ => none⟩).find? fun x => x.rest.isEmpty).map State.captures

end Regex

/-! ### What a pattern matches -/

/-- `Matches r c w c'`: from the captures `c`, the pattern can consume `w` and leave `c'`. -/
inductive Matches : Regex α → Captures α → List α → Captures α → Prop where
  | empty {c} : Matches .empty c [] c
  | unit {p a c} : p a = true → Matches (.unit p) c [a] c
  | seq {r s w w' c c' c''} :
      Matches r c w c' → Matches s c' w' c'' → Matches (.seq r s) c (w ++ w') c''
  | altLeft {r s w c c'} : Matches r c w c' → Matches (.alt r s) c w c'
  | altRight {r s w c c'} : Matches s c w c' → Matches (.alt r s) c w c'
  | starNil {r c} : Matches (.star r) c [] c
  | starCons {r w w' c c' c''} : Matches r (r.clear c) w c' → w ≠ [] →
      Matches (.star r) c' w' c'' → Matches (.star r) c (w ++ w') c''
  | optNone {r c} : Matches (.opt r) c [] c
  | optSome {r w c c'} : Matches r (r.clear c) w c' → w ≠ [] → Matches (.opt r) c w c'
  | group {i r w c c'} : Matches r c w c' →
      Matches (.group i r) c w (Function.update c' i (some w))

section Relation

variable {r s : Regex α} {w : List α} {c c' : Captures α} {p : α → Bool}

lemma matches_empty : Matches (.empty : Regex α) c w c' ↔ w = [] ∧ c' = c := by
  constructor
  · rintro ⟨⟩
    exact ⟨rfl, rfl⟩
  · rintro ⟨rfl, rfl⟩
    exact .empty

lemma matches_unit : Matches (.unit p) c w c' ↔ (∃ a, p a = true ∧ w = [a]) ∧ c' = c := by
  constructor
  · rintro ⟨⟩
    exact ⟨⟨_, ‹_›, rfl⟩, rfl⟩
  · rintro ⟨⟨a, ha, rfl⟩, rfl⟩
    exact .unit ha

lemma matches_seq : Matches (.seq r s) c w c' ↔
    ∃ u v d, w = u ++ v ∧ Matches r c u d ∧ Matches s d v c' := by
  constructor
  · rintro ⟨⟩
    exact ⟨_, _, _, rfl, ‹_›, ‹_›⟩
  · rintro ⟨u, v, d, rfl, hr, hs⟩
    exact .seq hr hs

lemma matches_alt : Matches (.alt r s) c w c' ↔ Matches r c w c' ∨ Matches s c w c' := by
  constructor
  · rintro (_ | _ | _ | h | h)
    · exact .inl h
    · exact .inr h
  · rintro (h | h)
    · exact .altLeft h
    · exact .altRight h

lemma matches_opt : Matches (.opt r) c w c' ↔
    (w = [] ∧ c' = c) ∨ (w ≠ [] ∧ Matches r (r.clear c) w c') := by
  constructor
  · rintro ⟨⟩
    · exact .inl ⟨rfl, rfl⟩
    · exact .inr ⟨‹_›, ‹_›⟩
  · rintro (⟨rfl, rfl⟩ | ⟨hne, h⟩)
    · exact .optNone
    · exact .optSome h hne

lemma matches_group {i : ℕ} : Matches (.group i r) c w c' ↔
    ∃ d, Matches r c w d ∧ c' = Function.update d i (some w) := by
  constructor
  · rintro ⟨⟩
    exact ⟨_, ‹_›, rfl⟩
  · rintro ⟨d, h, rfl⟩
    exact .group h

lemma matches_star : Matches (.star r) c w c' ↔
    (w = [] ∧ c' = c) ∨ ∃ u v d, w = u ++ v ∧ u ≠ [] ∧ Matches r (r.clear c) u d ∧
      Matches (.star r) d v c' := by
  constructor
  · rintro ⟨⟩
    · exact .inl ⟨rfl, rfl⟩
    · exact .inr ⟨_, _, _, rfl, ‹_›, ‹_›, ‹_›⟩
  · rintro (⟨rfl, rfl⟩ | ⟨u, v, d, rfl, hne, hu, hv⟩)
    · exact .starNil
    · exact .starCons hu hne hv

/-- A pattern without groups has nothing to clear. -/
lemma Regex.clear_of_groups_eq_nil (h : r.groups = []) (c : Captures α) : r.clear c = c := by
  funext i
  simp [Regex.clear, h]

end Relation

/-! ### Patterns without captures -/

/-- A pattern that captures nothing and matches the texts of `L`. -/
def Plain (r : Regex α) (L : List α → Prop) : Prop :=
  ∀ c w c', Matches r c w c' ↔ L w ∧ c' = c

section Plain

variable {r s : Regex α} {L L' : List α → Prop} {p : α → Bool}

lemma Plain.congr (h : Plain r L) (hL : ∀ w, L w ↔ L' w) : Plain r L' := fun c w c' => by
  rw [h c w c', hL]

lemma plain_unit : Plain (.unit p) fun w => ∃ a, p a = true ∧ w = [a] := fun _ _ _ =>
  matches_unit

lemma Plain.seq (hr : Plain r L) (hs : Plain s L') :
    Plain (.seq r s) fun w => ∃ u v, w = u ++ v ∧ L u ∧ L' v := by
  intro c w c'
  rw [matches_seq]
  constructor
  · rintro ⟨u, v, d, rfl, hu, hv⟩
    obtain ⟨hLu, rfl⟩ := (hr _ _ _).1 hu
    obtain ⟨hLv, rfl⟩ := (hs _ _ _).1 hv
    exact ⟨⟨u, v, rfl, hLu, hLv⟩, rfl⟩
  · rintro ⟨⟨u, v, rfl, hu, hv⟩, rfl⟩
    exact ⟨u, v, _, rfl, (hr _ _ _).2 ⟨hu, rfl⟩, (hs _ _ _).2 ⟨hv, rfl⟩⟩

lemma Plain.alt (hr : Plain r L) (hs : Plain s L') :
    Plain (.alt r s) fun w => L w ∨ L' w := by
  intro c w c'
  rw [matches_alt, hr c w c', hs c w c', or_and_right]

/-- A repetition matches the texts cut into rounds. -/
lemma Plain.star (hr : Plain r L) (hgroups : r.groups = []) :
    Plain (.star r) fun w => ∃ ws : List (List α), w = ws.flatten ∧ ∀ u ∈ ws, u ≠ [] ∧ L u := by
  intro c w
  -- on the length of the text: a round consumes something
  induction hn : w.length using Nat.strong_induction_on generalizing c w with
  | _ n ih =>
    subst hn
    intro c'
    rw [matches_star, Regex.clear_of_groups_eq_nil hgroups]
    constructor
    · rintro (⟨rfl, rfl⟩ | ⟨u, v, d, rfl, hne, hu, hv⟩)
      · exact ⟨⟨[], rfl, by simp⟩, rfl⟩
      · obtain ⟨hLu, rfl⟩ := (hr _ _ _).1 hu
        have hlen : 0 < u.length := List.length_pos_iff.2 hne
        obtain ⟨⟨ws, rfl, hws⟩, rfl⟩ :=
          (ih v.length (by rw [List.length_append]; omega) _ v rfl c').1 hv
        exact ⟨⟨u :: ws, rfl, List.forall_mem_cons.2 ⟨⟨hne, hLu⟩, hws⟩⟩, rfl⟩
    · rintro ⟨⟨ws, rfl, hws⟩, rfl⟩
      cases ws with
      | nil => exact .inl ⟨rfl, rfl⟩
      | cons u ws =>
        obtain ⟨⟨hne, hu⟩, hws⟩ := List.forall_mem_cons.1 hws
        have hlen : 0 < u.length := List.length_pos_iff.2 hne
        refine .inr ⟨u, ws.flatten, c', rfl, hne, (hr _ _ _).2 ⟨hu, rfl⟩, ?_⟩
        refine (ih _ ?_ _ _ rfl c').2 ⟨⟨ws, rfl, hws⟩, rfl⟩
        rw [List.flatten_cons, List.length_append]
        omega

/-- Repeating a class. -/
lemma plain_star_unit : Plain (.star (.unit p)) fun w => ∀ a ∈ w, p a = true := by
  refine (plain_unit.star rfl).congr fun w => ?_
  constructor
  · rintro ⟨ws, rfl, hws⟩ a ha
    obtain ⟨u, hu, hau⟩ := List.mem_flatten.1 ha
    obtain ⟨-, b, hb, rfl⟩ := hws u hu
    rwa [List.mem_singleton.1 hau]
  · intro h
    refine ⟨w.map fun a => [a], by simp [List.flatten_eq_flatMap, List.flatMap_map], ?_⟩
    intro u hu
    obtain ⟨a, ha, rfl⟩ := List.mem_map.1 hu
    exact ⟨by simp, a, h a ha, rfl⟩

end Plain

/-! ### Backtracking finds what matches -/

namespace Regex

variable {r : Regex α} {x y : State α} {text : List α} {c : Captures α}

/-- The rounds of a repetition, given the rounds of its pattern. -/
lemma mem_iterate (hr : ∀ x y : State α, y ∈ r.run x ↔
      ∃ w, x.rest = w ++ y.rest ∧ Matches r x.captures w y.captures) (n : ℕ) :
    ∀ x y : State α, x.rest.length ≤ n →
      (y ∈ iterate (fun z => r.run ⟨z.rest, r.clear z.captures⟩) n x ↔
        ∃ w, x.rest = w ++ y.rest ∧ Matches (.star r) x.captures w y.captures) := by
  induction n with
  | zero =>
    intro x y hn
    obtain ⟨rest, captures⟩ := x
    obtain rfl : rest = [] := List.length_eq_zero_iff.1 (Nat.le_zero.1 hn)
    constructor
    · intro h
      obtain rfl := List.mem_singleton.1 h
      exact ⟨[], rfl, .starNil⟩
    · rintro ⟨w, hw, hm⟩
      obtain ⟨rfl, hy⟩ := List.append_eq_nil_iff.1 hw.symm
      rcases matches_star.1 hm with ⟨-, hc⟩ | ⟨u, v, d, huv, hne, -⟩
      · obtain ⟨_, _⟩ := y
        simp_all [iterate]
      · exact absurd (List.append_eq_nil_iff.1 huv.symm).1 hne
  | succ n ih =>
    intro x y hn
    rw [iterate, List.mem_append, List.mem_flatMap, List.mem_singleton]
    constructor
    · rintro (⟨z, hz, hy⟩ | rfl)
      · obtain ⟨hz, hlt⟩ := List.mem_filter.1 hz
        have hlt : z.rest.length < x.rest.length := of_decide_eq_true hlt
        obtain ⟨u, hu, hmu⟩ := (hr _ _).1 hz
        obtain ⟨v, hv, hmv⟩ := (ih z y (by omega)).1 hy
        have hne : u ≠ [] := by
          rintro rfl
          rw [List.nil_append] at hu
          exact absurd (congrArg List.length hu) (by simpa using hlt.ne')
        exact ⟨u ++ v, by rw [List.append_assoc, ← hv]; exact hu, .starCons hmu hne hmv⟩
      · exact ⟨[], rfl, .starNil⟩
    · rintro ⟨w, hw, hm⟩
      rcases matches_star.1 hm with ⟨rfl, hc⟩ | ⟨u, v, d, rfl, hne, hu, hv⟩
      · right
        obtain ⟨_, _⟩ := y
        obtain ⟨_, _⟩ := x
        simp_all
      · left
        have hlen : 0 < u.length := List.length_pos_iff.2 hne
        rw [List.append_assoc] at hw
        have hlt : (v ++ y.rest).length < x.rest.length := by
          rw [hw]
          simp only [List.length_append]
          omega
        refine ⟨⟨v ++ y.rest, d⟩, List.mem_filter.2 ⟨(hr _ _).2 ⟨u, hw, hu⟩, by simpa using hlt⟩,
          (ih _ _ ?_).2 ⟨v, rfl, hv⟩⟩
        simp only
        omega

/-- **Backtracking tries exactly the matches.** -/
theorem mem_run (r : Regex α) : ∀ x y : State α, y ∈ r.run x ↔
    ∃ w, x.rest = w ++ y.rest ∧ Matches r x.captures w y.captures := by
  induction r with
  | empty =>
    rintro ⟨rest, captures⟩ ⟨rest', captures'⟩
    simp only [run, List.mem_singleton, State.mk.injEq, matches_empty]
    constructor
    · rintro ⟨rfl, rfl⟩
      exact ⟨[], rfl, rfl, rfl⟩
    · rintro ⟨w, rfl, rfl, rfl⟩
      exact ⟨rfl, rfl⟩
  | unit p =>
    rintro ⟨rest, captures⟩ ⟨rest', captures'⟩
    simp only [run, matches_unit]
    constructor
    · intro h
      cases rest with
      | nil => simp at h
      | cons a rest =>
        by_cases ha : p a = true
        · obtain ⟨rfl, rfl⟩ : rest' = rest ∧ captures' = captures := by simpa [ha] using h
          exact ⟨[a], rfl, ⟨a, ha, rfl⟩, rfl⟩
        · simp [ha] at h
    · rintro ⟨w, rfl, ⟨a, ha, rfl⟩, rfl⟩
      simp [ha]
  | seq r s ihr ihs =>
    intro x y
    simp only [run, List.mem_flatMap, matches_seq]
    constructor
    · rintro ⟨z, hz, hy⟩
      obtain ⟨u, hu, hmu⟩ := (ihr x z).1 hz
      obtain ⟨v, hv, hmv⟩ := (ihs z y).1 hy
      exact ⟨u ++ v, by rw [List.append_assoc, ← hv, hu], u, v, _, rfl, hmu, hmv⟩
    · rintro ⟨w, hw, u, v, d, rfl, hu, hv⟩
      rw [List.append_assoc] at hw
      exact ⟨⟨v ++ y.rest, d⟩, (ihr _ _).2 ⟨u, hw, hu⟩, (ihs _ _).2 ⟨v, rfl, hv⟩⟩
  | alt r s ihr ihs =>
    intro x y
    simp only [run, List.mem_append, matches_alt, ihr x y, ihs x y, ← exists_or, and_or_left]
  | star r ih =>
    intro x y
    rw [run]
    exact mem_iterate ih _ x y le_rfl
  | opt r ih =>
    intro x y
    simp only [run, List.mem_append, List.mem_filter, List.mem_singleton, ih, matches_opt]
    constructor
    · rintro (⟨⟨w, hw, hm⟩, hlt⟩ | rfl)
      · have hlt : y.rest.length < x.rest.length := of_decide_eq_true hlt
        refine ⟨w, hw, .inr ⟨?_, hm⟩⟩
        rintro rfl
        rw [List.nil_append] at hw
        exact absurd (congrArg List.length hw) (by simpa using hlt.ne')
      · exact ⟨[], rfl, .inl ⟨rfl, rfl⟩⟩
    · rintro ⟨w, hw, ⟨rfl, hc⟩ | ⟨hne, hm⟩⟩
      · right
        obtain ⟨_, _⟩ := y
        obtain ⟨_, _⟩ := x
        simp_all
      · left
        have hlen : 0 < w.length := List.length_pos_iff.2 hne
        refine ⟨⟨w, hw, hm⟩, ?_⟩
        rw [decide_eq_true_eq, hw, List.length_append]
        omega
  | group i r ih =>
    intro x y
    simp only [run, List.mem_map, matches_group]
    constructor
    · rintro ⟨z, hz, rfl⟩
      obtain ⟨w, hw, hm⟩ := (ih x z).1 hz
      refine ⟨w, hw, z.captures, hm, ?_⟩
      simp [hw]
    · rintro ⟨w, hw, d, hm, hd⟩
      refine ⟨⟨y.rest, d⟩, (ih _ _).2 ⟨w, hw, hm⟩, ?_⟩
      obtain ⟨_, _⟩ := y
      simp_all

/-- What `exec` returns matches the whole text. -/
lemma matches_of_exec (h : r.exec text = some c) : Matches r (fun _ => none) text c := by
  obtain ⟨x, hx, rfl⟩ := Option.map_eq_some_iff.1 h
  have hrest : x.rest = [] := by simpa using List.find?_some hx
  obtain ⟨w, hw, hm⟩ := (mem_run r _ x).1 (List.mem_of_find?_eq_some hx)
  obtain rfl : text = w := by rwa [hrest, List.append_nil] at hw
  exact hm

/-- `exec` returns `null` exactly when nothing matches the whole text. -/
lemma exec_eq_none : r.exec text = none ↔ ∀ c, ¬ Matches r (fun _ => none) text c := by
  simp only [exec, Option.map_eq_none_iff, List.find?_eq_none]
  constructor
  · intro h c hm
    exact h ⟨[], c⟩ ((mem_run r _ _).2 ⟨text, (List.append_nil _).symm, hm⟩) rfl
  · intro h x hx hrest
    have hrest : x.rest = [] := by simpa using hrest
    obtain ⟨w, hw, hm⟩ := (mem_run r _ x).1 hx
    obtain rfl : text = w := by rwa [hrest, List.append_nil] at hw
    exact h x.captures hm

end Regex

end Js
