import Mathlib.Tactic
import Mathlib.Data.List.Nodup

/-!
`Map` of JavaScript with string keys: entries in the order in which their keys were first set.
-/

namespace Js

/-- A map with string keys. -/
structure Map (α : Type) where
  entries : List (String × α)
  nodup : (entries.map Prod.fst).Nodup

namespace Map

variable {α β : Type}
variable {m : Map α} {key : String}

/-- The map without entries. -/
def empty : Map α := ⟨[], List.nodup_nil⟩

/-- `map.keys()`. -/
def keys (m : Map α) : List String := m.entries.map Prod.fst

/-- `map.get(key)`. -/
def get? (m : Map α) (key : String) : Option α :=
  (m.entries.find? fun e => e.1 = key).map Prod.snd

/-- `map.has(key)`. -/
def has (m : Map α) (key : String) : Bool := (m.get? key).isSome

/-- `new Map([...map].map(([key, value]) => [key, f(value)]))`. -/
def mapValues (f : α → β) (m : Map α) : Map β :=
  ⟨m.entries.map fun e => (e.1, f e.2), by
    rw [List.map_map]
    exact m.nodup⟩

lemma nodup_keys (m : Map α) : m.keys.Nodup := m.nodup

lemma mem_keys_iff : key ∈ m.keys ↔ ∃ value, (key, value) ∈ m.entries := by
  simp [keys]

/-- An entry is what its key looks up. -/
lemma get?_eq_some_iff {value : α} :
    m.get? key = some value ↔ (key, value) ∈ m.entries := by
  obtain ⟨entries, hnodup⟩ := m
  simp only [get?]
  induction entries with
  | nil => simp
  | cons e entries ih =>
    obtain ⟨hnot, hrest⟩ := List.nodup_cons.1 hnodup
    rw [List.find?_cons]
    by_cases hkey : e.1 = key
    · subst hkey
      simp only [decide_true, Option.map_some, Option.some.injEq, List.mem_cons]
      constructor
      · rintro rfl
        exact .inl rfl
      · rintro (heq | hmem)
        · rw [← heq]
        · exact absurd (List.mem_map_of_mem hmem) hnot
    · simp only [hkey, decide_false, List.mem_cons]
      rw [ih hrest]
      refine ⟨.inr, fun h => h.resolve_left fun heq => hkey ?_⟩
      rw [← heq]

lemma get?_eq_none_iff : m.get? key = none ↔ key ∉ m.keys := by
  rw [Option.eq_none_iff_forall_ne_some, mem_keys_iff]
  simp only [ne_eq, get?_eq_some_iff, not_exists]

lemma has_iff : m.has key = true ↔ key ∈ m.keys := by
  rw [has, ← not_iff_not, ← get?_eq_none_iff, Bool.not_eq_true, Option.isSome_eq_false_iff,
    Option.isNone_iff_eq_none]

lemma mem_keys_of_get? {value : α} (h : m.get? key = some value) :
    key ∈ m.keys :=
  mem_keys_iff.2 ⟨value, get?_eq_some_iff.1 h⟩

lemma get?_mapValues (f : α → β) (m : Map α) (key : String) :
    (m.mapValues f).get? key = (m.get? key).map f := by
  rw [get?, get?, mapValues, List.find?_map, Option.map_map, Option.map_map]
  rfl

lemma mem_keys_iff_get? :
    key ∈ m.keys ↔ ∃ value, m.get? key = some value := by
  simp only [mem_keys_iff, get?_eq_some_iff]

/-! ### Setting and deleting -/

/-- `map.set(key, value)`: an old key keeps its place, a new one is the last. -/
def set (m : Map α) (key : String) (value : α) : Map α :=
  if h : key ∈ m.keys then
    ⟨m.entries.map fun e => if e.1 = key then (key, value) else e, by
      have hkeys : (m.entries.map fun e => if e.1 = key then (key, value) else e).map Prod.fst =
          m.entries.map Prod.fst := by
        rw [List.map_map]
        refine List.map_congr_left fun e _ => ?_
        by_cases he : e.1 = key
        · simp [he]
        · simp [he]
      rw [hkeys]
      exact m.nodup⟩
  else
    ⟨m.entries ++ [(key, value)], by
      rw [List.map_append, List.map_singleton, List.nodup_append]
      exact ⟨m.nodup, List.nodup_singleton key, fun a ha b hb => by
        rw [List.mem_singleton.1 hb]
        rintro rfl
        exact h ha⟩⟩

/-- `map.delete(key)`. -/
def delete (m : Map α) (key : String) : Map α :=
  ⟨m.entries.filter fun e => e.1 ≠ key, m.nodup.sublist (List.filter_sublist.map _)⟩

/-- `new Map(entries)`. -/
def ofList (entries : List (String × α)) : Map α :=
  entries.foldl (fun m e => m.set e.1 e.2) empty

lemma get?_set (m : Map α) (key k : String) (value : α) :
    (m.set key value).get? k = if k = key then some value else m.get? k := by
  apply Option.ext
  intro v
  rw [get?_eq_some_iff, set]
  split_ifs with hmem hk hk
  · subst hk
    rw [List.mem_map]
    constructor
    · rintro ⟨e, -, he⟩
      split_ifs at he with heq
      · exact congrArg some (Prod.mk.inj he).2
      · exact absurd (congrArg Prod.fst he) heq
    · intro hv
      obtain ⟨old, hold⟩ := mem_keys_iff.1 hmem
      exact ⟨_, hold, by rw [if_pos rfl, Option.some.inj hv]⟩
  · rw [get?_eq_some_iff, List.mem_map]
    constructor
    · rintro ⟨e, he, heq⟩
      split_ifs at heq with hkey
      · exact absurd (Prod.mk.inj heq).1.symm hk
      · rwa [← heq]
    · exact fun hv => ⟨_, hv, if_neg hk⟩
  · subst hk
    rw [List.mem_append, List.mem_singleton]
    constructor
    · rintro (hv | hv)
      · exact absurd (mem_keys_iff.2 ⟨v, hv⟩) hmem
      · exact congrArg some (Prod.mk.inj hv).2.symm
    · intro hv
      rw [Option.some.inj hv]
      exact .inr rfl
  · rw [get?_eq_some_iff, List.mem_append, List.mem_singleton]
    exact ⟨fun h => h.resolve_right fun heq => hk (Prod.mk.inj heq).1, .inl⟩

lemma get?_delete (m : Map α) (key k : String) :
    (m.delete key).get? k = if k = key then none else m.get? k := by
  apply Option.ext
  intro v
  rw [get?_eq_some_iff, delete, List.mem_filter]
  by_cases hk : k = key
  · simp [hk]
  · simp [hk, get?_eq_some_iff]

lemma mem_keys_set {k : String} {value : α} :
    k ∈ (m.set key value).keys ↔ k = key ∨ k ∈ m.keys := by
  rw [← not_iff_not, ← get?_eq_none_iff, get?_set, not_or, ← get?_eq_none_iff]
  by_cases hk : k = key
  · simp [hk]
  · simp [hk]

lemma mem_keys_foldl_set (entries : List (String × α)) (m : Map α) {k : String} :
    k ∈ (entries.foldl (fun m e => m.set e.1 e.2) m).keys ↔
      k ∈ entries.map Prod.fst ∨ k ∈ m.keys := by
  induction entries generalizing m with
  | nil => simp
  | cons e entries ih =>
    rw [List.foldl_cons, ih, mem_keys_set, List.map_cons, List.mem_cons]
    tauto

lemma mem_keys_ofList {entries : List (String × α)} {k : String} :
    k ∈ (ofList entries).keys ↔ k ∈ entries.map Prod.fst := by
  rw [ofList, mem_keys_foldl_set]
  simp [keys, empty]

/-- What a map made of a list looks up is in the list. -/
lemma mem_of_get?_ofList {entries : List (String × α)} {k : String} {value : α}
    (h : (ofList entries).get? k = some value) : (k, value) ∈ entries := by
  rw [ofList] at h
  induction entries using List.reverseRecOn with
  | nil => exact absurd h (by simp [get?, empty])
  | append_singleton entries e ih =>
    rw [List.foldl_append, List.foldl_cons, List.foldl_nil, get?_set] at h
    split_ifs at h with hk
    · rw [hk, ← Option.some.inj h]
      exact List.mem_append_right _ List.mem_cons_self
    · exact List.mem_append_left _ (ih h)

end Map

end Js
