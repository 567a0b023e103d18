import ProjectVault.Js.Map
import ProjectVault.Js.Runtime

/-!
Paths of the composition kit (`composition-kit/src/paths.ts`).
-/

namespace Composition

open Js

/-! ### Strings -/

/-- `path.startsWith(start)`. -/
def startsWith (path start : String) : Bool := start.toList.isPrefixOf path.toList

/-- `path.endsWith(tail)`. -/
def endsWith (path tail : String) : Bool := tail.toList.isSuffixOf path.toList

/-- The UTF-16 code units of a character. -/
def charUnits (c : Char) : List ℕ :=
  if c.toNat < 0x10000 then [c.toNat]
  else [0xD800 + (c.toNat - 0x10000) / 0x400, 0xDC00 + (c.toNat - 0x10000) % 0x400]

/-- `compareCodeUnits(a, b) <= 0`. -/
def codeUnitsLe (a b : String) : Prop := a.toList.flatMap charUnits ≤ b.toList.flatMap charUnits

instance : DecidableRel codeUnitsLe := fun a b =>
  inferInstanceAs (Decidable (a.toList.flatMap charUnits ≤ b.toList.flatMap charUnits))

/-- `sortedCodeUnits`. -/
def sortedCodeUnits (values : List String) : List String := values.insertionSort codeUnitsLe

/-- `stripTrailingSlashes`. -/
def stripTrailingSlashes (value : String) : String :=
  String.ofList (value.toList.reverse.dropWhile (· == '/')).reverse

/-! ### Normalization -/

/-- One segment of `posix.normalize`, on the segments before it, the last one first. -/
def normalizeSegment (allowAboveRoot : Bool) (before : List String) (segment : String) :
    List String :=
  if segment = "" ∨ segment = "." then before
  else if segment = ".." then
    match before with
    | [] => if allowAboveRoot then [".."] else []
    | last :: rest =>
      if last ≠ ".." then rest else if allowAboveRoot then ".." :: before else before
  else segment :: before

/-- `posix.normalize`. -/
def posixNormalize (path : String) : String :=
  if path = "" then "."
  else
    let isAbsolute := startsWith path "/"
    let trailingSeparator := endsWith path "/"
    let segments := (path.toList.splitOn '/').map String.ofList
    let normalized := "/".intercalate
      (segments.foldl (normalizeSegment !isAbsolute) []).reverse
    if normalized = "" then
      if isAbsolute then "/" else if trailingSeparator then "./" else "."
    else
      (if isAbsolute then "/" else "") ++ normalized ++ if trailingSeparator then "/" else ""

/-- `normalizePackPath`. -/
def normalizePackPath (reference : String) : Option String :=
  if startsWith reference "/" || reference.toList.contains '\\' then none
  else
    let normalized := posixNormalize reference
    if normalized = ".." ∨ startsWith normalized "../" ∨ normalized = "." then none
    else some normalized

/-! ### Case -/

variable (rt : Runtime)

/-- The paths grouped by their lower-case form. -/
def byLower (paths : List String) : Map (List String) :=
  paths.foldl
    (fun m path =>
      let key := rt.toLowerCase path
      m.set key ((m.get? key).getD [] ++ [path]))
    Map.empty

/-- `compareCodeUnits` on the first paths of two groups. -/
def groupLe (a b : List String) : Prop := codeUnitsLe (a.head?.getD "") (b.head?.getD "")

instance : DecidableRel groupLe := fun a b =>
  inferInstanceAs (Decidable (codeUnitsLe (a.head?.getD "") (b.head?.getD "")))

/-- `findCaseCollisions`. -/
def findCaseCollisions (paths : List String) : List (List String) :=
  ((((byLower rt paths).entries.map Prod.snd).filter fun group => group.length > 1).map
    sortedCodeUnits).insertionSort groupLe

/-- Two paths of the list are equal ignoring case. -/
def CaseDistinct (paths : List String) : Prop := (paths.map rt.toLowerCase).Nodup

instance (paths : List String) : Decidable (CaseDistinct rt paths) :=
  inferInstanceAs (Decidable (paths.map rt.toLowerCase).Nodup)

variable {rt} {paths : List String}

lemma perm_sortedCodeUnits (values : List String) : (sortedCodeUnits values).Perm values :=
  List.perm_insertionSort _ _

@[simp] lemma mem_sortedCodeUnits {values : List String} {path : String} :
    path ∈ sortedCodeUnits values ↔ path ∈ values :=
  (perm_sortedCodeUnits values).mem_iff

/-- Paths without repetition differ ignoring case if no two of them have one lower-case form. -/
lemma caseDistinct_iff (hnodup : paths.Nodup) : CaseDistinct rt paths ↔
    ∀ a ∈ paths, ∀ b ∈ paths, rt.toLowerCase a = rt.toLowerCase b → a = b :=
  ⟨fun h _ ha _ hb heq => List.inj_on_of_nodup_map h ha hb heq,
    fun h => hnodup.map_on fun a ha b hb heq => h a ha b hb heq⟩

/-- A group is what has its key. -/
lemma get?_byLower (rt : Runtime) (paths : List String) (key : String) :
    (byLower rt paths).get? key =
      if paths.filter (fun path => rt.toLowerCase path = key) = [] then none
      else some (paths.filter fun path => rt.toLowerCase path = key) := by
  induction paths using List.reverseRecOn with
  | nil => rfl
  | append_singleton paths path ih =>
    rw [byLower, List.foldl_append, List.foldl_cons, List.foldl_nil, Map.get?_set,
      List.filter_append]
    by_cases hkey : key = rt.toLowerCase path
    · subst hkey
      have hgroup : ((byLower rt paths).get? (rt.toLowerCase path)).getD [] =
          paths.filter fun p => rt.toLowerCase p = rt.toLowerCase path := by
        rw [ih]
        split_ifs with hempty
        · exact hempty.symm
        · rfl
      rw [if_pos rfl, ← byLower, hgroup]
      simp
    · rw [if_neg hkey, ← byLower, ih]
      have hnone : [path].filter (fun p => rt.toLowerCase p = key) = [] := by
        simpa using Ne.symm hkey
      rw [hnone, List.append_nil]

/-- **No case collisions** are found exactly if the paths differ ignoring case. -/
theorem findCaseCollisions_eq_nil_iff :
    findCaseCollisions rt paths = [] ↔ CaseDistinct rt paths := by
  have hempty : findCaseCollisions rt paths = [] ↔
      ∀ key, (paths.filter fun path => rt.toLowerCase path = key).length ≤ 1 := by
    rw [findCaseCollisions, ← List.length_eq_zero_iff, (List.perm_insertionSort _ _).length_eq,
      List.length_map, List.length_eq_zero_iff, List.filter_eq_nil_iff]
    constructor
    · intro h key
      by_contra hmany
      have hget := get?_byLower rt paths key
      rw [if_neg fun hnil => by rw [hnil] at hmany; exact hmany (Nat.zero_le 1)] at hget
      exact h _ (List.mem_map_of_mem (Map.get?_eq_some_iff.1 hget)) (by simpa using hmany)
    · intro h group hgroup
      obtain ⟨⟨key, value⟩, hentry, rfl⟩ := List.mem_map.1 hgroup
      have hget := get?_byLower rt paths key
      rw [Map.get?_eq_some_iff.2 hentry] at hget
      split_ifs at hget with hnil
      rw [Option.some.inj hget]
      simpa using h key
  rw [hempty, CaseDistinct, List.nodup_iff_count_le_one]
  refine forall_congr' fun key => ?_
  rw [List.count, List.countP_map, List.countP_eq_length_filter]
  simp only [Function.comp_def, beq_eq_decide]

end Composition
