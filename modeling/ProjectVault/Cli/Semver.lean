import ProjectVault.Js.Units
import ProjectVault.Js.Double
import ProjectVault.Js.Regex
import ProjectVault.Js.Compare
import Mathlib.Data.List.TakeWhile

/-!
Strict semantic versions (`packages/cli/src/semver-precedence.ts`): the parser and the precedence.
-/

namespace Semver

open Js

variable {w : Units}

/-! ### The parser -/

/-- `\d`. -/
def isDigit (c : UInt16) : Bool := 48 ≤ c && c ≤ 57

/-- `[1-9]`. -/
def isPositiveDigit (c : UInt16) : Bool := 49 ≤ c && c ≤ 57

/-- `[a-zA-Z-]`. -/
def isNonDigit (c : UInt16) : Bool := (97 ≤ c && c ≤ 122) || (65 ≤ c && c ≤ 90) || c == 45

/-- `[0-9a-zA-Z-]`. -/
def isIdentifierUnit (c : UInt16) : Bool := isDigit c || isNonDigit c

/-- One given unit. -/
def literal (c : UInt16) : Regex UInt16 := .unit fun d => d == c

/-- The unit `.`. -/
def dot : UInt16 := 46

/-- The unit `-`. -/
def hyphen : UInt16 := 45

/-- The unit `+`. -/
def plus : UInt16 := 43

def maxSemverLength : ℕ := 128

/-- `NUMERIC`: `0|[1-9]\d*`. -/
def numeric : Regex UInt16 :=
  .alt (literal 48) (.seq (.unit isPositiveDigit) (.star (.unit isDigit)))

/-- `PRERELEASE_ID`: `0|[1-9]\d*|\d*[a-zA-Z-][0-9a-zA-Z-]*`. -/
def prereleaseId : Regex UInt16 :=
  .alt numeric
    (.seq (.star (.unit isDigit)) (.seq (.unit isNonDigit) (.star (.unit isIdentifierUnit))))

/-- `STRICT_SEMVER`, between its anchors. -/
def strictSemver : Regex UInt16 :=
  .seq (.group 1 numeric) <| .seq (literal dot) <| .seq (.group 2 numeric) <|
    .seq (literal dot) <| .seq (.group 3 numeric) <|
    .opt (.seq (literal hyphen)
      (.group 4 (.seq prereleaseId (.star (.seq (literal dot) prereleaseId)))))

/-- `NUMERIC_ID`, between its anchors. -/
def numericId : Regex UInt16 := .seq (.unit isDigit) (.star (.unit isDigit))

/-- The number a string of digits spells. -/
def digitsNumber (w : Units) : ℕ := Nat.ofDigits 10 (w.reverse.map fun c => c.toNat - 48)

/-- `Number.isSafeInteger`. -/
def isSafeInteger (n : ℚ) : Bool := n.den = 1 && |n| ≤ 2 ^ 53 - 1

/-- `toSafeInt`, on a string of digits. -/
def toSafeInt (value : Units) : Option ℕ :=
  let n := toDouble (digitsNumber value)
  if isSafeInteger n then some n.num.toNat else none

/-- A prerelease identifier, `string | number`. -/
inductive Identifier where
  | number (n : ℕ)
  | word (w : Units)

structure ParsedSemver where
  major : ℕ
  minor : ℕ
  patch : ℕ
  prerelease : List Identifier

/-- One round of the loop of `parsePrerelease`. -/
def parseIdentifier (id : Units) : Option Identifier :=
  if (numericId.exec id).isSome then (toSafeInt id).map .number else some (.word id)

/-- `parsePrerelease`: the loop ends at the first number that is not safe. -/
def parsePrerelease (raw : Option Units) : Option (List Identifier) :=
  match raw with
  | none | some [] => some []
  | some raw => (raw.splitOn dot).mapM parseIdentifier

/-- `parseStrictSemver`, on a string. -/
def parseStrictSemver (value : Units) : Option ParsedSemver :=
  if value.length > maxSemverLength then none
  else do
    let groups ← strictSemver.exec value
    let major ← (groups 1).bind toSafeInt
    let minor ← (groups 2).bind toSafeInt
    let patch ← (groups 3).bind toSafeInt
    let prerelease ← parsePrerelease (groups 4)
    return ⟨major, minor, patch, prerelease⟩

/-! ### The comparison -/

/-- `compareIdentifiers`. -/
def compareIdentifiers : Identifier → Identifier → ℤ
  | .number a, .number b => a - b
  | .number _, .word _ => -1
  | .word _, .number _ => 1
  | .word a, .word b => if a = b then 0 else if a < b then -1 else 1

/-- `compareSemver`. -/
def compareSemver (a b : ParsedSemver) : ℤ :=
  let core := orElse (orElse (a.major - b.major) (a.minor - b.minor)) (a.patch - b.patch)
  if core ≠ 0 then core
  else if a.prerelease.length = 0 ∨ b.prerelease.length = 0 then
    b.prerelease.length - a.prerelease.length
  else compareLists compareIdentifiers a.prerelease b.prerelease

/-- `compareSemverStrings`. -/
def compareSemverStrings (a b : Units) : Option ℤ := do
  let pa ← parseStrictSemver a
  let pb ← parseStrictSemver b
  return compareSemver pa pb

/-! ### The grammar -/

/-- `<numeric identifier>`: `0`, or digits that do not start with `0`. -/
def IsNumericIdentifier (w : Units) : Prop :=
  w = [48] ∨ ∃ d ds, isPositiveDigit d = true ∧ (∀ c ∈ ds, isDigit c = true) ∧ w = d :: ds

/-- `<alphanumeric identifier>`: letters, digits and hyphens, not all of them digits. -/
def IsAlphanumericIdentifier (w : Units) : Prop :=
  (∀ c ∈ w, isIdentifierUnit c = true) ∧ ∃ c ∈ w, isNonDigit c = true

/-- `<pre-release identifier>`. -/
def IsPrereleaseIdentifier (w : Units) : Prop :=
  IsNumericIdentifier w ∨ IsAlphanumericIdentifier w

/-- `<build identifier>`: an alphanumeric identifier, or any digits. -/
def IsBuildIdentifier (w : Units) : Prop :=
  IsAlphanumericIdentifier w ∨ (w ≠ [] ∧ ∀ c ∈ w, isDigit c = true)

/-- The parts of a text of the grammar. -/
structure Spelled where
  major : Units
  minor : Units
  patch : Units
  prerelease : Option (List Units)
  build : Option (List Units)

namespace Spelled

/-- The parts are what the grammar asks for. -/
structure Valid (s : Spelled) : Prop where
  major : IsNumericIdentifier s.major
  minor : IsNumericIdentifier s.minor
  patch : IsNumericIdentifier s.patch
  prerelease : ∀ ids ∈ s.prerelease, ids ≠ [] ∧ ∀ id ∈ ids, IsPrereleaseIdentifier id
  build : ∀ ids ∈ s.build, ids ≠ [] ∧ ∀ id ∈ ids, IsBuildIdentifier id

/-- Identifiers after a mark, with dots between them. -/
def part (mark : UInt16) : Option (List Units) → Units
  | none => []
  | some ids => mark :: [dot].intercalate ids

/-- `MAJOR.MINOR.PATCH[-PRERELEASE][+BUILD]`. -/
def text (s : Spelled) : Units :=
  s.major ++ dot :: (s.minor ++ dot :: (s.patch ++ (part hyphen s.prerelease ++ part plus s.build)))

/-- Every numeric identifier is a safe integer. -/
structure Safe (s : Spelled) : Prop where
  major : digitsNumber s.major < 2 ^ 53
  minor : digitsNumber s.minor < 2 ^ 53
  patch : digitsNumber s.patch < 2 ^ 53
  prerelease : ∀ ids ∈ s.prerelease, ∀ id ∈ ids,
    IsNumericIdentifier id → digitsNumber id < 2 ^ 53

/-- An identifier that is all digits is a number. -/
def identifier (id : Units) : Identifier :=
  if id.all isDigit then .number (digitsNumber id) else .word id

/-- The version the parts stand for. -/
def value (s : Spelled) : ParsedSemver where
  major := digitsNumber s.major
  minor := digitsNumber s.minor
  patch := digitsNumber s.patch
  prerelease := (s.prerelease.getD []).map identifier

end Spelled

/-! ### Precedence -/

/-- Identifiers in the order of section 11: numbers, by value, below words, in the order of their
units. -/
def Identifier.key : Identifier → ℕ ⊕ₗ List ℕ
  | .number n => toLex (.inl n)
  | .word w => toLex (.inr (w.map UInt16.toNat))

/-- The linear order of section 11: major, minor and patch as numbers, then no prerelease above
any, then the identifiers from the left, a list above its prefixes. -/
abbrev Precedence : Type := ℕ ×ₗ ℕ ×ₗ ℕ ×ₗ WithTop (List (ℕ ⊕ₗ List ℕ))

/-- The place of a list of prerelease identifiers. -/
def prereleaseKey (ids : List Identifier) : WithTop (List (ℕ ⊕ₗ List ℕ)) :=
  if ids = [] then ⊤ else ((ids.map Identifier.key : List (ℕ ⊕ₗ List ℕ)) : WithTop _)

/-- The precedence of a version. -/
def ParsedSemver.precedence (v : ParsedSemver) : Precedence :=
  toLex (v.major, toLex (v.minor, toLex (v.patch, prereleaseKey v.prerelease)))

/-- The precedence of a spelled version; build metadata has no part in it. -/
def Spelled.precedence (s : Spelled) : Precedence := s.value.precedence

lemma compares_compareIdentifiers (a b : Identifier) :
    Compares (compareIdentifiers a b) a.key b.key := by
  cases a with
  | number a =>
    cases b with
    | number b =>
      exact (compares_sub a b).congr Sum.Lex.inl_lt_inl_iff.symm Sum.Lex.inl_lt_inl_iff.symm
    | word b =>
      constructor <;> simp [compareIdentifiers, Identifier.key]
  | word a =>
    cases b with
    | number b =>
      constructor <;> simp [compareIdentifiers, Identifier.key]
    | word b =>
      have hlt : (Identifier.word a).key < (Identifier.word b).key ↔ a < b :=
        Sum.Lex.inr_lt_inr_iff.trans (map_toNat_lt_map_toNat a b)
      have hgt : (Identifier.word b).key < (Identifier.word a).key ↔ b < a :=
        Sum.Lex.inr_lt_inr_iff.trans (map_toNat_lt_map_toNat b a)
      simp only [compareIdentifiers]
      split_ifs with heq hab
      · subst heq
        constructor <;> simp
      · exact ⟨by simp [hlt, hab], by simpa using (hlt.2 hab).le⟩
      · have hinj : a.map UInt16.toNat ≠ b.map UInt16.toNat := fun h =>
          heq (List.map_injective_iff.2 (fun _ _ => UInt16.toNat_inj.1) h)
        have hba : b < a := by
          rw [← map_toNat_lt_map_toNat] at hab ⊢
          exact lt_of_le_of_ne (not_lt.1 hab) hinj.symm
        exact ⟨by simpa using (hgt.2 hba).le, by simp [hgt, hba]⟩

lemma compares_prerelease (a b : List Identifier) :
    Compares
      (if a.length = 0 ∨ b.length = 0 then (b.length - a.length : ℤ)
        else compareLists compareIdentifiers a b)
      (prereleaseKey a) (prereleaseKey b) := by
  unfold prereleaseKey
  cases a with
  | nil =>
    cases b with
    | nil => constructor <;> simp
    | cons v b =>
      constructor
      · simp
        omega
      · simp [WithTop.coe_lt_top]
  | cons u a =>
    cases b with
    | nil =>
      constructor
      · simp [WithTop.coe_lt_top]
        omega
      · simp
    | cons v b =>
      simp only [List.length_cons, Nat.add_eq_zero_iff, one_ne_zero, and_false, or_self,
        if_false, reduceCtorEq]
      exact (compares_compareLists compares_compareIdentifiers (u :: a) (v :: b)).congr
        WithTop.coe_lt_coe.symm WithTop.coe_lt_coe.symm

/-- **`compareSemver` follows the precedence.** -/
lemma compares_compareSemver (a b : ParsedSemver) :
    Compares (compareSemver a b) a.precedence b.precedence := by
  have h := (compares_sub a.major b.major).orElse ((compares_sub a.minor b.minor).orElse
    ((compares_sub a.patch b.patch).orElse (compares_prerelease a.prerelease b.prerelease)))
  have hassoc : ∀ r s t u : ℤ, orElse r (orElse s (orElse t u)) =
      if orElse (orElse r s) t ≠ 0 then orElse (orElse r s) t else u := by
    intro r s t u
    unfold orElse
    split_ifs <;> simp_all
  rw [hassoc] at h
  exact h

/-! ### What the pattern matches -/

lemma plain_literal (c : UInt16) : Plain (literal c) fun w => w = [c] :=
  plain_unit.congr fun w => by simp

lemma plain_numeric : Plain numeric IsNumericIdentifier := by
  refine ((plain_literal 48).alt (plain_unit.seq plain_star_unit)).congr fun w => ?_
  refine or_congr_right ⟨?_, ?_⟩
  · rintro ⟨u, v, rfl, ⟨d, hd, rfl⟩, hv⟩
    exact ⟨d, v, hd, hv, rfl⟩
  · rintro ⟨d, ds, hd, hds, rfl⟩
    exact ⟨[d], ds, rfl, ⟨d, hd, rfl⟩, hds⟩

/-- Digits, a unit that is none, and the rest: an alphanumeric identifier cut at its first
non-digit. -/
lemma isAlphanumericIdentifier_iff (w : Units) : IsAlphanumericIdentifier w ↔
    ∃ u v, w = u ++ v ∧ (∀ c ∈ u, isDigit c = true) ∧
      ∃ x y, v = x ++ y ∧ (∃ c, isNonDigit c = true ∧ x = [c]) ∧
        ∀ c ∈ y, isIdentifierUnit c = true := by
  constructor
  · rintro ⟨hall, c, hc, hnon⟩
    have hsome : (w.dropWhile isDigit) ≠ [] := by
      intro h
      have hdigit := List.dropWhile_eq_nil_iff.1 h c hc
      simp only [isDigit, isNonDigit, Bool.and_eq_true, Bool.or_eq_true, decide_eq_true_eq,
        beq_iff_eq, UInt16.le_iff_toNat_le, ← UInt16.toNat_inj] at hdigit hnon
      simp at hdigit hnon
      omega
    obtain ⟨d, rest, hd⟩ := List.exists_cons_of_ne_nil hsome
    have hw : w = w.takeWhile isDigit ++ d :: rest := by
      rw [← hd, List.takeWhile_append_dropWhile]
    have hnot : isDigit d = false := by
      have := List.head_dropWhile_not isDigit hsome
      simpa [hd] using this
    have hmem : ∀ x ∈ d :: rest, isIdentifierUnit x = true := fun x hx =>
      hall x (by rw [hw]; exact List.mem_append_right _ hx)
    have hdid := hmem d (by simp)
    rw [isIdentifierUnit, hnot, Bool.false_or] at hdid
    exact ⟨_, _, hw, fun c hc => List.mem_takeWhile_imp hc, [d], rest, rfl, ⟨d, hdid, rfl⟩,
      fun x hx => hmem x (by simp [hx])⟩
  · rintro ⟨u, v, rfl, hu, x, y, rfl, ⟨c, hc, rfl⟩, hy⟩
    refine ⟨?_, c, by simp, hc⟩
    intro d hd
    simp only [List.mem_append, List.mem_singleton] at hd
    rcases hd with hd | rfl | hd
    · simp [isIdentifierUnit, hu d hd]
    · simp [isIdentifierUnit, hc]
    · exact hy d hd

lemma plain_prereleaseId : Plain prereleaseId IsPrereleaseIdentifier :=
  (plain_numeric.alt (plain_star_unit.seq (plain_unit.seq plain_star_unit))).congr fun w =>
    or_congr_right (isAlphanumericIdentifier_iff w).symm

lemma intercalate_cons (id : Units) (ids : List Units) :
    [dot].intercalate (id :: ids) = id ++ (ids.map fun u => dot :: u).flatten := by
  induction ids generalizing id with
  | nil => simp
  | cons v ids ih => rw [List.intercalate_cons_cons, ih v]; simp

lemma plain_identifiers :
    Plain (.seq prereleaseId (.star (.seq (literal dot) prereleaseId))) fun w =>
      ∃ ids, ids ≠ [] ∧ (∀ id ∈ ids, IsPrereleaseIdentifier id) ∧ w = [dot].intercalate ids := by
  have hstar := ((plain_literal dot).seq plain_prereleaseId).star rfl
  refine (plain_prereleaseId.seq hstar).congr fun w => ?_
  constructor
  · rintro ⟨id, v, rfl, hid, ws, rfl, hws⟩
    refine ⟨id :: ws.map List.tail, by simp, List.forall_mem_cons.2 ⟨hid, ?_⟩, ?_⟩
    · intro t ht
      obtain ⟨u, hu, rfl⟩ := List.mem_map.1 ht
      obtain ⟨-, _, v, rfl, rfl, hv⟩ := hws u hu
      exact hv
    · have hback : (ws.map List.tail).map (fun u => dot :: u) = ws := by
        rw [List.map_map]
        refine (List.map_congr_left fun u hu => ?_).trans (List.map_id ws)
        obtain ⟨-, _, v, rfl, rfl, -⟩ := hws u hu
        rfl
      rw [intercalate_cons, hback]
  · rintro ⟨ids, hne, hids, rfl⟩
    obtain ⟨id, ids, rfl⟩ := List.exists_cons_of_ne_nil hne
    obtain ⟨hid, hids⟩ := List.forall_mem_cons.1 hids
    refine ⟨id, _, intercalate_cons id ids, hid, _, rfl, ?_⟩
    intro t ht
    obtain ⟨u, hu, rfl⟩ := List.mem_map.1 ht
    exact ⟨by simp, [dot], u, rfl, rfl, hids u hu⟩

/-! ### The parts of a text are unique -/

lemma isDigit_ne_dot {c : UInt16} (h : isDigit c = true) : c ≠ dot := by
  rintro rfl
  simp [isDigit, dot] at h

lemma isIdentifierUnit_ne_dot {c : UInt16} (h : isIdentifierUnit c = true) : c ≠ dot := by
  rintro rfl
  simp [isIdentifierUnit, isDigit, isNonDigit, dot] at h

lemma isPositiveDigit_isDigit {c : UInt16} (h : isPositiveDigit c = true) : isDigit c = true := by
  simp only [isPositiveDigit, isDigit, Bool.and_eq_true, decide_eq_true_eq,
    UInt16.le_iff_toNat_le] at h ⊢
  simp at h ⊢
  omega

lemma IsNumericIdentifier.digits (h : IsNumericIdentifier w) :
    ∀ c ∈ w, isDigit c = true := by
  rcases h with rfl | ⟨d, ds, hd, hds, rfl⟩
  · simp [isDigit]
  · exact List.forall_mem_cons.2 ⟨isPositiveDigit_isDigit hd, hds⟩

lemma IsNumericIdentifier.ne_nil (h : IsNumericIdentifier w) : w ≠ [] := by
  rcases h with rfl | ⟨d, ds, -, -, rfl⟩ <;> simp

lemma IsNumericIdentifier.dot_notMem (h : IsNumericIdentifier w) : dot ∉ w :=
  fun hmem => isDigit_ne_dot (h.digits _ hmem) rfl

lemma IsPrereleaseIdentifier.dot_notMem (h : IsPrereleaseIdentifier w) :
    dot ∉ w := by
  rcases h with h | h
  · exact h.dot_notMem
  · exact fun hmem => isIdentifierUnit_ne_dot (h.1 _ hmem) rfl

lemma IsPrereleaseIdentifier.ne_nil (h : IsPrereleaseIdentifier w) : w ≠ [] := by
  rcases h with h | ⟨-, c, hc, -⟩
  · exact h.ne_nil
  · exact List.ne_nil_of_mem hc

lemma IsAlphanumericIdentifier.all_isDigit (h : IsAlphanumericIdentifier w) :
    w.all isDigit = false := by
  obtain ⟨-, c, hc, hnon⟩ := h
  refine List.all_eq_false.2 ⟨c, hc, ?_⟩
  intro hdigit
  simp only [isDigit, isNonDigit, Bool.and_eq_true, Bool.or_eq_true, decide_eq_true_eq,
    beq_iff_eq, UInt16.le_iff_toNat_le, ← UInt16.toNat_inj] at hdigit hnon
  simp at hdigit hnon
  omega

lemma IsNumericIdentifier.all_isDigit (h : IsNumericIdentifier w) :
    w.all isDigit = true :=
  List.all_eq_true.2 h.digits

/-- A text determines what stands before its first `c`. -/
lemma append_cons_inj {α : Type*} {c : α} {xs xs' ys ys' : List α} (h : c ∉ xs) (h' : c ∉ xs')
    (heq : xs ++ c :: ys = xs' ++ c :: ys') : xs = xs' ∧ ys = ys' := by
  induction xs generalizing xs' with
  | nil =>
    cases xs' with
    | nil => exact ⟨rfl, (List.cons.inj heq).2⟩
    | cons x xs' =>
      cases heq
      simp at h'
  | cons x xs ih =>
    cases xs' with
    | nil =>
      cases heq
      simp at h
    | cons x' xs' =>
      obtain ⟨rfl, hrest⟩ := List.cons.inj heq
      obtain ⟨rfl, rfl⟩ := ih (fun hmem => h (List.mem_cons_of_mem _ hmem))
        (fun hmem => h' (List.mem_cons_of_mem _ hmem)) hrest
      exact ⟨rfl, rfl⟩

namespace Spelled

/-- Digits followed by a prerelease determine both. -/
lemma append_part_inj {w w' : Units} {p p' : Option (List Units)}
    (hw : ∀ c ∈ w, isDigit c = true) (hw' : ∀ c ∈ w', isDigit c = true)
    (hp : ∀ ids ∈ p, ids ≠ [] ∧ ∀ id ∈ ids, IsPrereleaseIdentifier id)
    (hp' : ∀ ids ∈ p', ids ≠ [] ∧ ∀ id ∈ ids, IsPrereleaseIdentifier id)
    (h : w ++ part hyphen p = w' ++ part hyphen p') : w = w' ∧ p = p' := by
  have hcut : ∀ (v : Units) (q : Option (List Units)), (∀ c ∈ v, isDigit c = true) →
      (v ++ part hyphen q).takeWhile isDigit = v := by
    intro v q hv
    rw [List.takeWhile_append_of_pos hv]
    cases q with
    | none => simp [part]
    | some ids => simp [part, isDigit, hyphen]
  have hww : w = w' := by rw [← hcut w p hw, h, hcut w' p' hw']
  subst hww
  have hpart := List.append_cancel_left h
  refine ⟨rfl, ?_⟩
  cases p with
  | none =>
    cases p' with
    | none => rfl
    | some ids => simp [part] at hpart
  | some ids =>
    cases p' with
    | none => simp [part] at hpart
    | some ids' =>
      obtain ⟨-, hids⟩ := List.cons.inj hpart
      obtain ⟨hne, hall⟩ := hp ids rfl
      obtain ⟨hne', hall'⟩ := hp' ids' rfl
      rw [← List.splitOn_intercalate dot (fun id hid => (hall id hid).dot_notMem) hne, hids,
        List.splitOn_intercalate dot (fun id hid => (hall' id hid).dot_notMem) hne']

/-- **A text without build metadata is spelled in one way.** -/
lemma text_injective {s t : Spelled} (hs : s.Valid) (ht : t.Valid) (hsb : s.build = none)
    (htb : t.build = none) (h : s.text = t.text) : s = t := by
  obtain ⟨major, minor, patch, pre, build⟩ := s
  obtain ⟨major', minor', patch', pre', build'⟩ := t
  obtain rfl : build = none := hsb
  obtain rfl : build' = none := htb
  have hnil : part plus none = [] := rfl
  simp only [text, hnil, List.append_nil] at h
  obtain ⟨rfl, htail⟩ := append_cons_inj hs.major.dot_notMem ht.major.dot_notMem h
  obtain ⟨rfl, hpatch⟩ := append_cons_inj hs.minor.dot_notMem ht.minor.dot_notMem htail
  obtain ⟨rfl, rfl⟩ := append_part_inj hs.patch.digits ht.patch.digits hs.prerelease
    ht.prerelease hpatch
  rfl

/-- What the groups of the pattern capture of a spelled version. -/
def groups (s : Spelled) : Captures UInt16 := fun i =>
  if i = 1 then some s.major else if i = 2 then some s.minor else if i = 3 then some s.patch
  else if i = 4 then s.prerelease.map fun ids => [dot].intercalate ids else none

end Spelled

/-- The text after the patch version. -/
lemma matches_prerelease {c c' : Captures UInt16} (hc : c 4 = none) :
    Matches (.opt (.seq (literal hyphen)
      (.group 4 (.seq prereleaseId (.star (.seq (literal dot) prereleaseId)))))) c w c' ↔
      ∃ pre : Option (List Units),
        (∀ ids ∈ pre, ids ≠ [] ∧ ∀ id ∈ ids, IsPrereleaseIdentifier id) ∧
        w = Spelled.part hyphen pre ∧
        c' = Function.update c 4 (pre.map fun ids => [dot].intercalate ids) := by
  have hclear : Regex.clear (.seq (literal hyphen)
      (.group 4 (.seq prereleaseId (.star (.seq (literal dot) prereleaseId))))) c = c := by
    funext i
    rw [Regex.clear]
    split_ifs with hi
    · obtain rfl : i = 4 := by simpa [Regex.groups, literal, prereleaseId, numeric] using hi
      exact hc.symm
    · rfl
  rw [matches_opt, hclear]
  constructor
  · rintro (⟨rfl, rfl⟩ | ⟨-, hm⟩)
    · refine ⟨none, by simp, rfl, ?_⟩
      rw [Option.map_none, ← hc, Function.update_eq_self]
    · obtain ⟨u, v, d, rfl, hu, hv⟩ := matches_seq.1 hm
      obtain ⟨rfl, rfl⟩ := (plain_literal hyphen _ _ _).1 hu
      obtain ⟨d, hd, rfl⟩ := matches_group.1 hv
      obtain ⟨⟨ids, hne, hids, rfl⟩, rfl⟩ := (plain_identifiers _ _ _).1 hd
      exact ⟨some ids, by simpa using ⟨hne, hids⟩, rfl, rfl⟩
  · rintro ⟨pre, hpre, rfl, rfl⟩
    cases pre with
    | none =>
      refine .inl ⟨rfl, ?_⟩
      rw [Option.map_none, ← hc, Function.update_eq_self]
    | some ids =>
      obtain ⟨hne, hids⟩ := hpre ids rfl
      refine .inr ⟨by simp [Spelled.part], matches_seq.2 ⟨[hyphen], _, c, rfl,
        (plain_literal hyphen _ _ _).2 ⟨rfl, rfl⟩, matches_group.2 ⟨c, ?_, rfl⟩⟩⟩
      exact (plain_identifiers _ _ _).2 ⟨⟨ids, hne, hids, rfl⟩, rfl⟩

lemma matches_group_numeric {i : ℕ} {c c' : Captures UInt16} :
    Matches (.group i numeric) c w c' ↔
      IsNumericIdentifier w ∧ c' = Function.update c i (some w) := by
  rw [matches_group]
  constructor
  · rintro ⟨d, hd, rfl⟩
    obtain ⟨hw, rfl⟩ := (plain_numeric _ _ _).1 hd
    exact ⟨hw, rfl⟩
  · rintro ⟨hw, rfl⟩
    exact ⟨c, (plain_numeric _ _ _).2 ⟨hw, rfl⟩, rfl⟩

/-- **What the pattern matches and captures.** -/
lemma matches_strictSemver {c : Captures UInt16} :
    Matches strictSemver (fun _ => none) w c ↔
      ∃ s : Spelled, s.Valid ∧ s.build = none ∧ s.text = w ∧ c = s.groups := by
  constructor
  · intro h
    obtain ⟨major, _, _, rfl, h₁, h⟩ := matches_seq.1 h
    obtain ⟨hmajor, rfl⟩ := matches_group_numeric.1 h₁
    obtain ⟨_, _, _, rfl, h₁, h⟩ := matches_seq.1 h
    obtain ⟨rfl, rfl⟩ := (plain_literal dot _ _ _).1 h₁
    obtain ⟨minor, _, _, rfl, h₁, h⟩ := matches_seq.1 h
    obtain ⟨hminor, rfl⟩ := matches_group_numeric.1 h₁
    obtain ⟨_, _, _, rfl, h₁, h⟩ := matches_seq.1 h
    obtain ⟨rfl, rfl⟩ := (plain_literal dot _ _ _).1 h₁
    obtain ⟨patch, _, _, rfl, h₁, h⟩ := matches_seq.1 h
    obtain ⟨hpatch, rfl⟩ := matches_group_numeric.1 h₁
    obtain ⟨pre, hpre, rfl, rfl⟩ := (matches_prerelease (by simp [Function.update])).1 h
    refine ⟨⟨major, minor, patch, pre, none⟩, ⟨hmajor, hminor, hpatch, hpre, by simp⟩, rfl,
      by simp [Spelled.text, Spelled.part], ?_⟩
    funext i
    simp only [Spelled.groups, Function.update_apply]
    split_ifs <;> simp_all
  · rintro ⟨⟨major, minor, patch, pre, build⟩, hs, rfl, rfl, rfl⟩
    refine matches_seq.2 ⟨major, _, _, rfl, matches_group_numeric.2 ⟨hs.major, rfl⟩, ?_⟩
    refine matches_seq.2 ⟨[dot], _, _, rfl, (plain_literal dot _ _ _).2 ⟨rfl, rfl⟩, ?_⟩
    refine matches_seq.2 ⟨minor, _, _, rfl, matches_group_numeric.2 ⟨hs.minor, rfl⟩, ?_⟩
    refine matches_seq.2 ⟨[dot], _, _, rfl, (plain_literal dot _ _ _).2 ⟨rfl, rfl⟩, ?_⟩
    refine matches_seq.2 ⟨patch, _, _, rfl, matches_group_numeric.2 ⟨hs.patch, rfl⟩, ?_⟩
    refine (matches_prerelease (by simp [Function.update])).2 ⟨pre, hs.prerelease, ?_, ?_⟩
    · simp [Spelled.part]
    · funext i
      simp only [Spelled.groups, Function.update_apply]
      split_ifs <;> simp_all

/-! ### Numbers -/

/-- Beyond the safe integers, rounding stays there. -/
lemma two_pow_le_toDouble {x : ℚ} (h : 2 ^ 53 ≤ x) : 2 ^ 53 ≤ toDouble x := by
  have hdiv : ((2 ^ 52 : ℤ) : ℚ) / 2 ^ (-1 : ℤ) = 2 ^ 53 := by norm_num
  have := div_le_toDouble (x := x) (k := 2 ^ 52) (n := -1) (by norm_num) (by norm_num)
    (by rw [hdiv]; exact h)
  rwa [hdiv] at this

/-- **`toSafeInt`** returns the number itself, if it is safe. -/
lemma toSafeInt_eq_some {n : ℕ} :
    toSafeInt w = some n ↔ digitsNumber w < 2 ^ 53 ∧ n = digitsNumber w := by
  simp only [toSafeInt]
  by_cases h : digitsNumber w < 2 ^ 53
  · have hround : toDouble (digitsNumber w : ℚ) = (digitsNumber w : ℚ) := by
      have := toDouble_intCast (k := (digitsNumber w : ℤ)) (by omega) (by omega)
      exact_mod_cast this
    have hle : (digitsNumber w : ℚ) ≤ 2 ^ 53 - 1 := by
      have : (digitsNumber w : ℚ) + 1 ≤ 2 ^ 53 := by exact_mod_cast h
      linarith
    have hsafe : isSafeInteger (digitsNumber w : ℚ) = true := by simp [isSafeInteger, hle]
    rw [hround, if_pos hsafe]
    simp only [Rat.num_natCast, Int.toNat_natCast, Option.some.injEq, h, true_and]
    exact eq_comm
  · have hle : (2 : ℚ) ^ 53 ≤ (digitsNumber w : ℚ) := by exact_mod_cast not_lt.1 h
    have hround := two_pow_le_toDouble hle
    have habs : ¬ |toDouble (digitsNumber w : ℚ)| ≤ 2 ^ 53 - 1 := by
      rw [abs_of_nonneg (le_trans (by norm_num) hround)]
      linarith
    have hsafe : ¬ isSafeInteger (toDouble (digitsNumber w : ℚ)) = true := by
      simp only [isSafeInteger, Bool.and_eq_true, decide_eq_true_eq]
      exact fun h => habs h.2
    rw [if_neg hsafe]
    simp only [h, false_and, reduceCtorEq]

/-- The digits of a numeric identifier, the lowest first. -/
lemma digits_digitsNumber (h : IsNumericIdentifier w) (h0 : w ≠ [48]) :
    Nat.digits 10 (digitsNumber w) = w.reverse.map fun c => c.toNat - 48 := by
  obtain ⟨d, ds, hd, hds, rfl⟩ := h.resolve_left h0
  refine Nat.digits_ofDigits 10 (by norm_num) _ ?_ ?_
  · intro n hn
    obtain ⟨c, hc, rfl⟩ := List.mem_map.1 hn
    have hdigit : isDigit c = true := h.digits c (List.mem_reverse.1 hc)
    simp only [isDigit, Bool.and_eq_true, decide_eq_true_eq, UInt16.le_iff_toNat_le] at hdigit
    simp at hdigit
    omega
  · intro _
    simp only [isPositiveDigit, Bool.and_eq_true, decide_eq_true_eq,
      UInt16.le_iff_toNat_le] at hd
    simp at hd
    simp
    omega

/-- **Numeric identifiers of one value are one text.** -/
lemma digitsNumber_injective {w' : Units} (h : IsNumericIdentifier w) (h' : IsNumericIdentifier w')
    (heq : digitsNumber w = digitsNumber w') : w = w' := by
  have hzero : digitsNumber [48] = 0 := rfl
  have hpos : ∀ v, IsNumericIdentifier v → v ≠ [48] → digitsNumber v ≠ 0 := by
    intro v hv hv0 hv'
    have hdigits := digits_digitsNumber hv hv0
    rw [hv', Nat.digits_zero] at hdigits
    exact hv.ne_nil (by simpa using hdigits.symm)
  by_cases h0 : w = [48]
  · by_cases h0' : w' = [48]
    · rw [h0, h0']
    · rw [h0, hzero] at heq
      exact absurd heq.symm (hpos w' h' h0')
  · by_cases h0' : w' = [48]
    · rw [h0', hzero] at heq
      exact absurd heq (hpos w h h0)
    · have hdigits := (digits_digitsNumber h h0).symm.trans
        ((congrArg (Nat.digits 10) heq).trans (digits_digitsNumber h' h0'))
      -- the units of digits are `48` above their values
      have hback : ∀ v : Units, IsNumericIdentifier v →
          ((v.reverse.map fun c => c.toNat - 48).map fun n => UInt16.ofNat (n + 48)).reverse
            = v := by
        intro v hv
        rw [List.map_map, ← List.map_reverse, List.reverse_reverse]
        refine (List.map_congr_left fun c hc => ?_).trans (List.map_id v)
        have hdigit : isDigit c = true := hv.digits c hc
        simp only [isDigit, Bool.and_eq_true, decide_eq_true_eq,
          UInt16.le_iff_toNat_le] at hdigit
        simp at hdigit
        simp only [Function.comp_apply, id_eq]
        rw [Nat.sub_add_cancel hdigit.1, UInt16.ofNat_toNat]
      rw [← hback w h, hdigits, hback w' h']

/-! ### What the parser accepts -/

lemma exec_numericId_isSome (w : Units) :
    (numericId.exec w).isSome = true ↔ w ≠ [] ∧ w.all isDigit = true := by
  have hplain : Plain numericId fun w => w ≠ [] ∧ w.all isDigit = true := by
    refine (plain_unit.seq plain_star_unit).congr fun w => ?_
    constructor
    · rintro ⟨u, v, rfl, ⟨d, hd, rfl⟩, hv⟩
      exact ⟨by simp, List.all_eq_true.2 (List.forall_mem_cons.2 ⟨hd, hv⟩)⟩
    · rintro ⟨hne, hall⟩
      obtain ⟨d, v, rfl⟩ := List.exists_cons_of_ne_nil hne
      obtain ⟨hd, hv⟩ := List.forall_mem_cons.1 (List.all_eq_true.1 hall)
      exact ⟨[d], v, rfl, ⟨d, hd, rfl⟩, hv⟩
  constructor
  · intro h
    obtain ⟨c, hc⟩ := Option.isSome_iff_exists.1 h
    exact ((hplain _ _ _).1 (Regex.matches_of_exec hc)).1
  · intro h
    by_contra hnone
    rw [Option.not_isSome_iff_eq_none] at hnone
    exact Regex.exec_eq_none.1 hnone _ ((hplain _ _ _).2 ⟨h, rfl⟩)

/-- One identifier: refused if it is a number that is not safe. -/
lemma parseIdentifier_eq_some {id : Units} (h : IsPrereleaseIdentifier id) {x : Identifier} :
    parseIdentifier id = some x ↔
      (IsNumericIdentifier id → digitsNumber id < 2 ^ 53) ∧ x = Spelled.identifier id := by
  unfold parseIdentifier Spelled.identifier
  rcases h with h | h
  · have hexec := (exec_numericId_isSome id).2 ⟨h.ne_nil, h.all_isDigit⟩
    rw [if_pos hexec, if_pos h.all_isDigit, Option.map_eq_some_iff]
    constructor
    · rintro ⟨n, hn, rfl⟩
      obtain ⟨hsafe, rfl⟩ := toSafeInt_eq_some.1 hn
      exact ⟨fun _ => hsafe, rfl⟩
    · rintro ⟨hsafe, rfl⟩
      exact ⟨_, toSafeInt_eq_some.2 ⟨hsafe h, rfl⟩, rfl⟩
  · have hnum : ¬ IsNumericIdentifier id := fun hnum => by
      simpa [h.all_isDigit] using hnum.all_isDigit
    have hexec : ¬ (numericId.exec id).isSome = true := by
      rw [exec_numericId_isSome, h.all_isDigit]
      simp
    rw [if_neg hexec, h.all_isDigit]
    simp [hnum, eq_comm]

lemma mapM_parseIdentifier_eq_some : ∀ {ids : List Units} {l : List Identifier},
    (∀ id ∈ ids, IsPrereleaseIdentifier id) →
    (ids.mapM parseIdentifier = some l ↔
      (∀ id ∈ ids, IsNumericIdentifier id → digitsNumber id < 2 ^ 53) ∧
        l = ids.map Spelled.identifier)
  | [], l, _ => by simp [eq_comm]
  | id :: ids, l, h => by
    obtain ⟨hid, hids⟩ := List.forall_mem_cons.1 h
    simp only [List.mapM_cons, Option.bind_eq_bind, Option.bind_eq_some_iff, Option.pure_def,
      Option.some.injEq, parseIdentifier_eq_some hid, mapM_parseIdentifier_eq_some hids,
      List.forall_mem_cons, List.map_cons]
    constructor
    · rintro ⟨_, ⟨hsafe, rfl⟩, _, ⟨hrest, rfl⟩, rfl⟩
      exact ⟨⟨hsafe, hrest⟩, rfl⟩
    · rintro ⟨⟨hsafe, hrest⟩, rfl⟩
      exact ⟨_, ⟨hsafe, rfl⟩, _, ⟨hrest, rfl⟩, rfl⟩

/-- The prerelease of a spelled version. -/
lemma parsePrerelease_eq_some {pre : Option (List Units)} {l : List Identifier}
    (h : ∀ ids ∈ pre, ids ≠ [] ∧ ∀ id ∈ ids, IsPrereleaseIdentifier id) :
    parsePrerelease (pre.map fun ids => [dot].intercalate ids) = some l ↔
      (∀ ids ∈ pre, ∀ id ∈ ids, IsNumericIdentifier id → digitsNumber id < 2 ^ 53) ∧
        l = (pre.getD []).map Spelled.identifier := by
  cases pre with
  | none => simp [parsePrerelease, eq_comm]
  | some ids =>
    obtain ⟨hne, hids⟩ := h ids rfl
    have htext : [dot].intercalate ids ≠ [] := by
      obtain ⟨id, rest, rfl⟩ := List.exists_cons_of_ne_nil hne
      rw [intercalate_cons]
      exact List.append_ne_nil_of_left_ne_nil (hids id (by simp)).ne_nil _
    have hsplit : parsePrerelease (some ([dot].intercalate ids)) =
        (([dot].intercalate ids).splitOn dot).mapM parseIdentifier := by
      unfold parsePrerelease
      split <;> simp_all
    rw [Option.map_some, hsplit,
      List.splitOn_intercalate dot (fun id hid => (hids id hid).dot_notMem) hne,
      mapM_parseIdentifier_eq_some hids]
    simp

/-- **What the parser makes of a spelled version.** -/
lemma parseStrictSemver_text {s : Spelled} (hs : s.Valid) (hb : s.build = none)
    {v : ParsedSemver} :
    parseStrictSemver s.text = some v ↔
      s.text.length ≤ maxSemverLength ∧ s.Safe ∧ v = s.value := by
  have hexec : strictSemver.exec s.text = some s.groups := by
    cases hc : strictSemver.exec s.text with
    | none =>
      exact absurd (matches_strictSemver.2 ⟨s, hs, hb, rfl, rfl⟩) (Regex.exec_eq_none.1 hc _)
    | some c =>
      obtain ⟨t, ht, htb, htext, rfl⟩ := matches_strictSemver.1 (Regex.matches_of_exec hc)
      rw [Spelled.text_injective ht hs htb hb htext]
  have hgroups : s.groups 1 = some s.major ∧ s.groups 2 = some s.minor ∧
      s.groups 3 = some s.patch ∧
      s.groups 4 = s.prerelease.map fun ids => [dot].intercalate ids := ⟨rfl, rfl, rfl, rfl⟩
  obtain ⟨h₁, h₂, h₃, h₄⟩ := hgroups
  unfold parseStrictSemver
  by_cases hlen : s.text.length ≤ maxSemverLength
  · rw [if_neg (by omega)]
    simp only [hexec, h₁, h₂, h₃, h₄, Option.bind_eq_bind, Option.bind_some,
      Option.bind_eq_some_iff, toSafeInt_eq_some, parsePrerelease_eq_some hs.prerelease,
      Option.pure_def, Option.some.injEq]
    constructor
    · rintro ⟨_, ⟨hmajor, rfl⟩, _, ⟨hminor, rfl⟩, _, ⟨hpatch, rfl⟩, _, ⟨hpre, rfl⟩, rfl⟩
      exact ⟨hlen, ⟨hmajor, hminor, hpatch, hpre⟩, rfl⟩
    · rintro ⟨-, ⟨hmajor, hminor, hpatch, hpre⟩, rfl⟩
      exact ⟨_, ⟨hmajor, rfl⟩, _, ⟨hminor, rfl⟩, _, ⟨hpatch, rfl⟩, _, ⟨hpre, rfl⟩, rfl⟩
  · rw [if_pos (by omega)]
    simp [hlen]

/-- A text of the grammar within the limits, without build metadata. -/
def Spelled.Accepted (s : Spelled) : Prop :=
  s.Valid ∧ s.build = none ∧ s.text.length ≤ maxSemverLength ∧ s.Safe

/-- **What the parser accepts, and what it returns.** -/
lemma parseStrictSemver_eq_some_iff {v : ParsedSemver} :
    parseStrictSemver w = some v ↔ ∃ s : Spelled, s.Accepted ∧ s.text = w ∧ v = s.value := by
  constructor
  · intro h
    have hexec : ∃ c, strictSemver.exec w = some c := by
      unfold parseStrictSemver at h
      split_ifs at h
      obtain ⟨c, hc, -⟩ := Option.bind_eq_some_iff.1 h
      exact ⟨c, hc⟩
    obtain ⟨c, hc⟩ := hexec
    obtain ⟨s, hs, hb, rfl, -⟩ := matches_strictSemver.1 (Regex.matches_of_exec hc)
    obtain ⟨hlen, hsafe, rfl⟩ := (parseStrictSemver_text hs hb).1 h
    exact ⟨s, ⟨hs, hb, hlen, hsafe⟩, rfl, rfl⟩
  · rintro ⟨s, ⟨hs, hb, hlen, hsafe⟩, rfl, rfl⟩
    exact (parseStrictSemver_text hs hb).2 ⟨hlen, hsafe, rfl⟩

/-! ### The comparison of accepted texts -/

lemma Identifier.key_injective : Function.Injective Identifier.key := by
  have hunits : Function.Injective (List.map UInt16.toNat) :=
    List.map_injective_iff.2 fun _ _ => UInt16.toNat_inj.1
  rintro (a | a) (b | b) h
  · simpa [Identifier.key] using h
  · simp [Identifier.key] at h
  · simp [Identifier.key] at h
  · simpa [Identifier.key, hunits.eq_iff] using h

lemma prereleaseKey_injective : Function.Injective prereleaseKey := by
  intro a b h
  unfold prereleaseKey at h
  split_ifs at h with ha hb hb
  · rw [ha, hb]
  · exact absurd h WithTop.top_ne_coe
  · exact absurd h WithTop.coe_ne_top
  · exact List.map_injective_iff.2 Identifier.key_injective (WithTop.coe_injective h)

/-- Versions of one precedence are the same version. -/
lemma ParsedSemver.precedence_injective : Function.Injective ParsedSemver.precedence := by
  rintro ⟨major, minor, patch, pre⟩ ⟨major', minor', patch', pre'⟩ h
  simp only [ParsedSemver.precedence, EmbeddingLike.apply_eq_iff_eq, Prod.mk.injEq] at h
  obtain ⟨rfl, rfl, rfl, hpre⟩ := h
  rw [prereleaseKey_injective hpre]

/-- A prerelease identifier is the text of what it stands for. -/
lemma identifier_injective {id id' : Units} (h : IsPrereleaseIdentifier id)
    (h' : IsPrereleaseIdentifier id') (heq : Spelled.identifier id = Spelled.identifier id') :
    id = id' := by
  unfold Spelled.identifier at heq
  rcases h with h | h <;> rcases h' with h' | h'
  · rw [if_pos h.all_isDigit, if_pos h'.all_isDigit] at heq
    exact digitsNumber_injective h h' (Identifier.number.inj heq)
  · simp [h.all_isDigit, h'.all_isDigit] at heq
  · simp [h.all_isDigit, h'.all_isDigit] at heq
  · simpa [h.all_isDigit, h'.all_isDigit] using heq

lemma map_identifier_injective : ∀ {ids ids' : List Units},
    (∀ id ∈ ids, IsPrereleaseIdentifier id) → (∀ id ∈ ids', IsPrereleaseIdentifier id) →
    ids.map Spelled.identifier = ids'.map Spelled.identifier → ids = ids'
  | [], [], _, _, _ => rfl
  | [], _ :: _, _, _, h => by simp at h
  | _ :: _, [], _, _, h => by simp at h
  | id :: ids, id' :: ids', h, h', heq => by
    obtain ⟨hid, hids⟩ := List.forall_mem_cons.1 h
    obtain ⟨hid', hids'⟩ := List.forall_mem_cons.1 h'
    rw [List.map_cons, List.map_cons] at heq
    obtain ⟨hhead, htail⟩ := List.cons.inj heq
    rw [identifier_injective hid hid' hhead, map_identifier_injective hids hids' htail]

/-- **Texts without build metadata that stand for one version are one text.** -/
lemma Spelled.value_injective {s t : Spelled} (hs : s.Valid) (ht : t.Valid)
    (hsb : s.build = none) (htb : t.build = none) (h : s.value = t.value) : s = t := by
  obtain ⟨major, minor, patch, pre, build⟩ := s
  obtain ⟨major', minor', patch', pre', build'⟩ := t
  obtain rfl : build = none := hsb
  obtain rfl : build' = none := htb
  simp only [Spelled.value, ParsedSemver.mk.injEq] at h
  obtain ⟨hmajor, hminor, hpatch, hpre⟩ := h
  obtain rfl := digitsNumber_injective hs.major ht.major hmajor
  obtain rfl := digitsNumber_injective hs.minor ht.minor hminor
  obtain rfl := digitsNumber_injective hs.patch ht.patch hpatch
  have hvalid := hs.prerelease
  have hvalid' := ht.prerelease
  -- a prerelease is not empty, so an absent one stands for another list
  cases pre with
  | none =>
    cases pre' with
    | none => rfl
    | some ids' => exact absurd hpre (by simpa [eq_comm] using (hvalid' ids' rfl).1)
  | some ids =>
    cases pre' with
    | none => exact absurd hpre (by simpa using (hvalid ids rfl).1)
    | some ids' =>
      rw [map_identifier_injective (hvalid ids rfl).2 (hvalid' ids' rfl).2 hpre]

/-- **`compareSemverStrings` on accepted texts.** -/
lemma compareSemverStrings_text {s t : Spelled} (hs : s.Accepted) (ht : t.Accepted) :
    ∃ r, compareSemverStrings s.text t.text = some r ∧
      Compares r s.precedence t.precedence := by
  have hps := parseStrictSemver_eq_some_iff.2 ⟨s, hs, rfl, rfl⟩
  have hpt := parseStrictSemver_eq_some_iff.2 ⟨t, ht, rfl, rfl⟩
  refine ⟨compareSemver s.value t.value, ?_, compares_compareSemver _ _⟩
  simp [compareSemverStrings, hps, hpt]

/-- `a` is not above `b`, as `compareSemverStrings` says. -/
def NotAbove (a b : Units) : Prop := ∃ r ≤ 0, compareSemverStrings a b = some r

lemma notAbove_iff {s t : Spelled} (hs : s.Accepted) (ht : t.Accepted) :
    NotAbove s.text t.text ↔ s.precedence ≤ t.precedence := by
  obtain ⟨r, hr, hcmp⟩ := compareSemverStrings_text hs ht
  rw [NotAbove, hr, ← not_lt, ← hcmp.pos]
  simp

/-- **The parser and the comparison**: accepted are the texts of the SemVer 2.0 grammar without
build metadata that are within the limits, and on them the comparison is the precedence of
section 11, a linear order. -/
theorem compareSemverStrings_precedence :
    (∀ w, (parseStrictSemver w).isSome = true ↔ ∃ s : Spelled, s.Accepted ∧ s.text = w) ∧
      (∀ s t : Spelled, s.Accepted → t.Accepted →
        ∃ r, compareSemverStrings s.text t.text = some r ∧
          Compares r s.precedence t.precedence) ∧
      (∀ a, (parseStrictSemver a).isSome = true → NotAbove a a) ∧
      (∀ a b, NotAbove a b → NotAbove b a → a = b) ∧
      (∀ a b c, NotAbove a b → NotAbove b c → NotAbove a c) ∧
      (∀ a b, (parseStrictSemver a).isSome = true → (parseStrictSemver b).isSome = true →
        NotAbove a b ∨ NotAbove b a) := by
  have haccepted : ∀ w, (parseStrictSemver w).isSome = true ↔
      ∃ s : Spelled, s.Accepted ∧ s.text = w := by
    intro w
    rw [Option.isSome_iff_exists]
    simp only [parseStrictSemver_eq_some_iff]
    exact ⟨fun ⟨_, s, hs, hw, _⟩ => ⟨s, hs, hw⟩, fun ⟨s, hs, hw⟩ => ⟨_, s, hs, hw, rfl⟩⟩
  -- what is compared is accepted
  have hboth : ∀ a b, NotAbove a b → ∃ s t : Spelled, s.Accepted ∧ t.Accepted ∧ s.text = a ∧
      t.text = b := by
    rintro a b ⟨r, -, hr⟩
    obtain ⟨v, hv, hr⟩ := Option.bind_eq_some_iff.1 hr
    obtain ⟨v', hv', -⟩ := Option.bind_eq_some_iff.1 hr
    obtain ⟨s, hs, hsa, -⟩ := parseStrictSemver_eq_some_iff.1 hv
    obtain ⟨t, ht, htb, -⟩ := parseStrictSemver_eq_some_iff.1 hv'
    exact ⟨s, t, hs, ht, hsa, htb⟩
  refine ⟨haccepted, fun s t => compareSemverStrings_text, ?_, ?_, ?_, ?_⟩
  · intro a ha
    obtain ⟨s, hs, rfl⟩ := (haccepted a).1 ha
    exact (notAbove_iff hs hs).2 le_rfl
  · intro a b hab hba
    obtain ⟨s, t, hs, ht, rfl, rfl⟩ := hboth a b hab
    have heq := le_antisymm ((notAbove_iff hs ht).1 hab) ((notAbove_iff ht hs).1 hba)
    rw [Spelled.value_injective hs.1 ht.1 hs.2.1 ht.2.1
      (ParsedSemver.precedence_injective heq)]
  · intro a b c hab hbc
    obtain ⟨s, t, hs, ht, rfl, rfl⟩ := hboth a b hab
    obtain ⟨t', u, ht', hu, htt', rfl⟩ := hboth _ c hbc
    have hbc' : NotAbove t'.text u.text := htt' ▸ hbc
    have heq : t' = t := Spelled.text_injective ht'.1 ht.1 ht'.2.1 ht.2.1 htt'
    subst heq
    exact (notAbove_iff hs hu).2
      (((notAbove_iff hs ht).1 hab).trans ((notAbove_iff ht hu).1 hbc'))
  · intro a b ha hb
    obtain ⟨s, hs, rfl⟩ := (haccepted a).1 ha
    obtain ⟨t, ht, rfl⟩ := (haccepted b).1 hb
    rw [notAbove_iff hs ht, notAbove_iff ht hs]
    exact le_total _ _

/-- The first release. -/
def firstRelease : Spelled := ⟨[49], [48], [48], none, none⟩

/-- Its first candidate, `1.0.0-rc.1`. -/
def firstCandidate : Spelled := ⟨[49], [48], [48], some [[114, 99], [49]], none⟩

lemma firstRelease_accepted : firstRelease.Accepted := by
  refine ⟨⟨.inr ⟨49, [], rfl, by simp, rfl⟩, .inl rfl, .inl rfl, by simp [firstRelease],
    by simp [firstRelease]⟩, rfl, by decide, ⟨?_, ?_, ?_, by simp [firstRelease]⟩⟩ <;> decide

lemma firstCandidate_accepted : firstCandidate.Accepted := by
  have hone : IsNumericIdentifier [49] := .inr ⟨49, [], rfl, by simp, rfl⟩
  have hrc : IsAlphanumericIdentifier [114, 99] :=
    ⟨by simp [isIdentifierUnit, isDigit, isNonDigit], 114, by simp, rfl⟩
  refine ⟨⟨hone, .inl rfl, .inl rfl, ?_, by simp [firstCandidate]⟩, rfl, by decide,
    ⟨by decide, by decide, by decide, ?_⟩⟩
  · rintro ids hids
    obtain rfl : [[114, 99], [49]] = ids := by simpa [firstCandidate] using hids
    refine ⟨by simp, fun id hid => ?_⟩
    simp only [List.mem_cons, List.not_mem_nil, or_false] at hid
    rcases hid with rfl | rfl
    · exact .inr hrc
    · exact .inl hone
  · rintro ids hids id hid hnum
    obtain rfl : [[114, 99], [49]] = ids := by simpa [firstCandidate] using hids
    simp only [List.mem_cons, List.not_mem_nil, or_false] at hid
    rcases hid with rfl | rfl
    · simpa [hrc.all_isDigit] using hnum.all_isDigit
    · decide

/-- The candidate is below the release. -/
theorem compareSemverStrings_precedence_candidate :
    ∃ r, compareSemverStrings (units "1.0.0-rc.1") (units "1.0.0") = some r ∧ r < 0 := by
  obtain ⟨r, hr, hcmp⟩ := compareSemverStrings_precedence.2.1 firstCandidate firstRelease
    firstCandidate_accepted firstRelease_accepted
  refine ⟨r, hr, hcmp.neg.2 ?_⟩
  simp [Spelled.precedence, ParsedSemver.precedence, Spelled.value, firstCandidate, firstRelease,
    prereleaseKey, Prod.Lex.toLex_lt_toLex, WithTop.coe_lt_top]

/-- A text of the grammar within the limits that is refused for its build metadata. -/
theorem buildMetadata_refused :
    ∃ s : Spelled, s.Valid ∧ s.Safe ∧ s.text = units "1.0.0+build" ∧
      s.text.length ≤ maxSemverLength ∧ parseStrictSemver s.text = none := by
  have hall : (units "build").all isIdentifierUnit = true := by decide
  have hbuild : IsAlphanumericIdentifier (units "build") :=
    ⟨List.all_eq_true.1 hall, 98, by decide, rfl⟩
  refine ⟨⟨[49], [48], [48], none, some [units "build"]⟩,
    ⟨.inr ⟨49, [], rfl, by simp, rfl⟩, .inl rfl, .inl rfl, by simp, ?_⟩,
    ⟨by decide, by decide, by decide, by simp⟩, by decide, by decide, ?_⟩
  · rintro ids hids
    obtain rfl : [units "build"] = ids := by simpa using hids
    exact ⟨by simp, fun id hid => .inl (List.mem_singleton.1 hid ▸ hbuild)⟩
  · have hexec : strictSemver.exec (units "1.0.0+build") = none := by decide
    have htext : (⟨[49], [48], [48], none, some [units "build"]⟩ : Spelled).text =
        units "1.0.0+build" := by decide
    rw [htext, parseStrictSemver, hexec]
    rfl

end Semver
