import Mathlib.Tactic
import Mathlib.Data.List.Basic

/-!
Strings read by offset, the way `indexOf`, `slice` and `startsWith` read them.

A string is a list over an alphabet `α`; the strings of the language are the lists of
16-bit code units, lone surrogates included (`Units`).
-/

namespace Js

/-- The strings of the language: lists of UTF-16 code units. -/
abbrev Units : Type := List UInt16

/-- A text of the program, all of whose characters are in the basic plane. -/
def units (s : String) : Units := s.toList.map fun c => UInt16.ofNat c.toNat

section Offsets

variable {α : Type*}

/-- `text.slice(start, stop)` for `0 ≤ start`. -/
def slice (text : List α) (start stop : ℕ) : List α := (text.take stop).drop start

/-- A cut out of the middle of a text. -/
lemma slice_append (front mid rest : List α) :
    slice (front ++ (mid ++ rest)) front.length (front.length + mid.length) = mid := by
  rw [slice, ← List.append_assoc, ← List.length_append, List.take_left, List.drop_left]

/-- A cut that is not empty starts with the unit at its start. -/
lemma head?_slice (text : List α) {start stop : ℕ} (h : start < stop) :
    (slice text start stop).head? = text[start]? := by
  rw [slice, List.head?_drop, List.getElem?_take_of_lt h]

lemma getElem?_length_append (front : List α) (c : α) (rest : List α) :
    (front ++ c :: rest)[front.length]? = some c := by
  simp

variable [DecidableEq α]

/-- `text.indexOf(c, start)` for a single code unit, `none` standing for `-1`. -/
def indexOf (text : List α) (c : α) (start : ℕ) : Option ℕ :=
  ((text.drop start).findIdx? (· == c)).map (start + ·)

/-- `text.startsWith(s, pos)`. -/
def startsWithAt (text s : List α) (pos : ℕ) : Bool := s.isPrefixOf (text.drop pos)

/-- `value.replaceAll(c, by)` for a single code unit. -/
def replaceAll (value : List α) (c : α) (r : List α) : List α :=
  value.flatMap fun x => if x = c then r else [x]

/-! ### What is found -/

lemma indexOf_bounds {text : List α} {c : α} {start i : ℕ} (h : indexOf text c start = some i) :
    start ≤ i ∧ i < text.length := by
  rw [indexOf, Option.map_eq_some_iff] at h
  obtain ⟨j, hj, rfl⟩ := h
  have hlt := (List.findIdx?_eq_some_iff_getElem.1 hj).1
  rw [List.length_drop] at hlt
  omega

lemma getElem?_of_indexOf {text : List α} {c : α} {start i : ℕ}
    (h : indexOf text c start = some i) : text[i]? = some c := by
  rw [indexOf, Option.map_eq_some_iff] at h
  obtain ⟨j, hj, rfl⟩ := h
  obtain ⟨hlt, hc, -⟩ := List.findIdx?_eq_some_iff_getElem.1 hj
  have hget := List.getElem?_eq_getElem hlt
  rw [List.getElem?_drop] at hget
  rw [hget, eq_of_beq hc]

/-- The first occurrence behind a piece that does not contain the unit. -/
lemma indexOf_append {c : α} (front : List α) {mid : List α} (rest : List α) (hmid : c ∉ mid) :
    indexOf (front ++ (mid ++ c :: rest)) c front.length = some (front.length + mid.length) := by
  rw [indexOf, List.drop_left]
  have hfind : (mid ++ c :: rest).findIdx? (· == c) = some mid.length := by
    rw [List.findIdx?_append, List.findIdx?_eq_none_iff.2, List.findIdx?_cons]
    · simp
    · intro x hx
      simpa using fun hxc : x = c => hmid (hxc ▸ hx)
  rw [hfind, Option.map_some]

/-! ### Replacing -/

@[simp] lemma replaceAll_nil (c : α) (r : List α) : replaceAll [] c r = [] := rfl

lemma replaceAll_append (a b : List α) (c : α) (r : List α) :
    replaceAll (a ++ b) c r = replaceAll a c r ++ replaceAll b c r := by
  rw [replaceAll, List.flatMap_append]
  rfl

lemma replaceAll_cons_self (c : α) (b r : List α) :
    replaceAll (c :: b) c r = r ++ replaceAll b c r := by
  rw [replaceAll, List.flatMap_cons, if_pos rfl]
  rfl

/-- Nothing is replaced where the unit does not occur. -/
lemma replaceAll_of_notMem {a : List α} {c : α} (h : c ∉ a) (r : List α) :
    replaceAll a c r = a := by
  induction a with
  | nil => rfl
  | cons x a ih =>
    have hx : x ≠ c := fun hxc => h (hxc ▸ List.mem_cons_self)
    have ha := ih fun hmem => h (List.mem_cons_of_mem x hmem)
    rw [replaceAll] at ha ⊢
    rw [List.flatMap_cons, if_neg hx, ha, List.singleton_append]

end Offsets

/-! ### Surrogates -/

def isHighSurrogate (c : UInt16) : Bool := 0xD800 ≤ c && c ≤ 0xDBFF

def isLowSurrogate (c : UInt16) : Bool := 0xDC00 ≤ c && c ≤ 0xDFFF

/-- `Buffer.byteLength(value, 'utf8')`: a lone surrogate is written as U+FFFD. -/
def byteLength : Units → ℕ
  | [] => 0
  | [c] => unitBytes c
  | c :: d :: cs =>
    if isHighSurrogate c && isLowSurrogate d then 4 + byteLength cs
    else unitBytes c + byteLength (d :: cs)
where
  /-- The bytes of a unit that is not half of a pair. -/
  unitBytes (c : UInt16) : ℕ := if c < 0x80 then 1 else if c < 0x800 then 2 else 3

/-- `/\p{Cs}/u.test(value)`. -/
def hasLoneSurrogate : Units → Bool
  | [] => false
  | [c] => isHighSurrogate c || isLowSurrogate c
  | c :: d :: cs =>
    if isHighSurrogate c && isLowSurrogate d then hasLoneSurrogate cs
    else isHighSurrogate c || isLowSurrogate c || hasLoneSurrogate (d :: cs)

/-- A text that is not empty has bytes. -/
lemma byteLength_pos {s : Units} (h : s ≠ []) : 0 < byteLength s := by
  have hunit : ∀ c, 0 < byteLength.unitBytes c := fun c => by
    rw [byteLength.unitBytes]
    split_ifs <;> omega
  match s with
  | [] => exact absurd rfl h
  | [c] => exact hunit c
  | c :: d :: cs =>
    rw [byteLength]
    split
    · omega
    · exact Nat.add_pos_left (hunit c) _

end Js
