import Mathlib.Tactic
import Mathlib.Data.List.Sort

/-!
JSON values of a JavaScript program and their text.
-/

namespace Js

/-! ### Numerals -/

/-- The states of the automaton for the number grammar of JSON. -/
inductive NumState where
  | start | minus | zero | int | dot | frac | exp | expSign | expDigit

/-- The digits `1` to `9`. -/
def isNonzeroDigit (c : Char) : Bool := c.isDigit && c != '0'

/-- One character of a numeral. -/
def NumState.next : NumState → Char → Option NumState
  | .start, c =>
    if c = '-' then some .minus else if c = '0' then some .zero
    else if isNonzeroDigit c then some .int else none
  | .minus, c =>
    if c = '0' then some .zero else if isNonzeroDigit c then some .int else none
  | .zero, c =>
    if c = '.' then some .dot else if c = 'e' ∨ c = 'E' then some .exp else none
  | .int, c =>
    if c.isDigit then some .int else if c = '.' then some .dot
    else if c = 'e' ∨ c = 'E' then some .exp else none
  | .dot, c => if c.isDigit then some .frac else none
  | .frac, c =>
    if c.isDigit then some .frac else if c = 'e' ∨ c = 'E' then some .exp else none
  | .exp, c =>
    if c = '+' ∨ c = '-' then some .expSign else if c.isDigit then some .expDigit else none
  | .expSign, c => if c.isDigit then some .expDigit else none
  | .expDigit, c => if c.isDigit then some .expDigit else none

/-- The states in which a numeral may end. -/
def NumState.final : NumState → Bool
  | .zero | .int | .frac | .expDigit => true
  | _ => false

/-- The automaton accepts the rest of a numeral. -/
def NumState.accepts : NumState → List Char → Bool
  | q, [] => q.final
  | q, c :: cs =>
    match q.next c with
    | some q' => q'.accepts cs
    | none => false

/-- The characters that occur in numerals. -/
def isNumChar (c : Char) : Bool :=
  c.isDigit || c == '-' || c == '+' || c == '.' || c == 'e' || c == 'E'

/-- A finite number, held as its numeral. -/
structure NumLit where
  chars : List Char
  wf : NumState.start.accepts chars = true
  deriving DecidableEq

lemma NumState.isNumChar_of_next {q q' : NumState} {c : Char} (h : q.next c = some q') :
    isNumChar c = true := by
  cases q <;> simp only [NumState.next, isNonzeroDigit] at h <;> split_ifs at h <;>
    simp_all [isNumChar] <;> (rename_i h1; rcases h1 with rfl | rfl <;> simp)

/-- Every character of a numeral is a numeral character. -/
lemma NumState.isNumChar_of_accepts : ∀ (q : NumState) (cs : List Char),
    q.accepts cs = true → ∀ c ∈ cs, isNumChar c = true
  | _, [], _ => by simp
  | q, c :: cs, h => by
    rw [NumState.accepts] at h
    split at h
    · next q' hq =>
        intro d hd
        rcases List.mem_cons.mp hd with rfl | hd
        · exact NumState.isNumChar_of_next hq
        · exact NumState.isNumChar_of_accepts q' cs h d hd
    · exact absurd h (by simp)

lemma NumLit.isNumChar (n : NumLit) : ∀ c ∈ n.chars, Js.isNumChar c = true :=
  NumState.isNumChar_of_accepts _ _ n.wf

/-- A numeral begins with a digit or a minus sign. -/
lemma NumLit.exists_cons (n : NumLit) :
    ∃ c cs, n.chars = c :: cs ∧ (c = '-' ∨ c.isDigit = true) := by
  obtain ⟨chars, wf⟩ := n
  cases chars with
  | nil => simp [NumState.accepts, NumState.final] at wf
  | cons c cs =>
    refine ⟨c, cs, rfl, ?_⟩
    rw [NumState.accepts] at wf
    split at wf
    · next q' hq =>
        simp only [NumState.next] at hq
        split_ifs at hq with h1 h2 h3
        · exact .inl h1
        · exact .inr (by subst h2; decide)
        · exact .inr (by simp [isNonzeroDigit] at h3; exact h3.1)
    · exact absurd wf (by simp)

/-! ### Values and their text -/

/-- A JSON value; the members of an object stand in property order. -/
inductive Json where
  | null
  | bool (b : Bool)
  | num (n : NumLit)
  | str (s : String)
  | arr (xs : List Json)
  | obj (ms : List (String × Json))

/-- The hexadecimal digit of a number below `16`. -/
def hexDigit (n : ℕ) : Char :=
  if n < 10 then Char.ofNat ('0'.toNat + n) else Char.ofNat ('a'.toNat + (n - 10))

/-- `QuoteJSONString` on one character. -/
def escapeChar (c : Char) : List Char :=
  if c = '"' then ['\\', '"']
  else if c = '\\' then ['\\', '\\']
  else if c = '\n' then ['\\', 'n']
  else if c = '\r' then ['\\', 'r']
  else if c = '\t' then ['\\', 't']
  else if c = '\x08' then ['\\', 'b']
  else if c = '\x0c' then ['\\', 'f']
  else if c.toNat < 32 then ['\\', 'u', '0', '0', hexDigit (c.toNat / 16), hexDigit (c.toNat % 16)]
  else [c]

/-- The characters of a quoted string after the opening quote. -/
def quoteBody (cs : List Char) : List Char := cs.flatMap escapeChar ++ ['"']

/-- `QuoteJSONString`. -/
def quote (s : String) : List Char := '"' :: quoteBody s.toList

mutual

/-- The text of a value. -/
def render : Json → List Char
  | .null => ['n', 'u', 'l', 'l']
  | .bool true => ['t', 'r', 'u', 'e']
  | .bool false => ['f', 'a', 'l', 's', 'e']
  | .num n => n.chars
  | .str s => quote s
  | .arr [] => ['[', ']']
  | .arr (x :: xs) => '[' :: (render x ++ renderElems xs)
  | .obj [] => ['\x7b', '\x7d']
  | .obj ((k, v) :: ms) => '\x7b' :: (quote k ++ ':' :: (render v ++ renderMembers ms))

/-- The text of the remaining elements of an array. -/
def renderElems : List Json → List Char
  | [] => [']']
  | x :: xs => ',' :: (render x ++ renderElems xs)

/-- The text of the remaining members of an object. -/
def renderMembers : List (String × Json) → List Char
  | [] => ['\x7d']
  | (k, v) :: ms => ',' :: (quote k ++ ':' :: (render v ++ renderMembers ms))

end

/-- `JSON.stringify`. -/
def stringify (j : Json) : String := String.ofList (render j)

/-- `value[key]` on a parsed value: `none` is `undefined`. -/
def Json.get? : Json → String → Option Json
  | .obj ms, k => (ms.reverse.find? fun m => m.1 = k).map Prod.snd
  | _, _ => none

/-! ### Property order -/

/-- The array index a property key spells, if it is one: the decimal numeral of
a number below `2^32 - 1` without leading zeros. -/
def arrayIndex? (k : String) : Option ℕ :=
  let cs := k.toList
  if cs ≠ [] ∧ cs.all Char.isDigit ∧ (cs.length = 1 ∨ cs.head? ≠ some '0') then
    let n := cs.foldl (fun a c => a * 10 + (c.toNat - '0'.toNat)) 0
    if n < 2 ^ 32 - 1 then some n else none
  else none

/-- `OrdinaryOwnPropertyKeys`: the members of an object created in the order
given are enumerated with the array indices first, ascending, and the other
keys in order of creation. -/
def ownPropertyOrder {α : Type} (ms : List (String × α)) : List (String × α) :=
  (ms.filter fun m => (arrayIndex? m.1).isSome).insertionSort
      (fun a b => (arrayIndex? a.1).getD 0 ≤ (arrayIndex? b.1).getD 0) ++
    ms.filter fun m => (arrayIndex? m.1).isNone

end Js
