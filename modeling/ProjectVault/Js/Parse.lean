import ProjectVault.Js.Json

/-!
`JSON.parse` and its round trip.
-/

namespace Js

/-! ### The parser -/

/-- The whitespace of JSON. -/
def isWs (c : Char) : Bool := c == ' ' || c == '\n' || c == '\r' || c == '\t'

/-- Skip whitespace. -/
def skipWs (cs : List Char) : List Char := cs.dropWhile isWs

/-- The value of a hexadecimal digit. -/
def hexVal (c : Char) : Option ℕ :=
  if c.isDigit then some (c.toNat - '0'.toNat)
  else if 'a' ≤ c ∧ c ≤ 'f' then some (c.toNat - 'a'.toNat + 10)
  else if 'A' ≤ c ∧ c ≤ 'F' then some (c.toNat - 'A'.toNat + 10)
  else none

/-- The code unit of four hexadecimal digits. -/
def hexUnit (a b c d : Char) : Option ℕ := do
  let a ← hexVal a
  let b ← hexVal b
  let c ← hexVal c
  let d ← hexVal d
  return ((a * 16 + b) * 16 + c) * 16 + d

/-- The character a `\u` escape denotes, with the rest of the text: a high
surrogate takes the escaped low surrogate that follows it. A lone surrogate has
no character and is refused. -/
def unescapeUnit (u : ℕ) (rest : List Char) : Option (Char × List Char) :=
  if 0xD800 ≤ u ∧ u < 0xDC00 then
    match rest with
    | '\\' :: 'u' :: a :: b :: c :: d :: rest' => do
        let l ← hexUnit a b c d
        if 0xDC00 ≤ l ∧ l < 0xE000 then
          some (Char.ofNat (0x10000 + (u - 0xD800) * 0x400 + (l - 0xDC00)), rest')
        else none
    | _ => none
  else if 0xDC00 ≤ u ∧ u < 0xE000 then none
  else some (Char.ofNat u, rest)

/-- The character a one-letter escape denotes. -/
def simpleEscape (e : Char) : Option Char :=
  if e = '"' then some '"'
  else if e = '\\' then some '\\'
  else if e = '/' then some '/'
  else if e = 'n' then some '\n'
  else if e = 'r' then some '\r'
  else if e = 't' then some '\t'
  else if e = 'b' then some '\x08'
  else if e = 'f' then some '\x0c'
  else none

/-- One character of a string literal: `none` on an error, `some none` at the
closing quote. -/
def parseChar (cs : List Char) : Option (Option Char × List Char) :=
  match cs with
  | [] => none
  | c :: rest =>
    if c = '"' then some (none, rest)
    else if c = '\\' then
      match rest with
      | [] => none
      | e :: rest =>
        if e = 'u' then
          match rest with
          | a :: b :: c :: d :: rest =>
            (hexUnit a b c d).bind fun u =>
              (unescapeUnit u rest).map fun p => (some p.1, p.2)
          | _ => none
        else (simpleEscape e).map fun c => (some c, rest)
    else if c.toNat < 32 then none
    else some (some c, rest)

/-- The characters of a string literal after the opening quote. -/
def parseString : ℕ → List Char → Option (List Char × List Char)
  | 0, _ => none
  | n + 1, cs =>
    match parseChar cs with
    | none => none
    | some (none, rest) => some ([], rest)
    | some (some c, rest) => (parseString n rest).map fun p => (c :: p.1, p.2)

/-- A numeral: the longest run of numeral characters, if the grammar has it. -/
def parseNum (cs : List Char) : Option (Json × List Char) :=
  if h : NumState.start.accepts (cs.takeWhile isNumChar) = true then
    some (.num ⟨cs.takeWhile isNumChar, h⟩, cs.dropWhile isNumChar)
  else none

/-- A key of an object with its colon. -/
def parseKey (cs : List Char) : Option (String × List Char) :=
  match skipWs cs with
  | [] => none
  | q :: rest =>
    if q = '"' then
      match parseString (rest.length + 1) rest with
      | none => none
      | some (k, rest) =>
        match skipWs rest with
        | [] => none
        | c :: rest => if c = ':' then some (String.ofList k, rest) else none
    else none

/-- A literal name. -/
def parseLit (lit cs : List Char) (j : Json) : Option (Json × List Char) :=
  if lit.isPrefixOf cs then some (j, cs.drop lit.length) else none

mutual

/-- A value. -/
def parseValue : ℕ → List Char → Option (Json × List Char)
  | 0, _ => none
  | n + 1, cs =>
    match skipWs cs with
    | [] => none
    | c :: rest =>
      if c = 'n' then parseLit ['n', 'u', 'l', 'l'] (c :: rest) .null
      else if c = 't' then parseLit ['t', 'r', 'u', 'e'] (c :: rest) (.bool true)
      else if c = 'f' then parseLit ['f', 'a', 'l', 's', 'e'] (c :: rest) (.bool false)
      else if c = '"' then
        (parseString (rest.length + 1) rest).map fun p => (.str (String.ofList p.1), p.2)
      else if c = '[' then
        if (skipWs rest).head? = some ']' then some (.arr [], (skipWs rest).tail)
        else
          (parseValue n rest).bind fun p =>
            (parseElems n p.2).map fun q => (.arr (p.1 :: q.1), q.2)
      else if c = '\x7b' then
        if (skipWs rest).head? = some '\x7d' then some (.obj [], (skipWs rest).tail)
        else
          (parseKey rest).bind fun k =>
            (parseValue n k.2).bind fun p =>
              (parseMembers n p.2).map fun q => (.obj ((k.1, p.1) :: q.1), q.2)
      else parseNum (c :: rest)

/-- The remaining elements of an array. -/
def parseElems : ℕ → List Char → Option (List Json × List Char)
  | 0, _ => none
  | n + 1, cs =>
    match skipWs cs with
    | [] => none
    | c :: rest =>
      if c = ']' then some ([], rest)
      else if c = ',' then
        (parseValue n rest).bind fun p =>
          (parseElems n p.2).map fun q => (p.1 :: q.1, q.2)
      else none

/-- The remaining members of an object. -/
def parseMembers : ℕ → List Char → Option (List (String × Json) × List Char)
  | 0, _ => none
  | n + 1, cs =>
    match skipWs cs with
    | [] => none
    | c :: rest =>
      if c = '\x7d' then some ([], rest)
      else if c = ',' then
        (parseKey rest).bind fun k =>
          (parseValue n k.2).bind fun p =>
            (parseMembers n p.2).map fun q => ((k.1, p.1) :: q.1, q.2)
      else none

end

/-- `JSON.parse`; `none` is the `SyntaxError`. -/
def parse (s : String) : Option Json :=
  match parseValue (s.toList.length + 1) s.toList with
  | some (j, rest) => if skipWs rest = [] then some j else none
  | none => none

/-! ### Strings -/

lemma hexVal_hexDigit : ∀ n < 16, hexVal (hexDigit n) = some n := by decide

lemma parseChar_escapeChar (c : Char) (rest : List Char) :
    parseChar (escapeChar c ++ rest) = some (some c, rest) := by
  unfold escapeChar
  split_ifs with h1 h2 h3 h4 h5 h6 h7 h8
  · subst h1; rfl
  · subst h2; rfl
  · subst h3; rfl
  · subst h4; rfl
  · subst h5; rfl
  · subst h6; rfl
  · subst h7; rfl
  · have ha := hexVal_hexDigit (c.toNat / 16) (by omega)
    have hb := hexVal_hexDigit (c.toNat % 16) (by omega)
    have hz : hexVal '0' = some 0 := by decide
    have hc : c.toNat / 16 * 16 + c.toNat % 16 = c.toNat := by omega
    have hu : hexUnit '0' '0' (hexDigit (c.toNat / 16)) (hexDigit (c.toNat % 16))
        = some c.toNat := by
      simp [hexUnit, hz, ha, hb, hc]
    have hlow : unescapeUnit c.toNat rest = some (c, rest) := by
      simp [unescapeUnit, show ¬ 0xD800 ≤ c.toNat by omega, show ¬ 0xDC00 ≤ c.toNat by omega]
    simp [parseChar, hu, hlow]
  · simp [parseChar, h1, h2, h8]

lemma length_escapeChar_pos (c : Char) : 0 < (escapeChar c).length := by
  unfold escapeChar
  split_ifs <;> simp

/-- A quoted string is read back, with whatever follows it. -/
lemma parseString_quoteBody : ∀ (cs rest : List Char) (n : ℕ), cs.length < n →
    parseString n (quoteBody cs ++ rest) = some (cs, rest)
  | [], rest, n + 1, _ => by simp [quoteBody, parseString, parseChar]
  | c :: cs, rest, n + 1, h => by
    have ih := parseString_quoteBody cs rest n (by simpa using h)
    simp only [quoteBody, List.flatMap_cons, List.append_assoc] at ih ⊢
    rw [parseString, parseChar_escapeChar]
    simp only [ih, Option.map_some]

lemma length_le_length_flatMap_escape (cs : List Char) :
    cs.length ≤ (cs.flatMap escapeChar).length := by
  induction cs with
  | nil => simp
  | cons c cs ih =>
    have := length_escapeChar_pos c
    simp only [List.flatMap_cons, List.length_append, List.length_cons]
    omega

lemma parseString_quote_tail (s : String) (rest : List Char) :
    parseString ((quoteBody s.toList ++ rest).length + 1) (quoteBody s.toList ++ rest)
      = some (s.toList, rest) := by
  refine parseString_quoteBody _ _ _ ?_
  have := length_le_length_flatMap_escape s.toList
  simp only [quoteBody, List.length_append]
  omega

/-! ### Heads of rendered text -/

@[simp] lemma skipWs_cons {c : Char} {cs : List Char} (h : isWs c = false) :
    skipWs (c :: cs) = c :: cs := by
  simp [skipWs, h]

lemma parseKey_quote (k : String) (rest : List Char) :
    parseKey (quote k ++ ':' :: rest) = some (k, rest) := by
  have hq : isWs '"' = false := by decide
  have hc : isWs ':' = false := by decide
  have hstr := parseString_quote_tail k (':' :: rest)
  simp only [quote, List.cons_append]
  rw [parseKey, skipWs_cons hq]
  simp only [↓reduceIte, hstr, skipWs_cons hc, String.ofList_toList]

/-- The rest of a text after a value: it does not continue a numeral. -/
def NumStop (rest : List Char) : Prop := ∀ c ∈ rest.head?, isNumChar c = false

lemma numStop_nil : NumStop [] := by simp [NumStop]

lemma numStop_cons {c : Char} {rest : List Char} (h : isNumChar c = false) :
    NumStop (c :: rest) := by
  simpa [NumStop] using h

lemma numStop_renderElems (xs : List Json) (rest : List Char) :
    NumStop (renderElems xs ++ rest) := by
  cases xs with
  | nil => exact numStop_cons (by decide)
  | cons x xs => exact numStop_cons (by decide)

lemma numStop_renderMembers (ms : List (String × Json)) (rest : List Char) :
    NumStop (renderMembers ms ++ rest) := by
  cases ms with
  | nil => exact numStop_cons (by decide)
  | cons m ms => exact numStop_cons (by decide)

/-- Numeral characters run exactly to the end of the numeral. -/
lemma span_numeral {cs rest : List Char} (hcs : ∀ c ∈ cs, isNumChar c = true)
    (hr : NumStop rest) :
    (cs ++ rest).takeWhile isNumChar = cs ∧ (cs ++ rest).dropWhile isNumChar = rest := by
  induction cs with
  | nil =>
    cases rest with
    | nil => simp
    | cons c rest =>
      have hc : isNumChar c = false := by simpa [NumStop] using hr
      simp [hc]
  | cons c cs ih =>
    have hc := hcs c (by simp)
    obtain ⟨h1, h2⟩ := ih fun d hd => hcs d (by simp [hd])
    exact ⟨by simp [hc, h1], by simp [hc, h2]⟩

lemma parseNum_chars (n : NumLit) {rest : List Char} (hr : NumStop rest) :
    parseNum (n.chars ++ rest) = some (.num n, rest) := by
  obtain ⟨h1, h2⟩ := span_numeral n.isNumChar hr
  unfold parseNum
  simp only [h1, h2, n.wf, ↓reduceDIte]

/-- The text of a value begins with a character that is neither whitespace nor
a closing bracket. -/
lemma render_eq_cons (j : Json) :
    ∃ c cs, render j = c :: cs ∧ isWs c = false ∧ c ≠ ']' ∧ c ≠ '\x7d' := by
  cases j with
  | null => exact ⟨'n', _, rfl, by decide, by decide, by decide⟩
  | bool b =>
    cases b with
    | false => exact ⟨'f', _, rfl, by decide, by decide, by decide⟩
    | true => exact ⟨'t', _, rfl, by decide, by decide, by decide⟩
  | num n =>
    obtain ⟨c, cs, h, hc⟩ := n.exists_cons
    refine ⟨c, cs, by simpa [render] using h, ?_⟩
    rcases hc with rfl | hc
    · exact ⟨by decide, by decide, by decide⟩
    · refine ⟨?_, by rintro rfl; revert hc; decide, by rintro rfl; revert hc; decide⟩
      by_contra hws
      simp only [isWs, Bool.not_eq_false, Bool.or_eq_true, beq_iff_eq] at hws
      rcases hws with ((rfl | rfl) | rfl) | rfl <;> revert hc <;> decide
  | str s => exact ⟨'"', _, rfl, by decide, by decide, by decide⟩
  | arr xs =>
    cases xs with
    | nil => exact ⟨'[', _, rfl, by decide, by decide, by decide⟩
    | cons x xs => exact ⟨'[', _, by rw [render], by decide, by decide, by decide⟩
  | obj ms =>
    cases ms with
    | nil => exact ⟨'\x7b', _, rfl, by decide, by decide, by decide⟩
    | cons m ms => exact ⟨'\x7b', _, by rw [render], by decide, by decide, by decide⟩

/-! ### Round trip -/

mutual

/-- The depth of nesting, the fuel a value needs. -/
def fuel : Json → ℕ
  | .arr [] => 1
  | .arr (x :: xs) => 1 + max (fuel x) (fuelElems xs)
  | .obj [] => 1
  | .obj ((_, v) :: ms) => 1 + max (fuel v) (fuelMembers ms)
  | _ => 1

/-- The fuel of the remaining elements of an array. -/
def fuelElems : List Json → ℕ
  | [] => 1
  | x :: xs => 1 + max (fuel x) (fuelElems xs)

/-- The fuel of the remaining members of an object. -/
def fuelMembers : List (String × Json) → ℕ
  | [] => 1
  | (_, v) :: ms => 1 + max (fuel v) (fuelMembers ms)

end

lemma fuel_pos (j : Json) : 0 < fuel j := by
  cases j with
  | arr xs => cases xs <;> rw [fuel] <;> omega
  | obj ms => cases ms <;> rw [fuel] <;> omega
  | _ => simp [fuel]

lemma fuelElems_pos (xs : List Json) : 0 < fuelElems xs := by
  cases xs <;> rw [fuelElems] <;> omega

lemma fuelMembers_pos (ms : List (String × Json)) : 0 < fuelMembers ms := by
  cases ms <;> rw [fuelMembers] <;> omega

lemma isWs_of_isDigit {c : Char} (h : c.isDigit = true) : isWs c = false := by
  by_contra hws
  simp only [isWs, Bool.not_eq_false, Bool.or_eq_true, beq_iff_eq] at hws
  rcases hws with ((rfl | rfl) | rfl) | rfl <;> revert h <;> decide

/-- A numeral takes the last branch of `parseValue`. -/
lemma parseValue_numeral {n : ℕ} {c : Char} {cs : List Char}
    (hc : c = '-' ∨ c.isDigit = true) : parseValue (n + 1) (c :: cs) = parseNum (c :: cs) := by
  have hws : isWs c = false := by
    rcases hc with rfl | hc
    · decide
    · exact isWs_of_isDigit hc
  have hne : ∀ d ∈ ['n', 't', 'f', '"', '[', '\x7b'], c ≠ d := by
    rintro d hd rfl
    rcases hc with rfl | hc
    · revert hd; decide
    · revert hc; fin_cases hd <;> decide
  simp only [List.mem_cons, List.not_mem_nil, or_false, forall_eq_or_imp, forall_eq] at hne
  obtain ⟨h1, h2, h3, h4, h5, h6⟩ := hne
  rw [parseValue, skipWs_cons hws]
  simp only [h1, h2, h3, h4, h5, h6, ↓reduceIte]

mutual

/-- The text of a value, followed by anything that does not continue a numeral,
is parsed back to the value and the rest. -/
theorem parseValue_render : ∀ (j : Json) (n : ℕ) (rest : List Char), fuel j ≤ n →
    NumStop rest → parseValue n (render j ++ rest) = some (j, rest)
  | j, 0, _, h, _ => absurd h (by have := fuel_pos j; omega)
  | .null, n + 1, rest, _, _ => by
    simp [render, parseValue, skipWs, isWs, parseLit, List.isPrefixOf]
  | .bool true, n + 1, rest, _, _ => by
    simp [render, parseValue, skipWs, isWs, parseLit, List.isPrefixOf]
  | .bool false, n + 1, rest, _, _ => by
    simp [render, parseValue, skipWs, isWs, parseLit, List.isPrefixOf]
  | .num m, n + 1, rest, _, hr => by
    obtain ⟨c, cs, h, hc⟩ := m.exists_cons
    have hnum := parseNum_chars m hr
    rw [render]
    rw [h, List.cons_append] at hnum ⊢
    rw [parseValue_numeral hc, hnum]
  | .str s, n + 1, rest, _, _ => by
    have hs := parseString_quote_tail s rest
    have hws : isWs '"' = false := by decide
    simp only [render, quote, List.cons_append]
    rw [parseValue, skipWs_cons hws]
    simp only [Char.reduceEq, ↓reduceIte, hs, Option.map_some, String.ofList_toList]
  | .arr [], n + 1, rest, _, _ => by simp [render, parseValue, skipWs, isWs]
  | .arr (x :: xs), n + 1, rest, h, _ => by
    rw [fuel] at h
    obtain ⟨c, cs, hx, hws, hne, -⟩ := render_eq_cons x
    have ihx := parseValue_render x n (renderElems xs ++ rest) (by omega)
      (numStop_renderElems xs rest)
    have ihxs := parseElems_render xs n rest (by omega)
    have hb : isWs '[' = false := by decide
    have hhead : (skipWs (render x ++ (renderElems xs ++ rest))).head? ≠ some ']' := by
      rw [hx, List.cons_append, skipWs_cons hws]
      simpa using hne
    simp only [render, List.cons_append, List.append_assoc]
    rw [parseValue, skipWs_cons hb]
    simp only [Char.reduceEq, ↓reduceIte, hhead, ihx, Option.bind_some, ihxs, Option.map_some]
  | .obj [], n + 1, rest, _, _ => by simp [render, parseValue, skipWs, isWs]
  | .obj ((k, v) :: ms), n + 1, rest, h, _ => by
    rw [fuel] at h
    have ihv := parseValue_render v n (renderMembers ms ++ rest) (by omega)
      (numStop_renderMembers ms rest)
    have ihms := parseMembers_render ms n rest (by omega)
    have hk := parseKey_quote k (render v ++ (renderMembers ms ++ rest))
    have hb : isWs '\x7b' = false := by decide
    have hq : isWs '"' = false := by decide
    have hhead : (skipWs (quote k ++ ':' :: (render v ++ (renderMembers ms ++ rest)))).head?
        ≠ some '\x7d' := by
      rw [quote, List.cons_append, skipWs_cons hq]
      simp
    simp only [render, List.cons_append, List.append_assoc]
    rw [parseValue, skipWs_cons hb]
    simp only [Char.reduceEq, ↓reduceIte, hhead, hk, Option.bind_some, ihv, ihms,
      Option.map_some]

/-- The remaining elements of an array are parsed back. -/
theorem parseElems_render : ∀ (xs : List Json) (n : ℕ) (rest : List Char),
    fuelElems xs ≤ n → parseElems n (renderElems xs ++ rest) = some (xs, rest)
  | xs, 0, _, h => absurd h (by have := fuelElems_pos xs; omega)
  | [], n + 1, rest, _ => by simp [renderElems, parseElems, skipWs, isWs]
  | x :: xs, n + 1, rest, h => by
    rw [fuelElems] at h
    have ihx := parseValue_render x n (renderElems xs ++ rest) (by omega)
      (numStop_renderElems xs rest)
    have ihxs := parseElems_render xs n rest (by omega)
    have hb : isWs ',' = false := by decide
    simp only [renderElems, List.cons_append, List.append_assoc]
    rw [parseElems, skipWs_cons hb]
    simp only [Char.reduceEq, ↓reduceIte, ihx, Option.bind_some, ihxs, Option.map_some]

/-- The remaining members of an object are parsed back. -/
theorem parseMembers_render : ∀ (ms : List (String × Json)) (n : ℕ) (rest : List Char),
    fuelMembers ms ≤ n → parseMembers n (renderMembers ms ++ rest) = some (ms, rest)
  | ms, 0, _, h => absurd h (by have := fuelMembers_pos ms; omega)
  | [], n + 1, rest, _ => by simp [renderMembers, parseMembers, skipWs, isWs]
  | (k, v) :: ms, n + 1, rest, h => by
    rw [fuelMembers] at h
    have ihv := parseValue_render v n (renderMembers ms ++ rest) (by omega)
      (numStop_renderMembers ms rest)
    have ihms := parseMembers_render ms n rest (by omega)
    have hk := parseKey_quote k (render v ++ (renderMembers ms ++ rest))
    have hb : isWs ',' = false := by decide
    simp only [renderMembers, List.cons_append, List.append_assoc]
    rw [parseMembers, skipWs_cons hb]
    simp only [Char.reduceEq, ↓reduceIte, hk, Option.bind_some, ihv, ihms, Option.map_some]

end

mutual

/-- The length of the text is fuel enough. -/
lemma fuel_le_length : ∀ j : Json, fuel j ≤ (render j).length
  | .null => by simp [fuel, render]
  | .bool true => by simp [fuel, render]
  | .bool false => by simp [fuel, render]
  | .num n => by
    obtain ⟨c, cs, h, -⟩ := n.exists_cons
    simp [fuel, render, h]
  | .str s => by simp [fuel, render, quote]
  | .arr [] => by simp [fuel, render]
  | .arr (x :: xs) => by
    have h1 := fuel_le_length x
    have h2 := fuelElems_le_length xs
    rw [fuel, render, List.length_cons, List.length_append]
    omega
  | .obj [] => by simp [fuel, render]
  | .obj ((k, v) :: ms) => by
    have h1 := fuel_le_length v
    have h2 := fuelMembers_le_length ms
    rw [fuel, render, List.length_cons, List.length_append, List.length_cons,
      List.length_append]
    omega

/-- The length of the text is fuel enough, elements. -/
lemma fuelElems_le_length : ∀ xs : List Json, fuelElems xs ≤ (renderElems xs).length
  | [] => by simp [fuelElems, renderElems]
  | x :: xs => by
    have h1 := fuel_le_length x
    have h2 := fuelElems_le_length xs
    rw [fuelElems, renderElems, List.length_cons, List.length_append]
    omega

/-- The length of the text is fuel enough, members. -/
lemma fuelMembers_le_length : ∀ ms : List (String × Json),
    fuelMembers ms ≤ (renderMembers ms).length
  | [] => by simp [fuelMembers, renderMembers]
  | (k, v) :: ms => by
    have h1 := fuel_le_length v
    have h2 := fuelMembers_le_length ms
    rw [fuelMembers, renderMembers, List.length_cons, List.length_append, List.length_cons,
      List.length_append]
    omega

end

/-- `JSON.parse (JSON.stringify j) = j`. -/
theorem parse_stringify (j : Json) : parse (stringify j) = some j := by
  have hlen := fuel_le_length j
  have h := parseValue_render j ((render j).length + 1) [] (by omega) numStop_nil
  rw [List.append_nil] at h
  simp [parse, stringify, h, skipWs]

/-- The text determines the value. -/
theorem stringify_injective : Function.Injective stringify := by
  intro a b h
  have ha := parse_stringify a
  rw [h, parse_stringify b] at ha
  exact (Option.some.inj ha).symm

end Js
