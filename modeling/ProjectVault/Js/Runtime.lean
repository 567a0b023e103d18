import ProjectVault.Js.Parse

/-!
The rest of the JavaScript runtime the development meets: string trimming,
coercions of parsed values, and the tables it cannot carry.
-/

namespace Js

/-- The characters `String.prototype.trim` strips. -/
def isTrimmable (c : Char) : Bool :=
  let n := c.toNat
  (9 ≤ n && n ≤ 13) || n == 32 || n == 0xA0 || n == 0x1680 || (0x2000 ≤ n && n ≤ 0x200A) ||
    n == 0x2028 || n == 0x2029 || n == 0x202F || n == 0x205F || n == 0x3000 || n == 0xFEFF

/-- `String.prototype.trim`. -/
def trim (s : String) : String :=
  String.ofList ((s.toList.dropWhile isTrimmable).reverse.dropWhile isTrimmable).reverse

/-- `String.prototype.length`: the number of UTF-16 code units. -/
def length (s : String) : ℕ :=
  (s.toList.map fun c => if c.toNat < 0x10000 then 1 else 2).sum

/-- A numeral of value zero: no digit of its mantissa differs from `0`. -/
def NumLit.isZero (n : NumLit) : Bool :=
  (n.chars.takeWhile fun c => c != 'e' && c != 'E').all fun c => !isNonzeroDigit c

/-- The decimal digits of a number. -/
def decimal (n : ℕ) : List Char :=
  if n = 0 then ['0'] else (Nat.digits 10 n).reverse.map Nat.digitChar

lemma accepts_int_digits {ds : List ℕ} (h : ∀ d ∈ ds, d < 10) :
    NumState.int.accepts (ds.map Nat.digitChar) = true := by
  induction ds with
  | nil => rfl
  | cons d ds ih =>
    have hd : d < 10 := h d (by simp)
    have hdigit : (Nat.digitChar d).isDigit = true := by
      interval_cases d <;> rfl
    simp only [List.map_cons, NumState.accepts, NumState.next, hdigit, if_true]
    exact ih fun x hx => h x (by simp [hx])

lemma accepts_decimal (n : ℕ) : NumState.start.accepts (decimal n) = true := by
  rw [decimal]
  split_ifs with hn
  · rfl
  · have hne : Nat.digits 10 n ≠ [] := Nat.digits_ne_nil_iff_ne_zero.2 hn
    have hlast := Nat.getLast_digit_ne_zero 10 hn
    have hlt : ∀ d ∈ Nat.digits 10 n, d < 10 := fun d hd => Nat.digits_lt_base (by decide) hd
    rw [← List.dropLast_append_getLast hne, List.reverse_append, List.reverse_singleton,
      List.singleton_append, List.map_cons]
    have hd := hlt _ (List.getLast_mem hne)
    generalize (Nat.digits 10 n).getLast hne = d at hlast hd
    have hnext : NumState.start.next (Nat.digitChar d) = some .int := by
      interval_cases d
      · exact absurd rfl hlast
      all_goals rfl
    rw [NumState.accepts, hnext]
    exact accepts_int_digits fun x hx =>
      hlt x (List.mem_of_mem_dropLast (List.mem_reverse.1 hx))

/-- A natural number as a value of the program (below `10^21`, where the text of a number
has no exponent). -/
def NumLit.ofNat (n : ℕ) : NumLit := ⟨decimal n, accepts_decimal n⟩

/-- `Boolean(v)`. -/
def Json.truthy : Option Json → Bool
  | none => false
  | some .null => false
  | some (.bool b) => b
  | some (.num n) => !n.isZero
  | some (.str s) => s ≠ ""
  | some (.arr _) => true
  | some (.obj _) => true

mutual

/-- `String(v)` on a parsed value. -/
def Json.toText : Json → String
  | .null => "null"
  | .bool true => "true"
  | .bool false => "false"
  | .num n => String.ofList n.chars
  | .str s => s
  | .arr xs => Json.joinText xs
  | .obj _ => "[object Object]"

/-- `Array.prototype.join` with a comma, `null` printing as the empty string. -/
def Json.joinText : List Json → String
  | [] => ""
  | [x] => Json.elemText x
  | x :: y :: ys => Json.elemText x ++ "," ++ Json.joinText (y :: ys)

/-- One element of `Array.prototype.join`. -/
def Json.elemText : Json → String
  | .null => ""
  | .bool true => "true"
  | .bool false => "false"
  | .num n => String.ofList n.chars
  | .str s => s
  | .arr xs => Json.joinText xs
  | .obj _ => "[object Object]"

end

/-- What the runtime supplies from tables and packages outside the repository. -/
structure Runtime where
  /-- `String.prototype.normalize('NFC')`. -/
  nfc : String → String
  /-- `String.prototype.toLowerCase`. -/
  toLowerCase : String → String
  /-- `String.prototype.toUpperCase`. -/
  toUpperCase : String → String
  /-- Whether `parseOtpAuthUri` accepts the text of an `otpauth://` URI. -/
  otpAuthUri : String → Bool

/-- The runtime on ASCII text, where normalisation does nothing. -/
def Runtime.ascii : Runtime where
  nfc := id
  toLowerCase s := String.ofList (s.toList.map Char.toLower)
  toUpperCase s := String.ofList (s.toList.map Char.toUpper)
  otpAuthUri _ := false

/-- A transaction that goes through went through at each of its steps. -/
lemma bind_eq_ok {ε α β : Type} {x : Except ε α} {f : α → Except ε β} {b : β} :
    (x >>= f) = .ok b ↔ ∃ a, x = .ok a ∧ f a = .ok b := by
  cases x with
  | error e => simp [bind, Except.bind]
  | ok a => simp [bind, Except.bind]

end Js
