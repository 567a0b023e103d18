import ProjectVault.Js.Order
import ProjectVault.Js.Runtime

/-!
Schemas of JSON payloads: what a value prints as, and what a strict parser with limits reads.
-/

namespace Js

/-! ### Safe integers -/

/-- `Number.MAX_SAFE_INTEGER`. -/
def maxSafeInteger : ℤ := 2 ^ 53 - 1

/-- `Number.isSafeInteger`, on an integer. -/
def isSafe (n : ℤ) : Bool := -maxSafeInteger ≤ n && n ≤ maxSafeInteger

/-- The value of a string of decimal digits. -/
def digitsValue (cs : List Char) : ℕ := Nat.ofDigits 10 (cs.reverse.map digitVal)

/-- The integer a numeral spells; the text of a safe integer has neither point nor exponent. -/
def NumLit.int? (n : NumLit) : Option ℤ :=
  match n.chars with
  | '-' :: ds => if ds.all Char.isDigit then some (-(digitsValue ds : ℤ)) else none
  | ds => if ds.all Char.isDigit then some (digitsValue ds : ℤ) else none

lemma digitsValue_decimal (n : ℕ) : digitsValue (decimal n) = n := by
  rw [digitsValue, decimal]
  split_ifs with hn
  · rw [hn]
    rfl
  · have hlt : ∀ d ∈ Nat.digits 10 n, d < 10 := fun d hd => Nat.digits_lt_base (by decide) hd
    have hval : (Nat.digits 10 n).map (digitVal ∘ Nat.digitChar) = Nat.digits 10 n := by
      refine (List.map_congr_left fun d hd => ?_).trans (List.map_id _)
      have hd' := hlt d hd
      interval_cases d <;> rfl
    rw [← List.map_reverse, List.reverse_reverse, List.map_map, hval, Nat.ofDigits_digits]

lemma isDigit_decimal {n : ℕ} {c : Char} (h : c ∈ decimal n) : c.isDigit = true := by
  rw [decimal] at h
  split_ifs at h with hn
  · rw [List.mem_singleton.1 h]
    rfl
  · obtain ⟨d, hd, rfl⟩ := List.mem_map.1 h
    have hlt : d < 10 := Nat.digits_lt_base (by decide) (List.mem_reverse.1 hd)
    interval_cases d <;> rfl

lemma decimal_ne_nil (n : ℕ) : decimal n ≠ [] := by
  intro h
  have := accepts_decimal n
  rw [h] at this
  exact absurd this (by decide)

lemma accepts_neg_decimal (n : ℕ) :
    NumState.start.accepts ('-' :: decimal n) = true := by
  have h := accepts_decimal n
  cases hd : decimal n with
  | nil => exact absurd hd (decimal_ne_nil n)
  | cons c cs =>
    rw [hd] at h
    have hdigit : c.isDigit = true := isDigit_decimal (n := n) (by rw [hd]; simp)
    have hminus : c ≠ '-' := by
      rintro rfl
      exact absurd hdigit (by decide)
    rw [NumState.accepts, NumState.next, if_neg hminus] at h
    rw [NumState.accepts]
    show NumState.accepts .minus (c :: cs) = true
    rw [NumState.accepts, NumState.next]
    exact h

/-- An integer as a value of the program. -/
def NumLit.ofInt (n : ℤ) : NumLit :=
  if n < 0 then ⟨'-' :: decimal n.natAbs, accepts_neg_decimal n.natAbs⟩
  else NumLit.ofNat n.toNat

/-- What an integer prints as reads as that integer. -/
lemma NumLit.int?_ofInt (n : ℤ) : (NumLit.ofInt n).int? = some n := by
  have hall : ∀ m : ℕ, (decimal m).all Char.isDigit = true := fun m =>
    List.all_eq_true.2 fun c hc => isDigit_decimal hc
  rw [NumLit.ofInt]
  split_ifs with hneg
  · simp only [NumLit.int?, hall, if_true, digitsValue_decimal]
    exact congrArg some (by omega)
  · cases hd : decimal n.toNat with
    | nil => exact absurd hd (decimal_ne_nil _)
    | cons c cs =>
      have hminus : c ≠ '-' := by
        rintro rfl
        have := isDigit_decimal (n := n.toNat) (c := '-') (by rw [hd]; simp)
        exact absurd this (by decide)
      have hchars : (NumLit.ofNat n.toNat).chars = c :: cs := hd
      have hall' := hall n.toNat
      have hval := digitsValue_decimal n.toNat
      rw [hd] at hall' hval
      rw [NumLit.int?, hchars]
      split
      · next ds hds => exact absurd (List.cons.inj hds).1 hminus
      · rw [if_pos hall', hval]
        exact congrArg some (by omega)

/-! ### Codecs -/

/-- How values print as JSON and how a parser with limits reads them. -/
structure Codec (α : Type) where
  encode : α → Json
  decode : Json → Option α
  /-- The limits of the parser. -/
  Accepts : α → Prop
  decode_encode : ∀ {a b : α}, decode (encode a) = some b ↔ b = a ∧ Accepts a
  accepts_of_decode : ∀ {j : Json} {a : α}, decode j = some a → Accepts a

namespace Codec

variable {α β : Type}

/-- A value prints to text the parser takes exactly if it is within the limits. -/
lemma isSome_decode_encode (c : Codec α) {a : α} :
    (c.decode (c.encode a)).isSome = true ↔ c.Accepts a := by
  constructor
  · intro h
    obtain ⟨b, hb⟩ := Option.isSome_iff_exists.1 h
    exact (c.decode_encode.1 hb).2
  · intro h
    rw [c.decode_encode.2 ⟨rfl, h⟩]
    rfl

/-- `z.string()` with a check. -/
def str (p : String → Bool) : Codec String where
  encode s := .str s
  decode
    | .str s => if p s then some s else none
    | _ => none
  Accepts s := p s = true
  decode_encode := by
    intro a b
    by_cases hp : p a = true
    · simp [hp, eq_comm]
    · simp [hp]
  accepts_of_decode := by
    intro j a h
    cases j with
    | str s =>
      by_cases hp : p s = true
      · obtain rfl : s = a := by simpa [hp] using h
        exact hp
      · simp [hp] at h
    | null | bool | num | arr | obj => simp at h

/-- `z.number().int()` with a check. -/
def int (p : ℤ → Bool) : Codec ℤ where
  encode n := .num (NumLit.ofInt n)
  decode
    | .num n => n.int?.filter fun i => isSafe i && p i
    | _ => none
  Accepts n := isSafe n = true ∧ p n = true
  decode_encode := by
    intro a b
    simp only [NumLit.int?_ofInt]
    rw [Option.filter_some]
    by_cases h : (isSafe a && p a) = true
    · rw [if_pos h, ← Bool.and_eq_true]
      simp [h, eq_comm]
    · rw [if_neg h, ← Bool.and_eq_true]
      simp [h]
  accepts_of_decode := by
    intro j a h
    cases j with
    | num n =>
      obtain ⟨-, hsafe⟩ := Option.filter_eq_some_iff.1 h
      rwa [Bool.and_eq_true] at hsafe
    | null | bool | str | arr | obj => simp at h

/-- A codec of the values that correspond to those of another one. -/
def iso (c : Codec α) (f : α → β) (g : β → α) (hfg : ∀ b, f (g b) = b) (hgf : ∀ a, g (f a) = a) :
    Codec β where
  encode b := c.encode (g b)
  decode j := (c.decode j).map f
  Accepts b := c.Accepts (g b)
  decode_encode := by
    intro a b
    rw [Option.map_eq_some_iff]
    constructor
    · rintro ⟨a', ha', rfl⟩
      obtain ⟨rfl, hacc⟩ := c.decode_encode.1 ha'
      exact ⟨hfg a, hacc⟩
    · rintro ⟨rfl, hacc⟩
      exact ⟨g b, c.decode_encode.2 ⟨rfl, hacc⟩, hfg b⟩
  accepts_of_decode := by
    intro j b h
    obtain ⟨a, ha, rfl⟩ := Option.map_eq_some_iff.1 h
    rw [hgf]
    exact c.accepts_of_decode ha

/-- `z.number().int().min(0)` with a check. -/
def nat (p : ℕ → Bool) : Codec ℕ where
  encode n := .num (NumLit.ofInt n)
  decode j := ((int fun i => 0 ≤ i && p i.toNat).decode j).map Int.toNat
  Accepts n := isSafe n = true ∧ p n = true
  decode_encode := by
    intro a b
    have hlaw : ∀ i, (int fun i => 0 ≤ i && p i.toNat).decode (.num (NumLit.ofInt a)) = some i ↔
        i = a ∧ isSafe a = true ∧ (decide (0 ≤ (a : ℤ)) && p (a : ℤ).toNat) = true :=
      fun i => (int fun i => 0 ≤ i && p i.toNat).decode_encode
    rw [Option.map_eq_some_iff]
    constructor
    · rintro ⟨i, hi, rfl⟩
      obtain ⟨rfl, hsafe, hp⟩ := (hlaw i).1 hi
      exact ⟨Int.toNat_natCast a, hsafe, by simpa using hp⟩
    · rintro ⟨rfl, hsafe, hp⟩
      exact ⟨b, (hlaw b).2 ⟨rfl, hsafe, by simpa using hp⟩, Int.toNat_natCast b⟩
  accepts_of_decode := by
    intro j n h
    obtain ⟨i, hi, rfl⟩ := Option.map_eq_some_iff.1 h
    obtain ⟨hsafe, hp⟩ := (int fun i => 0 ≤ i && p i.toNat).accepts_of_decode hi
    obtain ⟨hnonneg, hp⟩ := Bool.and_eq_true_iff.1 hp
    rw [Int.toNat_of_nonneg (by simpa using hnonneg)]
    exact ⟨hsafe, hp⟩

/-- `z.boolean()`. -/
def bool : Codec Bool where
  encode b := .bool b
  decode
    | .bool b => some b
    | _ => none
  Accepts _ := True
  decode_encode := by
    intro a b
    simp [eq_comm]
  accepts_of_decode _ := trivial

/-- `z.unknown()`. -/
def json : Codec Json where
  encode j := j
  decode j := some j
  Accepts _ := True
  decode_encode := by
    intro a b
    simp [eq_comm]
  accepts_of_decode _ := trivial

/-- `z.enum(…)`: the values of an enumeration under their literals. -/
def enum (all : List α) (literal : α → String) (hall : ∀ a, a ∈ all)
    (hinj : Function.Injective literal) : Codec α where
  encode a := .str (literal a)
  decode
    | .str s => all.find? fun a => literal a = s
    | _ => none
  Accepts _ := True
  decode_encode := by
    intro a b
    rw [and_true]
    constructor
    · intro h
      exact hinj (by simpa using List.find?_some h)
    · rintro rfl
      cases hfind : all.find? fun a => literal a = literal b with
      | none =>
        have := List.find?_eq_none.1 hfind b (hall b)
        simp at this
      | some a =>
        have heq : a = b := hinj (by simpa using List.find?_some hfind)
        rw [heq] at hfind
        exact hfind
  accepts_of_decode _ := trivial

/-- `….nullable()`, of a schema whose values do not print as `null`. -/
def nullable (c : Codec α) (hnull : ∀ a, c.encode a ≠ .null) : Codec (Option α) where
  encode
    | none => .null
    | some a => c.encode a
  decode
    | .null => some none
    | j => (c.decode j).map some
  Accepts
    | none => True
    | some a => c.Accepts a
  decode_encode := by
    intro a b
    cases a with
    | none => simp [eq_comm]
    | some a =>
      have hdecode : (match c.encode a with
          | .null => some none
          | j => (c.decode j).map some) = (c.decode (c.encode a)).map some := by
        split
        · next h => exact absurd h (hnull a)
        · rfl
      rw [hdecode, Option.map_eq_some_iff]
      constructor
      · rintro ⟨a', ha', rfl⟩
        obtain ⟨rfl, hacc⟩ := c.decode_encode.1 ha'
        exact ⟨rfl, hacc⟩
      · rintro ⟨rfl, hacc⟩
        exact ⟨a, c.decode_encode.2 ⟨rfl, hacc⟩, rfl⟩
  accepts_of_decode := by
    intro j a h
    split at h
    · cases h
      trivial
    · obtain ⟨a', ha', rfl⟩ := Option.map_eq_some_iff.1 h
      exact c.accepts_of_decode ha'

/-- The elements of an array, one after another. -/
def decodeList (c : Codec α) : List Json → Option (List α)
  | [] => some []
  | j :: js => do
      let a ← c.decode j
      let as ← decodeList c js
      return a :: as

lemma decodeList_eq_some_iff (c : Codec α) {js : List Json} {as : List α} :
    c.decodeList js = some as ↔ List.Forall₂ (fun j a => c.decode j = some a) js as := by
  induction js generalizing as with
  | nil =>
    simp only [decodeList, Option.some.injEq, List.forall₂_nil_left_iff]
    exact eq_comm
  | cons j js ih =>
    simp only [decodeList, Option.bind_eq_bind, Option.bind_eq_some_iff, Option.pure_def,
      Option.some.injEq, List.forall₂_cons_left_iff, ih]
    constructor
    · rintro ⟨a, ha, rest, hrest, rfl⟩
      exact ⟨a, rest, ha, hrest, rfl⟩
    · rintro ⟨a, rest, ha, hrest, rfl⟩
      exact ⟨a, ha, rest, hrest, rfl⟩

/-- `z.array(…).max(max)`. -/
def list (c : Codec α) (max : ℕ) : Codec (List α) where
  encode as := .arr (as.map c.encode)
  decode
    | .arr js => if js.length ≤ max then c.decodeList js else none
    | _ => none
  Accepts as := as.length ≤ max ∧ ∀ a ∈ as, c.Accepts a
  decode_encode := by
    intro as bs
    have hlist : c.decodeList (as.map c.encode) = some bs ↔ bs = as ∧ ∀ a ∈ as, c.Accepts a := by
      rw [decodeList_eq_some_iff, List.forall₂_map_left_iff]
      induction as generalizing bs with
      | nil => simp
      | cons a as ih =>
        rw [List.forall₂_cons_left_iff]
        constructor
        · rintro ⟨b, rest, hb, hrest, rfl⟩
          obtain ⟨rfl, hacc⟩ := c.decode_encode.1 hb
          obtain ⟨rfl, hall⟩ := ih.1 hrest
          exact ⟨rfl, List.forall_mem_cons.2 ⟨hacc, hall⟩⟩
        · rintro ⟨rfl, hall⟩
          obtain ⟨hacc, hall⟩ := List.forall_mem_cons.1 hall
          exact ⟨a, as, c.decode_encode.2 ⟨rfl, hacc⟩, ih.2 ⟨rfl, hall⟩, rfl⟩
    simp only [List.length_map]
    by_cases hlen : as.length ≤ max
    · rw [if_pos hlen, hlist]
      exact and_congr_right fun _ => (and_iff_right hlen).symm
    · simp [hlen]
  accepts_of_decode := by
    intro j as h
    cases j with
    | arr js =>
      by_cases hlen : js.length ≤ max
      · simp only [if_pos hlen] at h
        have hforall := (decodeList_eq_some_iff c).1 h
        refine ⟨hforall.length_eq ▸ hlen, fun a ha => ?_⟩
        obtain ⟨i, hi, rfl⟩ := List.getElem_of_mem ha
        exact c.accepts_of_decode
          ((List.forall₂_iff_get.1 hforall).2 i (by rw [hforall.length_eq]; exact hi) hi)
      · simp [hlen] at h
    | null | bool | num | str | obj => simp at h

end Codec

/-! ### Objects -/

/-- The members of an object that a schema reads, and what it reads of them. -/
structure Fields (α : Type) where
  keys : List String
  members : α → List (String × Json)
  read : (String → Option Json) → Option α
  Accepts : α → Prop
  keys_members : ∀ a, (members a).map Prod.fst = keys
  read_members : ∀ {get : String → Option Json} {a b : α},
    (∀ m ∈ members a, get m.1 = some m.2) → (read get = some b ↔ b = a ∧ Accepts a)
  accepts_of_read : ∀ {get : String → Option Json} {a : α}, read get = some a → Accepts a

namespace Fields

variable {α β : Type}

/-- One required member. -/
def field (key : String) (c : Codec α) : Fields α where
  keys := [key]
  members a := [(key, c.encode a)]
  read get := (get key).bind c.decode
  Accepts := c.Accepts
  keys_members _ := rfl
  read_members := by
    intro get a b h
    rw [h (key, c.encode a) (by simp), Option.bind_some]
    exact c.decode_encode
  accepts_of_read := by
    intro get a h
    obtain ⟨j, -, hj⟩ := Option.bind_eq_some_iff.1 h
    exact c.accepts_of_decode hj

/-- A member that is read as `null` when it is missing. -/
def optional (key : String) : Fields Json where
  keys := [key]
  members j := [(key, j)]
  read get := some ((get key).getD .null)
  Accepts _ := True
  keys_members _ := rfl
  read_members := by
    intro get a b h
    rw [h (key, a) (by simp)]
    simp [eq_comm]
  accepts_of_read _ := trivial

/-- The members of two groups of fields. -/
def both (f : Fields α) (g : Fields β) : Fields (α × β) where
  keys := f.keys ++ g.keys
  members p := f.members p.1 ++ g.members p.2
  read get := do
    let a ← f.read get
    let b ← g.read get
    return (a, b)
  Accepts p := f.Accepts p.1 ∧ g.Accepts p.2
  keys_members p := by rw [List.map_append, f.keys_members, g.keys_members]
  read_members := by
    rintro get ⟨a, b⟩ ⟨a', b'⟩ h
    have hf := f.read_members (a := a) (b := a') fun m hm => h m (List.mem_append_left _ hm)
    have hg := g.read_members (a := b) (b := b') fun m hm => h m (List.mem_append_right _ hm)
    simp only [Option.bind_eq_bind, Option.bind_eq_some_iff, Option.pure_def, Option.some.injEq,
      Prod.mk.injEq]
    constructor
    · rintro ⟨x, hx, y, hy, rfl, rfl⟩
      obtain ⟨hxa, hacc⟩ := hf.1 hx
      obtain ⟨hyb, hacc'⟩ := hg.1 hy
      exact ⟨⟨hxa, hyb⟩, hacc, hacc'⟩
    · rintro ⟨⟨rfl, rfl⟩, hacc, hacc'⟩
      exact ⟨a', hf.2 ⟨rfl, hacc⟩, b', hg.2 ⟨rfl, hacc'⟩, rfl, rfl⟩
  accepts_of_read := by
    rintro get ⟨a, b⟩ h
    simp only [Option.bind_eq_bind, Option.bind_eq_some_iff, Option.pure_def, Option.some.injEq,
      Prod.mk.injEq] at h
    obtain ⟨x, hx, y, hy, rfl, rfl⟩ := h
    exact ⟨f.accepts_of_read hx, g.accepts_of_read hy⟩

end Fields

/-- `z.object(…).strict()`. -/
def Codec.object {α : Type} (fs : Fields α) (hkeys : fs.keys.Nodup) : Codec α where
  encode a := .obj (fs.members a)
  decode
    | .obj ms => if ms.all fun m => m.1 ∈ fs.keys then fs.read (Json.obj ms).get? else none
    | _ => none
  Accepts := fs.Accepts
  decode_encode := by
    intro a b
    have hnodup : ((fs.members a).map Prod.fst).Nodup := by rwa [fs.keys_members]
    have hstrict : ((fs.members a).all fun m => m.1 ∈ fs.keys) = true := by
      rw [List.all_eq_true]
      intro m hm
      rw [decide_eq_true_iff, ← fs.keys_members a]
      exact List.mem_map_of_mem hm
    simp only [hstrict, if_true]
    exact fs.read_members fun m hm => (Json.get?_eq_some_iff hnodup).2 hm
  accepts_of_decode := by
    intro j a h
    cases j with
    | obj ms =>
      by_cases hstrict : (ms.all fun m => decide (m.1 ∈ fs.keys)) = true
      · simp only [hstrict, if_true] at h
        exact fs.accepts_of_read h
      · simp [hstrict] at h
    | null | bool | num | str | arr => simp at h

end Js
