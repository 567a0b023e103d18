import ProjectVault.Js.Runtime

/-!
The textual forms of internet addresses and the addresses they denote.
-/

namespace Net

/-! ### Groups -/

/-- A hexadecimal digit of either case. -/
def isHexChar (c : Char) : Bool :=
  ('0' ≤ c && c ≤ '9') || ('a' ≤ c && c ≤ 'f') || ('A' ≤ c && c ≤ 'F')

def hexValue (c : Char) : ℕ :=
  if c ≤ '9' then c.toNat - '0'.toNat
  else if c ≤ 'F' then c.toNat - 'A'.toNat + 10
  else c.toNat - 'a'.toNat + 10

/-- The number a run of hexadecimal digits stands for. -/
def hexNumber (digits : List Char) : ℕ := digits.foldl (fun n c => 16 * n + hexValue c) 0

/-- One to four hexadecimal digits. -/
structure HexGroup where
  digits : List Char
  hex : ∀ c ∈ digits, isHexChar c = true
  size : 1 ≤ digits.length ∧ digits.length ≤ 4

def HexGroup.value (g : HexGroup) : ℕ := hexNumber g.digits

lemma isHexChar_iff (c : Char) : isHexChar c = true ↔
    (48 ≤ c.toNat ∧ c.toNat ≤ 57) ∨ (97 ≤ c.toNat ∧ c.toNat ≤ 102) ∨
      (65 ≤ c.toNat ∧ c.toNat ≤ 70) := by
  simp only [isHexChar, Bool.or_eq_true, Bool.and_eq_true, decide_eq_true_eq, Char.le_def,
    UInt32.le_iff_toNat_le, or_assoc]
  exact Iff.rfl

lemma hexValue_eq (c : Char) : hexValue c =
    if c.toNat ≤ 57 then c.toNat - 48
    else if c.toNat ≤ 70 then c.toNat - 65 + 10 else c.toNat - 97 + 10 := by
  simp only [hexValue, Char.le_def, UInt32.le_iff_toNat_le]
  rfl

lemma hexValue_lt {c : Char} (h : isHexChar c = true) : hexValue c < 16 := by
  rw [isHexChar_iff] at h
  rw [hexValue_eq]
  split_ifs <;> omega

lemma foldl_hexNumber_lt (digits : List Char) (h : ∀ c ∈ digits, isHexChar c = true) (n : ℕ) :
    digits.foldl (fun n c => 16 * n + hexValue c) n < (n + 1) * 16 ^ digits.length := by
  induction digits generalizing n with
  | nil => simp
  | cons c digits ih =>
    obtain ⟨hc, hdigits⟩ := List.forall_mem_cons.1 h
    have hlt := hexValue_lt hc
    calc (c :: digits).foldl (fun n c => 16 * n + hexValue c) n
        < (16 * n + hexValue c + 1) * 16 ^ digits.length := ih hdigits _
      _ ≤ (16 * (n + 1)) * 16 ^ digits.length := Nat.mul_le_mul_right _ (by omega)
      _ = (n + 1) * 16 ^ (c :: digits).length := by
          rw [List.length_cons, pow_succ]
          ring

lemma HexGroup.value_lt (g : HexGroup) : g.value < 65536 := by
  refine (foldl_hexNumber_lt g.digits g.hex 0).trans_le ?_
  calc (0 + 1) * 16 ^ g.digits.length ≤ (0 + 1) * 16 ^ 4 :=
        Nat.mul_le_mul_left _ (Nat.pow_le_pow_right (by decide) g.size.2)
    _ = 65536 := by norm_num

lemma HexGroup.digits_ne_nil (g : HexGroup) : g.digits ≠ [] := by
  rw [← List.length_pos_iff]
  exact g.size.1

/-! ### The group of a number -/

/-- The hexadecimal text of a number. -/
def hexText (n : ℕ) : List Char :=
  if n = 0 then ['0'] else (Nat.digits 16 n).reverse.map Nat.digitChar

lemma isHexChar_digitChar {d : ℕ} (h : d < 16) : isHexChar (Nat.digitChar d) = true := by
  interval_cases d <;> rfl

lemma hexValue_digitChar {d : ℕ} (h : d < 16) : hexValue (Nat.digitChar d) = d := by
  interval_cases d <;> rfl

lemma hexNumber_digits (ds : List ℕ) (h : ∀ d ∈ ds, d < 16) :
    hexNumber (ds.reverse.map Nat.digitChar) = Nat.ofDigits 16 ds := by
  rw [hexNumber, List.foldl_map, List.foldl_reverse]
  induction ds with
  | nil => rfl
  | cons d ds ih =>
    obtain ⟨hd, hds⟩ := List.forall_mem_cons.1 h
    rw [List.foldr_cons, ih hds, hexValue_digitChar hd, Nat.ofDigits_cons, add_comm]

lemma hexNumber_hexText (n : ℕ) : hexNumber (hexText n) = n := by
  rw [hexText]
  split_ifs with hn
  · rw [hn]
    rfl
  · rw [hexNumber_digits _ fun d hd => Nat.digits_lt_base (by decide) hd, Nat.ofDigits_digits]

lemma isHexChar_of_mem_hexText {n : ℕ} {c : Char} (h : c ∈ hexText n) : isHexChar c = true := by
  rw [hexText] at h
  split_ifs at h
  · rw [List.mem_singleton.1 h]
    rfl
  · obtain ⟨d, hd, rfl⟩ := List.mem_map.1 h
    exact isHexChar_digitChar (Nat.digits_lt_base (by decide) (List.mem_reverse.1 hd))

lemma length_hexText {n : ℕ} (h : n < 65536) :
    1 ≤ (hexText n).length ∧ (hexText n).length ≤ 4 := by
  rw [hexText]
  split_ifs with hn
  · decide
  · rw [List.length_map, List.length_reverse]
    refine ⟨?_, (Nat.digits_length_le_iff (by decide) n).2 (by simpa using h)⟩
    rw [Nat.one_le_iff_ne_zero, ne_eq, List.length_eq_zero_iff, Nat.digits_eq_nil_iff_eq_zero]
    exact hn

/-- The group of a number of 16 bits. -/
def HexGroup.ofNat (n : ℕ) (h : n < 65536) : HexGroup where
  digits := hexText n
  hex _ := isHexChar_of_mem_hexText
  size := length_hexText h

@[simp] lemma HexGroup.value_ofNat (n : ℕ) (h : n < 65536) : (HexGroup.ofNat n h).value = n :=
  hexNumber_hexText n

/-! ### Forms -/

/-- Four octets. -/
structure Quad where
  a : Fin 256
  b : Fin 256
  c : Fin 256
  d : Fin 256

def Quad.octets (q : Quad) : List ℕ := [q.a, q.b, q.c, q.d]

/-- Strict dotted decimal: no octet has a leading zero. -/
def Quad.text (q : Quad) : List Char := ['.'].intercalate (q.octets.map Js.decimal)

/-- The two groups a quad stands for. -/
def Quad.groups (q : Quad) : List ℕ := [q.a * 256 + q.b, q.c * 256 + q.d]

/-- The number of an IPv4 address. -/
def Quad.address (q : Quad) : ℕ := ((q.a * 256 + q.b) * 256 + q.c) * 256 + q.d

/-- Groups between colons, the last two perhaps as a quad. -/
structure GroupList where
  hexes : List HexGroup
  quad : Option Quad

def GroupList.parts (l : GroupList) : List (List Char) :=
  l.hexes.map HexGroup.digits ++ l.quad.toList.map Quad.text

def GroupList.text (l : GroupList) : List Char := [':'].intercalate l.parts

def GroupList.groups (l : GroupList) : List ℕ :=
  l.hexes.map HexGroup.value ++ l.quad.toList.flatMap Quad.groups

/-- The eight groups in full, or with one run of zero groups left out. -/
inductive IPv6Body where
  | full (l : GroupList) (h : l.groups.length = 8)
  | compressed (head : List HexGroup) (tail : GroupList)
      (h : head.length + tail.groups.length ≤ 7)

def IPv6Body.text : IPv6Body → List Char
  | full l _ => l.text
  | compressed head tail _ => (GroupList.mk head none).text ++ ':' :: ':' :: tail.text

/-- The groups of the address. -/
def IPv6Body.groups : IPv6Body → List ℕ
  | full l _ => l.groups
  | compressed head tail _ => head.map HexGroup.value ++
      (List.replicate (8 - head.length - tail.groups.length) 0 ++ tail.groups)

/-- A character of a zone. -/
def isZoneChar (c : Char) : Bool :=
  ('0' ≤ c && c ≤ '9') || ('a' ≤ c && c ≤ 'z') || ('A' ≤ c && c ≤ 'Z') || c == '-' || c == '.' ||
    c == ':'

/-- An IPv6 address as text. -/
structure IPv6Form where
  body : IPv6Body
  zone : Option (List Char)
  zoned : ∀ z ∈ zone, z ≠ [] ∧ ∀ c ∈ z, isZoneChar c = true

def IPv6Form.text (f : IPv6Form) : List Char :=
  f.body.text ++ f.zone.toList.flatMap fun z => '%' :: z

def IPv6Form.groups (f : IPv6Form) : List ℕ := f.body.groups

/-! ### Addresses -/

/-- The number of a list of 16-bit groups. -/
def addressOf (groups : List ℕ) : ℕ := groups.foldl (fun n g => 65536 * n + g) 0

def IPv6Form.address (f : IPv6Form) : ℕ := addressOf f.groups

/-- The addresses of a width that agree with a base on their first bits. -/
def InPrefix (width base len a : ℕ) : Prop := a / 2 ^ (width - len) = base / 2 ^ (width - len)

instance (width base len a : ℕ) : Decidable (InPrefix width base len a) :=
  inferInstanceAs (Decidable (_ = _))

lemma Quad.groups_lt (q : Quad) : ∀ g ∈ q.groups, g < 65536 := by
  intro g hg
  have ha := q.a.isLt
  have hb := q.b.isLt
  have hc := q.c.isLt
  have hd := q.d.isLt
  rcases List.mem_cons.1 hg with rfl | hg
  · omega
  · rw [List.mem_singleton.1 hg]
    omega

lemma GroupList.groups_lt (l : GroupList) : ∀ g ∈ l.groups, g < 65536 := by
  intro g hg
  rcases List.mem_append.1 hg with hg | hg
  · obtain ⟨h, -, rfl⟩ := List.mem_map.1 hg
    exact h.value_lt
  · obtain ⟨q, -, hg⟩ := List.mem_flatMap.1 hg
    exact q.groups_lt g hg

/-- A form denotes eight groups of 16 bits. -/
lemma IPv6Body.groups_spec (b : IPv6Body) : b.groups.length = 8 ∧ ∀ g ∈ b.groups, g < 65536 := by
  cases b with
  | full l h => exact ⟨h, l.groups_lt⟩
  | compressed head tail h =>
    refine ⟨?_, fun g hg => ?_⟩
    · rw [IPv6Body.groups, List.length_append, List.length_append, List.length_map,
        List.length_replicate]
      omega
    · rcases List.mem_append.1 hg with hg | hg
      · obtain ⟨x, -, rfl⟩ := List.mem_map.1 hg
        exact x.value_lt
      · rcases List.mem_append.1 hg with hg | hg
        · rw [List.eq_of_mem_replicate hg]
          decide
        · exact tail.groups_lt g hg

/-! ### The characters of a text -/

lemma HexGroup.colon_notMem (g : HexGroup) : ':' ∉ g.digits := fun h =>
  absurd (g.hex _ h) (by decide)

lemma intercalate_append_singleton {α : Type*} (sep : α) (xs : List (List α)) (y : List α) :
    [sep].intercalate (xs ++ [y]) = (xs.flatMap fun x => x ++ [sep]) ++ y := by
  induction xs with
  | nil => simp
  | cons x xs ih =>
    rw [List.cons_append, List.intercalate_cons_of_ne_nil (by simp), ih, List.flatMap_cons]
    simp

lemma mem_intercalate {α : Type*} {sep x : α} {xs : List (List α)}
    (h : x ∈ [sep].intercalate xs) : x = sep ∨ ∃ l ∈ xs, x ∈ l := by
  induction xs with
  | nil => simp at h
  | cons l xs ih =>
    cases xs with
    | nil =>
      rw [List.intercalate_singleton] at h
      exact .inr ⟨l, List.mem_cons_self, h⟩
    | cons l' xs =>
      rw [List.intercalate_cons_cons, List.mem_append, List.mem_append, List.mem_singleton] at h
      rcases h with (h | h) | h
      · exact .inr ⟨l, List.mem_cons_self, h⟩
      · exact .inl h
      · exact (ih h).imp id fun ⟨m, hm, hx⟩ => ⟨m, List.mem_cons_of_mem _ hm, hx⟩

lemma isDigit_of_mem_decimal {n : ℕ} {c : Char} (h : c ∈ Js.decimal n) :
    48 ≤ c.toNat ∧ c.toNat ≤ 57 := by
  rw [Js.decimal] at h
  split_ifs at h
  · rw [List.mem_singleton.1 h]
    decide
  · obtain ⟨d, hd, rfl⟩ := List.mem_map.1 h
    have hlt : d < 10 := Nat.digits_lt_base (by decide) (List.mem_reverse.1 hd)
    interval_cases d <;> decide

lemma Quad.mem_text {q : Quad} {c : Char} (h : c ∈ q.text) :
    c = '.' ∨ (48 ≤ c.toNat ∧ c.toNat ≤ 57) := by
  refine (mem_intercalate h).imp id fun ⟨part, hpart, hc⟩ => ?_
  obtain ⟨n, -, rfl⟩ := List.mem_map.1 hpart
  exact isDigit_of_mem_decimal hc

/-- A hexadecimal digit, a colon or a dot. -/
lemma GroupList.mem_text {l : GroupList} {c : Char} (h : c ∈ l.text) :
    c = ':' ∨ isHexChar c = true ∨ (l.quad ≠ none ∧ c = '.') := by
  rcases mem_intercalate h with rfl | ⟨part, hpart, hc⟩
  · exact .inl rfl
  · rcases List.mem_append.1 hpart with hpart | hpart
    · obtain ⟨g, -, rfl⟩ := List.mem_map.1 hpart
      exact .inr (.inl (g.hex c hc))
    · obtain ⟨q, hq, rfl⟩ := List.mem_map.1 hpart
      rcases q.mem_text hc with rfl | hdigit
      · refine .inr (.inr ⟨fun hnone => ?_, rfl⟩)
        rw [hnone] at hq
        simp at hq
      · exact .inr (.inl ((isHexChar_iff c).2 (.inl hdigit)))

namespace GroupList

@[simp] lemma text_nil : (GroupList.mk [] none).text = [] := rfl

lemma text_singleton (g : HexGroup) : (GroupList.mk [g] none).text = g.digits :=
  List.intercalate_singleton

lemma text_cons_cons (g g' : HexGroup) (hexes : List HexGroup) :
    (GroupList.mk (g :: g' :: hexes) none).text =
      g.digits ++ ':' :: (GroupList.mk (g' :: hexes) none).text := by
  simp [GroupList.text, GroupList.parts]

/-- A nonempty list of groups starts with a digit. -/
lemma text_cons_eq (g : HexGroup) (hexes : List HexGroup) :
    ∃ c l, c ≠ ':' ∧ (GroupList.mk (g :: hexes) none).text = c :: l := by
  obtain ⟨c, l, hdigits⟩ := List.exists_cons_of_ne_nil g.digits_ne_nil
  have hc : c ≠ ':' := by
    rintro rfl
    exact g.colon_notMem (hdigits ▸ List.mem_cons_self)
  cases hexes with
  | nil => exact ⟨c, l, hc, by rw [text_singleton, hdigits]⟩
  | cons g' hexes => exact ⟨c, _, hc, by rw [text_cons_cons, hdigits]; rfl⟩

/-- The groups in front of a quad, each with its colon. -/
def front (hexes : List HexGroup) : List Char := hexes.flatMap fun g => g.digits ++ [':']

lemma text_quad (hexes : List HexGroup) (q : Quad) :
    (GroupList.mk hexes (some q)).text = front hexes ++ q.text := by
  rw [GroupList.text, GroupList.parts, Option.toList_some, List.map_singleton,
    intercalate_append_singleton, front, List.flatMap_map]

/-- The list with a quad written as two groups. -/
def folded (l : GroupList) : List HexGroup :=
  match l.quad with
  | none => l.hexes
  | some q => l.hexes ++
      [.ofNat (q.a * 256 + q.b) (by omega), .ofNat (q.c * 256 + q.d) (by omega)]

lemma groups_folded (l : GroupList) : l.folded.map HexGroup.value = l.groups := by
  obtain ⟨hexes, quad⟩ := l
  cases quad with
  | none => simp [folded, GroupList.groups]
  | some q => simp [folded, GroupList.groups, Quad.groups]

lemma text_folded (hexes : List HexGroup) (q : Quad) :
    (GroupList.mk (GroupList.mk hexes (some q)).folded none).text =
      front hexes ++ hexText (q.a * 256 + q.b) ++ ':' :: hexText (q.c * 256 + q.d) := by
  have hparts : (GroupList.mk (GroupList.mk hexes (some q)).folded none).parts =
      (hexes.map HexGroup.digits ++ [hexText (q.a * 256 + q.b)]) ++
        [hexText (q.c * 256 + q.d)] := by
    simp [GroupList.parts, folded, HexGroup.ofNat]
  rw [GroupList.text, hparts, intercalate_append_singleton, List.flatMap_append, List.flatMap_map,
    front]
  simp

end GroupList

/-! ### Lower case -/

lemma toNat_toLower (c : Char) :
    c.toLower.toNat = if 65 ≤ c.toNat ∧ c.toNat ≤ 90 then c.toNat + 32 else c.toNat := by
  have hiff : (c.val ≥ 'A'.val ∧ c.val ≤ 'Z'.val) ↔ (65 ≤ c.toNat ∧ c.toNat ≤ 90) := by
    simp only [ge_iff_le, UInt32.le_iff_toNat_le]
    exact Iff.rfl
  unfold Char.toLower
  split_ifs with h h' h'
  · have hle := (hiff.1 h).2
    show (c.val + ('a'.val - 'A'.val)).toNat = c.val.toNat + 32
    rw [UInt32.toNat_add]
    have hval : c.val.toNat = c.toNat := rfl
    have hdiff : ('a'.val - 'A'.val).toNat = 32 := rfl
    omega
  · exact absurd (hiff.1 h) h'
  · exact absurd (hiff.2 h') h
  · rfl

lemma toLower_eq_self {c : Char} (h : c.toNat < 65) : c.toLower = c := by
  unfold Char.toLower
  rw [dif_neg]
  rintro ⟨hge, -⟩
  rw [ge_iff_le, UInt32.le_iff_toNat_le] at hge
  have hA : ('A'.val).toNat = 65 := rfl
  have hval : c.val.toNat = c.toNat := rfl
  omega

lemma isHexChar_toLower {c : Char} (h : isHexChar c = true) : isHexChar c.toLower = true := by
  rw [isHexChar_iff] at h ⊢
  rw [toNat_toLower]
  split_ifs <;> omega

lemma hexValue_toLower {c : Char} (h : isHexChar c = true) : hexValue c.toLower = hexValue c := by
  rw [isHexChar_iff] at h
  rw [hexValue_eq, hexValue_eq, toNat_toLower]
  split_ifs <;> omega

def HexGroup.lower (g : HexGroup) : HexGroup where
  digits := g.digits.map Char.toLower
  hex c hc := by
    obtain ⟨d, hd, rfl⟩ := List.mem_map.1 hc
    exact isHexChar_toLower (g.hex d hd)
  size := by
    rw [List.length_map]
    exact g.size

@[simp] lemma HexGroup.value_lower (g : HexGroup) : g.lower.value = g.value := by
  rw [HexGroup.value, HexGroup.value, hexNumber, hexNumber, HexGroup.lower, List.foldl_map]
  refine List.foldl_ext _ _ _ fun n c hc => ?_
  rw [hexValue_toLower (g.hex c hc)]

lemma map_intercalate {α β : Type*} (f : α → β) (sep : α) (xs : List (List α)) :
    ([sep].intercalate xs).map f = [f sep].intercalate (xs.map (List.map f)) := by
  induction xs with
  | nil => rfl
  | cons x xs ih =>
    cases xs with
    | nil => simp
    | cons y ys =>
      rw [List.intercalate_cons_cons, List.map_append, List.map_append, ih]
      exact List.intercalate_cons_cons.symm

lemma Quad.map_toLower_text (q : Quad) : q.text.map Char.toLower = q.text := by
  refine (List.map_congr_left fun c hc => ?_).trans (List.map_id _)
  rcases q.mem_text hc with rfl | ⟨-, hdigit⟩
  · rfl
  · exact toLower_eq_self (by omega)

namespace GroupList

def lower (l : GroupList) : GroupList := ⟨l.hexes.map HexGroup.lower, l.quad⟩

lemma text_lower (l : GroupList) : l.text.map Char.toLower = l.lower.text := by
  have hquad : (l.quad.toList.map Quad.text).map (List.map Char.toLower) =
      l.quad.toList.map Quad.text := by
    rw [List.map_map]
    exact List.map_congr_left fun q _ => q.map_toLower_text
  rw [GroupList.text, map_intercalate, GroupList.parts, List.map_append, List.map_map, hquad,
    GroupList.text, GroupList.parts, lower, List.map_map]
  rfl

@[simp] lemma groups_lower (l : GroupList) : l.lower.groups = l.groups := by
  rw [GroupList.groups, GroupList.groups, lower, List.map_map]
  simp [Function.comp_def]

end GroupList

def IPv6Body.lower : IPv6Body → IPv6Body
  | full l h => full l.lower (by rw [GroupList.groups_lower, h])
  | compressed head tail h => compressed (head.map HexGroup.lower) tail.lower (by
    rw [List.length_map, GroupList.groups_lower]
    exact h)

namespace IPv6Body

lemma text_lower (b : IPv6Body) : b.text.map Char.toLower = b.lower.text := by
  cases b with
  | full l h => exact l.text_lower
  | compressed head tail h =>
    have hhead := (GroupList.mk head none).text_lower
    rw [IPv6Body.text, List.map_append, List.map_cons, List.map_cons, tail.text_lower, hhead]
    rfl

lemma groups_lower (b : IPv6Body) : b.lower.groups = b.groups := by
  cases b with
  | full l h => exact l.groups_lower
  | compressed head tail h => simp [lower, IPv6Body.groups, Function.comp_def]

/-- The characters of a text without its zone. -/
lemma mem_text {b : IPv6Body} {c : Char} (h : c ∈ b.text) :
    c = ':' ∨ isHexChar c = true ∨ c = '.' := by
  have hlist : ∀ {l : GroupList}, c ∈ l.text → c = ':' ∨ isHexChar c = true ∨ c = '.' :=
    fun h => (GroupList.mem_text h).imp_right (Or.imp_right And.right)
  cases b with
  | full l hlen => exact hlist h
  | compressed head tail hlen =>
    rcases List.mem_append.1 h with h | h
    · exact hlist h
    · rcases List.mem_cons.1 h with rfl | h
      · exact .inl rfl
      · rcases List.mem_cons.1 h with rfl | h
        · exact .inl rfl
        · exact hlist h

lemma percent_notMem (b : IPv6Body) : '%' ∉ b.text := by
  intro h
  rcases mem_text h with h | h | h <;> exact absurd h (by decide)

end IPv6Body

lemma isZoneChar_iff (c : Char) : isZoneChar c = true ↔
    (48 ≤ c.toNat ∧ c.toNat ≤ 57) ∨ (97 ≤ c.toNat ∧ c.toNat ≤ 122) ∨
      (65 ≤ c.toNat ∧ c.toNat ≤ 90) ∨ c = '-' ∨ c = '.' ∨ c = ':' := by
  simp only [isZoneChar, Bool.or_eq_true, Bool.and_eq_true, decide_eq_true_eq, Char.le_def,
    UInt32.le_iff_toNat_le, beq_iff_eq, or_assoc]
  exact Iff.rfl

lemma isZoneChar_toLower {c : Char} (h : isZoneChar c = true) : isZoneChar c.toLower = true := by
  rcases (isZoneChar_iff c).1 h with h | h | h | rfl | rfl | rfl
  · rw [toLower_eq_self (by omega), isZoneChar_iff]
    exact .inl h
  · rw [isZoneChar_iff, toNat_toLower, if_neg (by omega)]
    exact .inr (.inl h)
  · rw [isZoneChar_iff, toNat_toLower, if_pos h]
    exact .inr (.inl (by omega))
  all_goals rfl

namespace IPv6Form

def lower (f : IPv6Form) : IPv6Form where
  body := f.body.lower
  zone := f.zone.map (List.map Char.toLower)
  zoned z hz := by
    obtain ⟨z', hz', rfl⟩ := Option.map_eq_some_iff.1 hz
    refine ⟨by simpa using (f.zoned z' hz').1, fun c hc => ?_⟩
    obtain ⟨d, hd, rfl⟩ := List.mem_map.1 hc
    exact isZoneChar_toLower ((f.zoned z' hz').2 d hd)

/-- Folding the case of a text changes neither its form nor its groups. -/
lemma text_lower (f : IPv6Form) : f.text.map Char.toLower = f.lower.text := by
  obtain ⟨body, zone, zoned⟩ := f
  rw [IPv6Form.text, List.map_append, body.text_lower, IPv6Form.text, lower]
  cases zone with
  | none => rfl
  | some z => simp

lemma groups_lower (f : IPv6Form) : f.lower.groups = f.groups := f.body.groups_lower

/-- A text is ASCII. -/
lemma toNat_lt_of_mem_text {f : IPv6Form} {c : Char} (h : c ∈ f.text) : c.toNat < 128 := by
  rcases List.mem_append.1 h with h | h
  · rcases IPv6Body.mem_text h with rfl | h | rfl
    · decide
    · rw [isHexChar_iff] at h
      omega
    · decide
  · obtain ⟨z, hz, hc⟩ := List.mem_flatMap.1 h
    rcases List.mem_cons.1 hc with rfl | hc
    · decide
    · have hzone := (isZoneChar_iff c).1 ((f.zoned z (Option.mem_toList.1 hz)).2 c hc)
      rcases hzone with h | h | h | rfl | rfl | rfl
      · omega
      · omega
      · omega
      all_goals decide

/-- The text in front of the zone. -/
lemma takeWhile_text (f : IPv6Form) : f.text.takeWhile (· ≠ '%') = f.body.text := by
  have hall : ∀ c ∈ f.body.text, decide (c ≠ '%') = true := by
    intro c hc
    simp only [ne_eq, decide_not, Bool.not_eq_true', decide_eq_false_iff_not]
    rintro rfl
    exact f.body.percent_notMem hc
  rw [IPv6Form.text, List.takeWhile_append_of_pos hall]
  cases f.zone with
  | none => simp
  | some z => simp

end IPv6Form

end Net
