import ProjectVault.Js.Codec
import ProjectVault.Net.SafeFetch

/-!
What the filter of outbound addresses refuses.
-/

namespace SafeFetch

open Net

/-! ### Addresses -/

/-- An internet address. -/
inductive Address where
  | v4 (a : ℕ)
  | v6 (a : ℕ)

/-- The texts of an address. -/
inductive Denotes : List Char → Address → Prop
  | v4 (q : Quad) : Denotes q.text (.v4 q.address)
  | v6 (f : IPv6Form) : Denotes f.text (.v6 f.address)

/-- The addresses the filter is to refuse. -/
def Blocked : Address → Prop
  | .v4 a => BlockedIPv4 a
  | .v6 a => BlockedIPv6 a

variable {rt : NetRuntime}

lemma isIP_text (h : rt.Documented) (q : Quad) : rt.isIP q.text = 4 := (h.isIP_four _).2 ⟨q, rfl⟩

lemma isIP_form (h : rt.Documented) (f : IPv6Form) : rt.isIP f.text = 6 :=
  (h.isIP_six _).2 ⟨f, rfl⟩

/-- `net.isIP` classifies the texts of addresses and no other. -/
lemma exists_denotes_iff (h : rt.Documented) (s : List Char) :
    (∃ a, Denotes s a) ↔ (rt.isIP s = 4 ∨ rt.isIP s = 6) := by
  constructor
  · rintro ⟨a, hs⟩
    cases hs with
    | v4 q => exact .inl (isIP_text h q)
    | v6 f => exact .inr (isIP_form h f)
  · rintro (hs | hs)
    · obtain ⟨q, rfl⟩ := (h.isIP_four s).1 hs
      exact ⟨_, .v4 q⟩
    · obtain ⟨f, rfl⟩ := (h.isIP_six s).1 hs
      exact ⟨_, .v6 f⟩

/-! ### The IPv4 half -/

/-- On the text of an address the IPv4 filter decides the blocked ranges. -/
lemma isPrivateIPv4_text (h : rt.Documented) (q : Quad) :
    isPrivateIPv4 rt q.text = true ↔ BlockedIPv4 q.address := by
  rw [isPrivateIPv4, if_neg (by simp [h.fourPartDecimal q]), List.contains_iff_mem]
  simp only [blockedV4Ranges, List.mem_cons, List.not_mem_nil, or_false, h.range_private q,
    h.range_loopback q, h.range_linkLocal q, h.range_unspecified q]
  rw [BlockedIPv4]
  simp only [or_assoc]

/-! ### The IPv6 half -/

/-- However an address is written, the parser yields its groups. -/
theorem expandIPv6Groups_text (h : rt.Documented) (f : IPv6Form) :
    expandIPv6Groups rt (rt.toLowerCase f.text) = some f.groups := by
  rw [h.toLowerCase_ascii f.text fun c => IPv6Form.toNat_lt_of_mem_text, f.text_lower,
    expandIPv6Groups, f.lower.takeWhile_text]
  calc _ = some f.lower.groups := expand_body h f.lower.body
    _ = some f.groups := by rw [f.groups_lower]

lemma address_eq_groups (q : Quad) :
    q.address = ((q.a : ℕ) * 256 + q.b) * 65536 + (q.c * 256 + q.d) := by
  rw [Quad.address]
  ring

lemma denotes_unique (h : rt.Documented) {s : List Char} {a a' : Address} (hs : Denotes s a)
    (hs' : Denotes s a') : a = a' := by
  generalize hs₀ : s = s₀ at hs'
  cases hs with
  | v4 q =>
    cases hs' with
    | v4 q' =>
      have hq := ipv4PartToGroups_text h q
      rw [hs₀, ipv4PartToGroups_text h q'] at hq
      obtain ⟨h₁, h₂⟩ := Prod.mk.inj (Option.some.inj hq)
      rw [address_eq_groups, address_eq_groups, h₁, h₂]
    | v6 f =>
      have hip := isIP_text h q
      rw [hs₀, isIP_form h f] at hip
      exact absurd hip (by decide)
  | v6 f =>
    cases hs' with
    | v4 q =>
      have hip := isIP_text h q
      rw [← hs₀, isIP_form h f] at hip
      exact absurd hip (by decide)
    | v6 f' =>
      have hf := expandIPv6Groups_text h f
      rw [hs₀, expandIPv6Groups_text h f'] at hf
      rw [IPv6Form.address, IPv6Form.address, Option.some.inj hf]

lemma and_mask (g k n : ℕ) : g &&& (2 ^ k - 1) * 2 ^ n = g / 2 ^ n % 2 ^ k * 2 ^ n := by
  rw [← Nat.and_two_pow_sub_one_eq_mod, ← Nat.shiftRight_eq_div_pow, ← Nat.shiftLeft_eq,
    ← Nat.shiftLeft_eq]
  refine Nat.eq_of_testBit_eq fun i => ?_
  rw [Nat.testBit_and, Nat.testBit_shiftLeft, Nat.testBit_shiftLeft, Nat.testBit_and,
    Nat.testBit_shiftRight]
  by_cases hi : n ≤ i
  · rw [Nat.add_sub_cancel' hi]
    simp [hi]
  · simp [hi]

lemma isIPv6Loopback_iff (a b c d e f g h : ℕ) :
    isIPv6Loopback [a, b, c, d, e, f, g, h] = true ↔
      (a = 0 ∧ b = 0 ∧ c = 0 ∧ d = 0 ∧ e = 0 ∧ f = 0 ∧ g = 0) ∧ h = 1 := by
  simp [isIPv6Loopback]

lemma isIPv6Unspecified_iff (a b c d e f g h : ℕ) :
    isIPv6Unspecified [a, b, c, d, e, f, g, h] = true ↔
      a = 0 ∧ b = 0 ∧ c = 0 ∧ d = 0 ∧ e = 0 ∧ f = 0 ∧ g = 0 ∧ h = 0 := by
  simp [isIPv6Unspecified]

lemma isUniqueLocalIPv6_iff {g : ℕ} (hg : g < 65536) (groups : List ℕ) :
    isUniqueLocalIPv6 (g :: groups) = true ↔ g / 512 = 126 := by
  have hmask : g &&& 0xfe00 = g / 512 % 128 * 512 := and_mask g 7 9
  rw [isUniqueLocalIPv6, List.headD_cons, decide_eq_true_eq, hmask]
  omega

lemma isLinkLocalIPv6_iff {g : ℕ} (hg : g < 65536) (groups : List ℕ) :
    isLinkLocalIPv6 (g :: groups) = true ↔ g / 64 = 1018 := by
  have hmask : g &&& 0xffc0 = g / 64 % 1024 * 64 := and_mask g 10 6
  rw [isLinkLocalIPv6, List.headD_cons, decide_eq_true_eq, hmask]
  omega

/-- The quad of two groups. -/
def quadOf (g h : ℕ) : Quad where
  a := ⟨g / 256 % 256, by omega⟩
  b := ⟨g % 256, by omega⟩
  c := ⟨h / 256 % 256, by omega⟩
  d := ⟨h % 256, by omega⟩

lemma address_quadOf {g h : ℕ} (hg : g < 65536) (hh : h < 65536) :
    (quadOf g h).address = g * 65536 + h := by
  show ((g / 256 % 256 * 256 + g % 256) * 256 + h / 256 % 256) * 256 + h % 256 = g * 65536 + h
  omega

lemma ipv4MappedAddress_eq (a b c d e f g h : ℕ) :
    ipv4MappedAddress [a, b, c, d, e, f, g, h] =
      if (a = 0 ∧ b = 0 ∧ c = 0 ∧ d = 0 ∧ e = 0) ∧ f = 0xffff then some (quadOf g h).text
      else none := by
  have hbyte : ∀ n : ℕ, n &&& 0xff = n % 256 := fun n => Nat.and_two_pow_sub_one_eq_mod n 8
  have hshift : ∀ n : ℕ, n >>> 8 = n / 256 := fun n => Nat.shiftRight_eq_div_pow n 8
  have hmapped : (([a, b, c, d, e, f, g, h].take 5).all (· = 0) = true ∧
      [a, b, c, d, e, f, g, h][5]? = some 0xffff) ↔
      (a = 0 ∧ b = 0 ∧ c = 0 ∧ d = 0 ∧ e = 0) ∧ f = 0xffff := by
    simp
  rw [ipv4MappedAddress]
  simp only [hmapped]
  split_ifs
  · simp only [hbyte, hshift]
    rfl
  · rfl

/-! ### Prefixes by groups -/

section Groups

variable {a b c d e f g h : ℕ}
  (hlt : ∀ x ∈ [a, b, c, d, e, f, g, h], x < 65536)

include hlt

lemma addressOf_eq_zero : addressOf [a, b, c, d, e, f, g, h] = 0 ↔
    a = 0 ∧ b = 0 ∧ c = 0 ∧ d = 0 ∧ e = 0 ∧ f = 0 ∧ g = 0 ∧ h = 0 := by
  simp only [List.forall_mem_cons] at hlt
  simp only [addressOf, List.foldl_cons, List.foldl_nil]
  omega

lemma addressOf_eq_one : addressOf [a, b, c, d, e, f, g, h] = 1 ↔
    (a = 0 ∧ b = 0 ∧ c = 0 ∧ d = 0 ∧ e = 0 ∧ f = 0 ∧ g = 0) ∧ h = 1 := by
  simp only [List.forall_mem_cons] at hlt
  simp only [addressOf, List.foldl_cons, List.foldl_nil]
  omega

lemma inPrefix_uniqueLocal :
    InPrefix 128 (0xfc00 * 2 ^ 112) 7 (addressOf [a, b, c, d, e, f, g, h]) ↔ a / 512 = 126 := by
  simp only [List.forall_mem_cons] at hlt
  simp only [InPrefix, addressOf, List.foldl_cons, List.foldl_nil]
  norm_num
  omega

lemma inPrefix_linkLocal :
    InPrefix 128 (0xfe80 * 2 ^ 112) 10 (addressOf [a, b, c, d, e, f, g, h]) ↔ a / 64 = 1018 := by
  simp only [List.forall_mem_cons] at hlt
  simp only [InPrefix, addressOf, List.foldl_cons, List.foldl_nil]
  norm_num
  omega

lemma inPrefix_mapped :
    InPrefix 128 (0xffff * 2 ^ 32) 96 (addressOf [a, b, c, d, e, f, g, h]) ↔
      (a = 0 ∧ b = 0 ∧ c = 0 ∧ d = 0 ∧ e = 0) ∧ f = 0xffff := by
  simp only [List.forall_mem_cons] at hlt
  simp only [InPrefix, addressOf, List.foldl_cons, List.foldl_nil]
  norm_num
  omega

/-- The last 32 bits are the address of the quad of the last two groups. -/
lemma addressOf_mod : addressOf [a, b, c, d, e, f, g, h] % 2 ^ 32 = (quadOf g h).address := by
  simp only [List.forall_mem_cons] at hlt
  rw [address_quadOf hlt.2.2.2.2.2.2.1 hlt.2.2.2.2.2.2.2.1]
  simp only [addressOf, List.foldl_cons, List.foldl_nil]
  omega

end Groups

/-- The tests on the groups decide whether the address is blocked. -/
lemma isPrivateIPv6_groups (h : rt.Documented) {groups : List ℕ} (hlen : groups.length = 8)
    (hlt : ∀ x ∈ groups, x < 65536) :
    (if isIPv6Loopback groups || isIPv6Unspecified groups || isUniqueLocalIPv6 groups ||
        isLinkLocalIPv6 groups then true
      else match ipv4MappedAddress groups with
        | some mappedV4 => isPrivateIPv4 rt mappedV4
        | none => false) = true ↔ BlockedIPv6 (addressOf groups) := by
  obtain ⟨g₀, g₁, g₂, g₃, g₄, g₅, g₆, g₇, rfl⟩ :
      ∃ g₀ g₁ g₂ g₃ g₄ g₅ g₆ g₇, groups = [g₀, g₁, g₂, g₃, g₄, g₅, g₆, g₇] := by
    match groups, hlen with
    | [g₀, g₁, g₂, g₃, g₄, g₅, g₆, g₇], _ => exact ⟨g₀, g₁, g₂, g₃, g₄, g₅, g₆, g₇, rfl⟩
  have hg₀ : g₀ < 65536 := hlt g₀ (by simp)
  have hflag : (isIPv6Loopback [g₀, g₁, g₂, g₃, g₄, g₅, g₆, g₇] ||
      isIPv6Unspecified [g₀, g₁, g₂, g₃, g₄, g₅, g₆, g₇] ||
      isUniqueLocalIPv6 [g₀, g₁, g₂, g₃, g₄, g₅, g₆, g₇] ||
      isLinkLocalIPv6 [g₀, g₁, g₂, g₃, g₄, g₅, g₆, g₇]) = true ↔
      addressOf [g₀, g₁, g₂, g₃, g₄, g₅, g₆, g₇] = 1 ∨
        addressOf [g₀, g₁, g₂, g₃, g₄, g₅, g₆, g₇] = 0 ∨
        InPrefix 128 (0xfc00 * 2 ^ 112) 7 (addressOf [g₀, g₁, g₂, g₃, g₄, g₅, g₆, g₇]) ∨
        InPrefix 128 (0xfe80 * 2 ^ 112) 10 (addressOf [g₀, g₁, g₂, g₃, g₄, g₅, g₆, g₇]) := by
    rw [addressOf_eq_one hlt, addressOf_eq_zero hlt, inPrefix_uniqueLocal hlt,
      inPrefix_linkLocal hlt, Bool.or_eq_true, Bool.or_eq_true, Bool.or_eq_true,
      isIPv6Loopback_iff, isIPv6Unspecified_iff, isUniqueLocalIPv6_iff hg₀,
      isLinkLocalIPv6_iff hg₀, or_assoc, or_assoc]
  have hmapped : (match ipv4MappedAddress [g₀, g₁, g₂, g₃, g₄, g₅, g₆, g₇] with
      | some mappedV4 => isPrivateIPv4 rt mappedV4
      | none => false) = true ↔
      InPrefix 128 (0xffff * 2 ^ 32) 96 (addressOf [g₀, g₁, g₂, g₃, g₄, g₅, g₆, g₇]) ∧
        BlockedIPv4 (addressOf [g₀, g₁, g₂, g₃, g₄, g₅, g₆, g₇] % 2 ^ 32) := by
    rw [inPrefix_mapped hlt, addressOf_mod hlt, ipv4MappedAddress_eq]
    split_ifs with hmap
    · simp only [hmap, and_self, true_and]
      exact isPrivateIPv4_text h _
    · exact iff_of_false (by decide) fun hand => hmap hand.1
  have hblocked : ∀ a, BlockedIPv6 a ↔ (a = 1 ∨ a = 0 ∨ InPrefix 128 (0xfc00 * 2 ^ 112) 7 a ∨
      InPrefix 128 (0xfe80 * 2 ^ 112) 10 a) ∨
      (InPrefix 128 (0xffff * 2 ^ 32) 96 a ∧ BlockedIPv4 (a % 2 ^ 32)) := by
    intro a
    simp only [BlockedIPv6, or_assoc]
  rw [hblocked]
  split_ifs with hif
  · exact iff_of_true rfl (.inl (hflag.1 hif))
  · rw [hmapped, or_iff_right (mt hflag.2 hif)]

/-! ### A runtime -/

lemma colon_mem_intercalate {xs : List (List Char)} (h : 2 ≤ xs.length) :
    ':' ∈ [':'].intercalate xs := by
  match xs, h with
  | x :: y :: xs, _ => simp [List.intercalate_cons_cons]

/-- The text of an IPv6 address has a colon. -/
lemma colon_mem_text (f : IPv6Form) : ':' ∈ f.text := by
  refine List.mem_append_left _ ?_
  cases f.body with
  | full l hlen =>
    refine colon_mem_intercalate ?_
    obtain ⟨hexes, quad⟩ := l
    cases quad with
    | none =>
      simp [GroupList.groups] at hlen
      simp [GroupList.parts]
      omega
    | some q =>
      simp [GroupList.groups, Quad.groups] at hlen
      simp [GroupList.parts]
      omega
  | compressed head tail hlen => simp [IPv6Body.text]

/-- An octet without leading zeros. -/
def readOctet (part : List Char) : Option (Fin 256) :=
  if h : Js.digitsValue part < 256 ∧ Js.decimal (Js.digitsValue part) = part then
    some ⟨Js.digitsValue part, h.1⟩
  else none

/-- Strict dotted decimal. -/
def readQuad (s : List Char) : Option Quad :=
  match (s.splitOn '.').mapM readOctet with
  | some [a, b, c, d] => some ⟨a, b, c, d⟩
  | _ => none

lemma readOctet_decimal (n : Fin 256) : readOctet (Js.decimal n) = some n := by
  have hvalue := Js.digitsValue_decimal n
  rw [readOctet, dif_pos ⟨hvalue.symm ▸ n.isLt, by rw [hvalue]⟩]
  exact congrArg some (Fin.ext hvalue)

lemma readQuad_text (q : Quad) : readQuad q.text = some q := by
  have hoctets : (q.octets.map Js.decimal).mapM readOctet = some [q.a, q.b, q.c, q.d] := by
    simp only [Quad.octets, List.map_cons, List.map_nil, List.mapM_cons, List.mapM_nil,
      readOctet_decimal]
    rfl
  rw [readQuad, Quad.splitOn_text, hoctets]

/-- The special-purpose range of an IPv4 address, as far as the filter asks. -/
def rangeName (a : ℕ) : String :=
  if InPrefix 32 0 8 a then "unspecified"
  else if InPrefix 32 (169 * 2 ^ 24 + 254 * 2 ^ 16) 16 a then "linkLocal"
  else if InPrefix 32 (127 * 2 ^ 24) 8 a then "loopback"
  else if InPrefix 32 (10 * 2 ^ 24) 8 a ∨ InPrefix 32 (172 * 2 ^ 24 + 16 * 2 ^ 16) 12 a ∨
      InPrefix 32 (192 * 2 ^ 24 + 168 * 2 ^ 16) 16 a then "private"
  else "unicast"

open Classical in
/-- Strict readings of the documented grammars. -/
noncomputable def NetRuntime.strict : NetRuntime where
  isIP s := if ∃ q : Quad, s = q.text then 4 else if ∃ f : IPv6Form, s = f.text then 6 else 0
  toLowerCase s := s.map Char.toLower
  number s := if s ≠ [] ∧ s.all Char.isDigit = true then some (Js.digitsValue s : ℤ) else none
  isValidFourPartDecimal s := (readQuad s).isSome
  range s := ((readQuad s).map fun q => rangeName q.address).getD ""

lemma strict_range (q : Quad) : NetRuntime.strict.range q.text = rangeName q.address := by
  show ((readQuad q.text).map fun q => rangeName q.address).getD "" = rangeName q.address
  rw [readQuad_text]
  rfl

lemma NetRuntime.documented_strict : NetRuntime.strict.Documented where
  isIP_four s := by
    simp only [NetRuntime.strict]
    split_ifs <;> simp_all
  isIP_six s := by
    simp only [NetRuntime.strict]
    split_ifs with hquad hform
    · refine iff_of_false (by decide) fun ⟨f, hf⟩ => ?_
      obtain ⟨q, rfl⟩ := hquad
      exact colon_notMem_text q (hf ▸ colon_mem_text f)
    · exact iff_of_true rfl hform
    · exact iff_of_false (by decide) hform
  toLowerCase_ascii _ _ := rfl
  number_decimal n _ := by
    have hall : (Js.decimal n).all Char.isDigit = true :=
      List.all_eq_true.2 fun c hc => Js.isDigit_decimal hc
    show (if Js.decimal n ≠ [] ∧ (Js.decimal n).all Char.isDigit = true then
      some (Js.digitsValue (Js.decimal n) : ℤ) else none) = some (n : ℤ)
    rw [if_pos ⟨Js.decimal_ne_nil n, hall⟩, Js.digitsValue_decimal]
  fourPartDecimal q := by
    show (readQuad q.text).isSome = true
    rw [readQuad_text]
    rfl
  range_private q := by
    rw [strict_range, rangeName]
    split_ifs <;> simp only [InPrefix] at * <;> simp <;> omega
  range_loopback q := by
    rw [strict_range, rangeName]
    split_ifs <;> simp only [InPrefix] at * <;> simp <;> omega
  range_linkLocal q := by
    rw [strict_range, rangeName]
    split_ifs <;> simp only [InPrefix] at * <;> simp <;> omega
  range_unspecified q := by
    rw [strict_range, rangeName]
    split_ifs <;> simp only [InPrefix] at * <;> simp <;> omega

/-! ### The filter -/

/-- Whatever an address looks like as text (compressed or not, with a dotted tail, in either case,
with leading zeros, with a zone), the filter refuses it if and only if it is blocked. -/
theorem isPrivateOrReservedAddress_iff (h : rt.Documented) (s : List Char)
    (hs : rt.isIP s = 4 ∨ rt.isIP s = 6) :
    ∃ a, Denotes s a ∧ (∀ a', Denotes s a' → a' = a) ∧
      (isPrivateOrReservedAddress rt s = true ↔ Blocked a) := by
  obtain ⟨a, ha⟩ := (exists_denotes_iff h s).2 hs
  refine ⟨a, ha, fun a' ha' => denotes_unique h ha' ha, ?_⟩
  cases ha with
  | v4 q =>
    rw [isPrivateOrReservedAddress, if_pos (isIP_text h q)]
    exact isPrivateIPv4_text h q
  | v6 f =>
    have hip := isIP_form h f
    rw [isPrivateOrReservedAddress, if_neg (by omega), if_pos hip, isPrivateIPv6,
      expandIPv6Groups_text h f]
    exact isPrivateIPv6_groups h f.body.groups_spec.1 f.body.groups_spec.2

/-- `::FFFF:10.0.0.1%eth0` -/
def mappedForm : IPv6Form where
  body := .compressed [] ⟨[⟨['F', 'F', 'F', 'F'], List.all_eq_true.1 (by decide), by decide⟩],
    some ⟨10, 0, 0, 1⟩⟩ (by decide)
  zone := some ['e', 't', 'h', '0']
  zoned z hz := by
    rw [← Option.some.inj hz]
    exact ⟨by decide, List.all_eq_true.1 (by decide)⟩

/-- The private network behind a mapped address in upper case, with a dotted tail and a zone. -/
theorem isPrivateOrReservedAddress_mapped :
    isPrivateOrReservedAddress NetRuntime.strict "::FFFF:10.0.0.1%eth0".toList = true := by
  have htext : "::FFFF:10.0.0.1%eth0".toList = mappedForm.text := by decide
  obtain ⟨a, -, huniq, hiff⟩ := isPrivateOrReservedAddress_iff NetRuntime.documented_strict
    mappedForm.text (.inr (isIP_form NetRuntime.documented_strict mappedForm))
  have ha := huniq (.v6 mappedForm.address) (.v6 mappedForm)
  rw [htext, hiff, ← ha]
  show BlockedIPv6 mappedForm.address
  rw [BlockedIPv6, BlockedIPv4]
  decide

end SafeFetch
