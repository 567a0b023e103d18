import ProjectVault.Net.Address

/-!
The filter of outbound addresses (`lib/safe-fetch`).
-/

namespace SafeFetch

open Net

/-- What the filter calls outside of the repository, on texts as lists of characters. -/
structure NetRuntime where
  /-- `net.isIP` -/
  isIP : List Char → ℕ
  toLowerCase : List Char → List Char
  /-- `Number(text)`, where it is an integer -/
  number : List Char → Option ℤ
  /-- `ipaddr.IPv4.isValidFourPartDecimal` -/
  isValidFourPartDecimal : List Char → Bool
  /-- `ipaddr.IPv4.parse(text).range()` -/
  range : List Char → String

variable (rt : NetRuntime)

/-! ### IPv4 -/

/-- `BLOCKED_V4_RANGES`. -/
def blockedV4Ranges : List String := ["private", "loopback", "linkLocal", "unspecified"]

def isPrivateIPv4 (ip : List Char) : Bool :=
  if rt.isValidFourPartDecimal ip = false then true else blockedV4Ranges.contains (rt.range ip)

/-- The octet a part of a dotted tail stands for. -/
def octet (part : List Char) : Option ℕ :=
  match rt.number part with
  | none => none
  | some b => if b < 0 ∨ 255 < b then none else some b.toNat

def ipv4PartToGroups (ipv4 : List Char) : Option (ℕ × ℕ) :=
  match (ipv4.splitOn '.').mapM (octet rt) with
  | some [a, b, c, d] => some (a <<< 8 ||| b, c <<< 8 ||| d)
  | _ => none

/-! ### IPv6 -/

/-- A group of one to four hexadecimal digits. -/
def parseHexGroup (g : List Char) : Option ℕ :=
  if 1 ≤ g.length ∧ g.length ≤ 4 ∧ g.all isHexChar = true then some (hexNumber g) else none

def parseHexGroups (part : List Char) : Option (List ℕ) :=
  if part = [] then some [] else (part.splitOn ':').mapM parseHexGroup

/-- `address.slice(0, lastColon + 1)` and `address.slice(lastColon + 1)`. -/
def sliceAtLastColon (address : List Char) : List Char × List Char :=
  ((address.reverse.dropWhile (· ≠ ':')).reverse, (address.reverse.takeWhile (· ≠ ':')).reverse)

def foldIPv4Tail (address : List Char) : Option (List Char) :=
  let (front, tail) := sliceAtLastColon address
  if '.' ∈ tail then
    match ipv4PartToGroups rt tail with
    | none => none
    | some (g, h) => some (front ++ hexText g ++ ':' :: hexText h)
  else some address

/-- `split('::')`. -/
def splitDoubleColon : List Char → List (List Char)
  | [] => [[]]
  | ':' :: ':' :: rest => [] :: splitDoubleColon rest
  | c :: rest => (splitDoubleColon rest).modifyHead (c :: ·)

def expandSingleIPv6Part (part : List Char) : Option (List ℕ) :=
  match parseHexGroups part with
  | some groups => if groups.length = 8 then some groups else none
  | none => none

def expandCompressedIPv6Parts (headPart tailPart : List Char) : Option (List ℕ) :=
  match parseHexGroups headPart, parseHexGroups tailPart with
  | some head, some tail =>
    if 7 < head.length + tail.length then none
    else some (head ++ (List.replicate (8 - head.length - tail.length) 0 ++ tail))
  | _, _ => none

def expandIPv6Groups (address : List Char) : Option (List ℕ) :=
  match foldIPv4Tail rt (address.takeWhile (· ≠ '%')) with
  | none => none
  | some folded =>
    match splitDoubleColon folded with
    | [part] => expandSingleIPv6Part part
    | [headPart, tailPart] => expandCompressedIPv6Parts headPart tailPart
    | _ => none

def isIPv6Loopback (groups : List ℕ) : Bool := (groups.take 7).all (· = 0) && groups[7]? = some 1

def isIPv6Unspecified (groups : List ℕ) : Bool := groups.all (· = 0)

def isUniqueLocalIPv6 (groups : List ℕ) : Bool := groups.headD 0 &&& 0xfe00 = 0xfc00

def isLinkLocalIPv6 (groups : List ℕ) : Bool := groups.headD 0 &&& 0xffc0 = 0xfe80

def ipv4MappedAddress (groups : List ℕ) : Option (List Char) :=
  if (groups.take 5).all (· = 0) = true ∧ groups[5]? = some 0xffff then
    let g6 := groups[6]?.getD 0
    let g7 := groups[7]?.getD 0
    some (['.'].intercalate (([g6 >>> 8 &&& 0xff, g6 &&& 0xff, g7 >>> 8 &&& 0xff, g7 &&& 0xff]).map
      Js.decimal))
  else none

def isPrivateIPv6 (ip : List Char) : Bool :=
  match expandIPv6Groups rt (rt.toLowerCase ip) with
  | none => true
  | some groups =>
    if isIPv6Loopback groups || isIPv6Unspecified groups || isUniqueLocalIPv6 groups ||
        isLinkLocalIPv6 groups then true
    else match ipv4MappedAddress groups with
      | some mappedV4 => isPrivateIPv4 rt mappedV4
      | none => false

def isPrivateOrReservedAddress (address : List Char) : Bool :=
  if rt.isIP address = 4 then isPrivateIPv4 rt address
  else if rt.isIP address = 6 then isPrivateIPv6 rt address
  else true

/-! ### What is blocked -/

/-- The blocked IPv4 addresses: 10/8, 172.16/12, 192.168/16, 127/8, 169.254/16 and 0/8. -/
def BlockedIPv4 (a : ℕ) : Prop :=
  InPrefix 32 (10 * 2 ^ 24) 8 a ∨ InPrefix 32 (172 * 2 ^ 24 + 16 * 2 ^ 16) 12 a ∨
    InPrefix 32 (192 * 2 ^ 24 + 168 * 2 ^ 16) 16 a ∨ InPrefix 32 (127 * 2 ^ 24) 8 a ∨
    InPrefix 32 (169 * 2 ^ 24 + 254 * 2 ^ 16) 16 a ∨ InPrefix 32 0 8 a

/-- The blocked IPv6 addresses: `::1`, `::`, `fc00::/7`, `fe80::/10` and the mapped ones of a
blocked IPv4 address. -/
def BlockedIPv6 (a : ℕ) : Prop :=
  a = 1 ∨ a = 0 ∨ InPrefix 128 (0xfc00 * 2 ^ 112) 7 a ∨ InPrefix 128 (0xfe80 * 2 ^ 112) 10 a ∨
    (InPrefix 128 (0xffff * 2 ^ 32) 96 a ∧ BlockedIPv4 (a % 2 ^ 32))

/-- The answers the packages document: `net.isIP` tells the texts of addresses, `Number` reads
decimals, case folding of ASCII text is that of its characters, and `ipaddr.js` accepts strict
dotted decimals and classifies them as the IANA registry does. -/
structure NetRuntime.Documented : Prop where
  isIP_four : ∀ s, rt.isIP s = 4 ↔ ∃ q : Quad, s = q.text
  isIP_six : ∀ s, rt.isIP s = 6 ↔ ∃ f : IPv6Form, s = f.text
  toLowerCase_ascii : ∀ s, (∀ c ∈ s, c.toNat < 128) → rt.toLowerCase s = s.map Char.toLower
  number_decimal : ∀ n : ℕ, n < 256 → rt.number (Js.decimal n) = some n
  fourPartDecimal : ∀ q : Quad, rt.isValidFourPartDecimal q.text = true
  range_private : ∀ q : Quad, rt.range q.text = "private" ↔
    InPrefix 32 (10 * 2 ^ 24) 8 q.address ∨ InPrefix 32 (172 * 2 ^ 24 + 16 * 2 ^ 16) 12 q.address ∨
      InPrefix 32 (192 * 2 ^ 24 + 168 * 2 ^ 16) 16 q.address
  range_loopback : ∀ q : Quad, rt.range q.text = "loopback" ↔ InPrefix 32 (127 * 2 ^ 24) 8 q.address
  range_linkLocal : ∀ q : Quad, rt.range q.text = "linkLocal" ↔
    InPrefix 32 (169 * 2 ^ 24 + 254 * 2 ^ 16) 16 q.address
  range_unspecified : ∀ q : Quad, rt.range q.text = "unspecified" ↔ InPrefix 32 0 8 q.address

/-! ### Splitting -/

lemma splitDoubleColon_append {w : List Char} (hw : ':' ∉ w) (l : List Char) :
    splitDoubleColon (w ++ l) = (splitDoubleColon l).modifyHead (w ++ ·) := by
  induction w with
  | nil =>
    rw [List.nil_append]
    generalize splitDoubleColon l = parts
    cases parts <;> rfl
  | cons c w ih =>
    obtain ⟨hc, hw⟩ := not_or.1 (List.mem_cons.not.1 hw)
    rw [List.cons_append, splitDoubleColon.eq_def]
    split
    · simp at *
    · next heq => exact absurd (List.cons.inj heq).1.symm hc
    · next heq =>
      cases heq
      rw [ih hw, List.modifyHead_modifyHead]
      rfl

lemma splitDoubleColon_colon {c : Char} (hc : c ≠ ':') (l : List Char) :
    splitDoubleColon (':' :: c :: l) = (splitDoubleColon (c :: l)).modifyHead (':' :: ·) := by
  rw [splitDoubleColon.eq_def]
  split
  · simp at *
  · next heq => exact absurd (List.cons.inj (List.cons.inj heq).2).1 hc
  · next heq =>
    cases heq
    rfl

lemma splitDoubleColon_hexes (hexes : List HexGroup) (rest : List Char) :
    splitDoubleColon ((GroupList.mk hexes none).text ++ rest) =
      (splitDoubleColon rest).modifyHead ((GroupList.mk hexes none).text ++ ·) := by
  induction hexes with
  | nil =>
    show splitDoubleColon rest = (splitDoubleColon rest).modifyHead ([] ++ ·)
    generalize splitDoubleColon rest = parts
    cases parts <;> rfl
  | cons g hexes ih =>
    cases hexes with
    | nil =>
      rw [GroupList.text_singleton]
      exact splitDoubleColon_append g.colon_notMem rest
    | cons g' hexes =>
      obtain ⟨c, l, hc, htext⟩ := GroupList.text_cons_eq g' hexes
      rw [GroupList.text_cons_cons, List.append_assoc, splitDoubleColon_append g.colon_notMem,
        List.cons_append, htext, List.cons_append, splitDoubleColon_colon hc,
        ← List.cons_append, ← htext, ih, List.modifyHead_modifyHead, List.modifyHead_modifyHead]
      congr 1
      funext part
      simp

/-! ### Parsing groups -/

lemma parseHexGroup_digits (g : HexGroup) : parseHexGroup g.digits = some g.value := by
  rw [parseHexGroup, if_pos ⟨g.size.1, g.size.2, List.all_eq_true.2 g.hex⟩]
  rfl

lemma mapM_parseHexGroup (hexes : List HexGroup) :
    (hexes.map HexGroup.digits).mapM parseHexGroup = some (hexes.map HexGroup.value) := by
  induction hexes with
  | nil => rfl
  | cons g hexes ih =>
    rw [List.map_cons, List.mapM_cons, parseHexGroup_digits, ih]
    rfl

/-- A list of groups is read back. -/
lemma parseHexGroups_text (hexes : List HexGroup) :
    parseHexGroups (GroupList.mk hexes none).text = some (hexes.map HexGroup.value) := by
  cases hexes with
  | nil => rfl
  | cons g hexes =>
    have hsplit : (GroupList.mk (g :: hexes) none).text.splitOn ':' =
        (g :: hexes).map HexGroup.digits := by
      rw [GroupList.text, GroupList.parts, Option.toList_none, List.map_nil, List.append_nil]
      refine List.splitOn_intercalate _ (fun part hpart => ?_) (by simp)
      obtain ⟨h, -, rfl⟩ := List.mem_map.1 hpart
      exact h.colon_notMem
    obtain ⟨c, l, -, htext⟩ := GroupList.text_cons_eq g hexes
    rw [parseHexGroups, if_neg (by rw [htext]; simp), hsplit, mapM_parseHexGroup]

/-! ### Dotted tails -/

lemma sliceAtLastColon_append {front tail : List Char} (hfront : front.getLast? = some ':')
    (htail : ':' ∉ tail) : sliceAtLastColon (front ++ tail) = (front, tail) := by
  obtain ⟨init, rfl⟩ := List.getLast?_eq_some_iff.1 hfront
  have hall : ∀ c ∈ tail.reverse, decide (c ≠ ':') = true := by
    intro c hc
    simp only [ne_eq, decide_not, Bool.not_eq_true', decide_eq_false_iff_not]
    rintro rfl
    exact htail (List.mem_reverse.1 hc)
  have hrev : (init ++ [':'] ++ tail).reverse = tail.reverse ++ ':' :: init.reverse := by simp
  rw [sliceAtLastColon, hrev, List.dropWhile_append_of_pos hall, List.takeWhile_append_of_pos hall]
  simp

lemma shiftLeft_or_eq {a b : ℕ} (hb : b < 256) : a <<< 8 ||| b = a * 256 + b := by
  rw [← Nat.shiftLeft_add_eq_or_of_lt (i := 8) hb, Nat.shiftLeft_eq]

variable {rt}

lemma octet_decimal (h : rt.Documented) {n : ℕ} (hn : n < 256) :
    octet rt (Js.decimal n) = some n := by
  have hrange : ¬((n : ℤ) < 0 ∨ 255 < (n : ℤ)) := by omega
  rw [octet, h.number_decimal n hn]
  show (if (n : ℤ) < 0 ∨ 255 < (n : ℤ) then none else some (n : ℤ).toNat) = some n
  rw [if_neg hrange, Int.toNat_natCast]

lemma Quad.splitOn_text (q : Quad) : q.text.splitOn '.' = q.octets.map Js.decimal := by
  refine List.splitOn_intercalate _ (fun part hpart hdot => ?_) (by simp [Quad.octets])
  obtain ⟨n, -, rfl⟩ := List.mem_map.1 hpart
  exact absurd (isDigit_of_mem_decimal hdot) (by decide)

lemma ipv4PartToGroups_text (h : rt.Documented) (q : Quad) :
    ipv4PartToGroups rt q.text = some ((q.a : ℕ) * 256 + q.b, (q.c : ℕ) * 256 + q.d) := by
  have hoctets : (q.octets.map Js.decimal).mapM (octet rt) = some [q.a.val, q.b, q.c, q.d] := by
    simp only [Quad.octets, List.map_cons, List.map_nil, List.mapM_cons, List.mapM_nil,
      octet_decimal h q.a.isLt, octet_decimal h q.b.isLt, octet_decimal h q.c.isLt,
      octet_decimal h q.d.isLt]
    rfl
  rw [ipv4PartToGroups.eq_def, Quad.splitOn_text, hoctets]
  dsimp only
  rw [shiftLeft_or_eq q.b.isLt, shiftLeft_or_eq q.d.isLt]

lemma dot_mem_text (q : Quad) : '.' ∈ q.text := by
  simp [Quad.text, Quad.octets]

lemma colon_notMem_text (q : Quad) : ':' ∉ q.text := by
  intro h
  rcases q.mem_text h with h | h
  · exact absurd h (by decide)
  · exact absurd h (by decide)

lemma foldIPv4Tail_of_notMem {address : List Char} (h : '.' ∉ address) :
    foldIPv4Tail rt address = some address := by
  rw [foldIPv4Tail]
  dsimp only
  rw [if_neg]
  intro hmem
  rw [sliceAtLastColon, List.mem_reverse] at hmem
  exact h (List.mem_reverse.1 (List.takeWhile_subset _ hmem))

lemma getLast?_front {hexes : List HexGroup} (h : hexes ≠ []) :
    (GroupList.front hexes).getLast? = some ':' := by
  obtain ⟨init, g, rfl⟩ := List.eq_nil_or_concat' hexes |>.resolve_left h
  rw [GroupList.front, List.flatMap_append, List.getLast?_append]
  simp

/-- A dotted tail behind a colon becomes two groups. -/
lemma foldIPv4Tail_text (h : rt.Documented) {front : List Char} (l : GroupList)
    (hdot : '.' ∉ front)
    (hfront : front.getLast? = some ':' ∨ (front = [] ∧ (l.quad ≠ none → l.hexes ≠ []))) :
    foldIPv4Tail rt (front ++ l.text) = some (front ++ (GroupList.mk l.folded none).text) := by
  obtain ⟨hexes, quad⟩ := l
  cases quad with
  | none =>
    refine foldIPv4Tail_of_notMem fun hmem => ?_
    rcases List.mem_append.1 hmem with hmem | hmem
    · exact hdot hmem
    · rcases GroupList.mem_text hmem with hc | hc | ⟨hc, -⟩
      · exact absurd hc (by decide)
      · exact absurd hc (by decide)
      · exact hc rfl
  | some q =>
    have hlast : (front ++ GroupList.front hexes).getLast? = some ':' := by
      rcases hfront with hfront | ⟨rfl, hne⟩
      · by_cases hnil : hexes = []
        · rw [hnil]
          simpa [GroupList.front] using hfront
        · rw [List.getLast?_append, getLast?_front hnil, Option.some_or]
      · exact getLast?_front (hne (by simp))
    rw [GroupList.text_quad, GroupList.text_folded, ← List.append_assoc, foldIPv4Tail,
      sliceAtLastColon_append hlast (colon_notMem_text q)]
    dsimp only
    rw [if_pos (dot_mem_text q), ipv4PartToGroups_text h]
    simp

/-! ### Expanding -/

lemma splitDoubleColon_text (hexes : List HexGroup) :
    splitDoubleColon (GroupList.mk hexes none).text = [(GroupList.mk hexes none).text] := by
  have h := splitDoubleColon_hexes hexes []
  rw [List.append_nil] at h
  rw [h]
  simp [splitDoubleColon]

/-- The groups of a text without its zone. -/
lemma expand_body (h : rt.Documented) (b : IPv6Body) :
    (match foldIPv4Tail rt b.text with
      | none => none
      | some folded =>
        match splitDoubleColon folded with
        | [part] => expandSingleIPv6Part part
        | [headPart, tailPart] => expandCompressedIPv6Parts headPart tailPart
        | _ => none) = some b.groups := by
  cases b with
  | full l hlen =>
    have hfold : foldIPv4Tail rt l.text = some (GroupList.mk l.folded none).text := by
      rw [← List.nil_append l.text]
      refine foldIPv4Tail_text h l (by simp) (.inr ⟨rfl, fun hquad hnil => ?_⟩)
      obtain ⟨q, hq⟩ := Option.ne_none_iff_exists'.1 hquad
      rw [GroupList.groups, hnil, hq] at hlen
      simp [Quad.groups] at hlen
    rw [IPv6Body.text, hfold]
    dsimp only
    rw [splitDoubleColon_text]
    dsimp only
    rw [expandSingleIPv6Part, parseHexGroups_text, GroupList.groups_folded]
    dsimp only
    rw [if_pos hlen]
    rfl
  | compressed head tail hlen =>
    have hfront : ((GroupList.mk head none).text ++ [':', ':']).getLast? = some ':' := by simp
    have hdot : '.' ∉ (GroupList.mk head none).text ++ [':', ':'] := by
      intro hmem
      rcases List.mem_append.1 hmem with hmem | hmem
      · rcases GroupList.mem_text hmem with hc | hc | ⟨hc, -⟩
        · exact absurd hc (by decide)
        · exact absurd hc (by decide)
        · exact hc rfl
      · exact absurd hmem (by decide)
    have htext : (IPv6Body.compressed head tail hlen).text =
        ((GroupList.mk head none).text ++ [':', ':']) ++ tail.text := by
      simp [IPv6Body.text]
    rw [htext, foldIPv4Tail_text h tail hdot (.inl hfront)]
    dsimp only
    rw [List.append_assoc, splitDoubleColon_hexes, List.cons_append, List.cons_append,
      List.nil_append, splitDoubleColon, splitDoubleColon_text]
    simp only [List.modifyHead_cons, List.append_nil]
    rw [expandCompressedIPv6Parts, parseHexGroups_text, parseHexGroups_text,
      GroupList.groups_folded]
    dsimp only
    rw [if_neg (by rw [List.length_map]; omega), List.length_map]
    rfl

end SafeFetch
