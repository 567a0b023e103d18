import ProjectVault.Js.Order

/-!
Values that a program hands to `JSON.stringify`, and JSON values up to the order of members.
-/

namespace Js

/-! ### Code units -/

/-- The UTF-16 code units of a character. -/
def charUnits (c : Char) : List ℕ :=
  if c.toNat < 0x10000 then [c.toNat]
  else [0xD800 + (c.toNat - 0x10000) / 0x400, 0xDC00 + (c.toNat - 0x10000) % 0x400]

/-- The UTF-16 code units of a string. -/
def codeUnits (s : String) : List ℕ := s.toList.flatMap charUnits

/-- The code units of a character end where those of the next one start. -/
lemma charUnits_append_inj {c d : Char} {us vs : List ℕ}
    (h : charUnits c ++ us = charUnits d ++ vs) : c = d ∧ us = vs := by
  have hc : c.toNat < 0xD800 ∨ 0xDFFF < c.toNat ∧ c.toNat < 0x110000 := c.valid
  have hd : d.toNat < 0xD800 ∨ 0xDFFF < d.toNat ∧ d.toNat < 0x110000 := d.valid
  have hnat : c.toNat = d.toNat ∧ us = vs := by
    unfold charUnits at h
    split_ifs at h with hsmall hsmall' hsmall'
    · obtain ⟨hunit, hrest⟩ := List.cons.inj h
      exact ⟨hunit, hrest⟩
    · obtain ⟨hunit, -⟩ := List.cons.inj h
      omega
    · obtain ⟨hunit, -⟩ := List.cons.inj h
      omega
    · obtain ⟨hhigh, hrest⟩ := List.cons.inj h
      obtain ⟨hlow, hrest⟩ := List.cons.inj hrest
      exact ⟨by omega, hrest⟩
  exact ⟨Char.toNat_inj.1 hnat.1, hnat.2⟩

lemma codeUnits_injective : Function.Injective codeUnits := by
  have hlists : ∀ cs ds : List Char, cs.flatMap charUnits = ds.flatMap charUnits → cs = ds := by
    have hne : ∀ c, charUnits c ≠ [] := by
      intro c
      unfold charUnits
      split_ifs <;> simp
    intro cs
    induction cs with
    | nil =>
      intro ds h
      cases ds with
      | nil => rfl
      | cons d ds =>
        rw [List.flatMap_nil, List.flatMap_cons] at h
        exact absurd (List.append_eq_nil_iff.1 h.symm).1 (hne d)
    | cons c cs ih =>
      intro ds h
      cases ds with
      | nil =>
        rw [List.flatMap_nil, List.flatMap_cons] at h
        exact absurd (List.append_eq_nil_iff.1 h).1 (hne c)
      | cons d ds =>
        rw [List.flatMap_cons, List.flatMap_cons] at h
        obtain ⟨rfl, hrest⟩ := charUnits_append_inj h
        rw [ih ds hrest]
  exact fun s t h => String.toList_injective (hlists _ _ h)

/-- `compareCodeUnits`. -/
def compareCodeUnits (a b : String) : ℤ :=
  if codeUnits a < codeUnits b then -1 else if codeUnits b < codeUnits a then 1 else 0

/-- The comparison of two entries by their keys is not positive. -/
def keyLe {β : Type} (a b : String × β) : Prop := compareCodeUnits a.1 b.1 ≤ 0

instance {β : Type} : DecidableRel (keyLe (β := β)) := fun _ _ => inferInstanceAs (Decidable (_ ≤ _))

section KeyLe

variable {β : Type}

lemma keyLe_iff {a b : String × β} : keyLe a b ↔ codeUnits a.1 ≤ codeUnits b.1 := by
  unfold keyLe compareCodeUnits
  split_ifs with hlt hgt
  · simp [hlt.le]
  · simp [hgt]
  · simp [not_lt.1 hgt]

instance : Std.Total (keyLe (β := β)) :=
  ⟨fun a b => by
    rw [keyLe_iff, keyLe_iff]
    exact le_total _ _⟩

instance : IsTrans (String × β) keyLe :=
  ⟨fun a b c hab hbc => by
    rw [keyLe_iff] at hab hbc ⊢
    exact hab.trans hbc⟩

lemma key_eq_of_keyLe {a b : String × β} (hab : keyLe a b) (hba : keyLe b a) : a.1 = b.1 :=
  codeUnits_injective (le_antisymm (keyLe_iff.1 hab) (keyLe_iff.1 hba))

/-- Members with distinct keys sort to one list exactly if they are the same members. -/
lemma sort_eq_iff_perm {ms ns : List (String × β)} (hnodup : (ms.map Prod.fst).Nodup) :
    ms.insertionSort keyLe = ns.insertionSort keyLe ↔ ms.Perm ns := by
  have hms := List.perm_insertionSort keyLe ms
  have hns := List.perm_insertionSort keyLe ns
  constructor
  · intro h
    rw [h] at hms
    exact hms.symm.trans hns
  · intro h
    refine (hms.trans (h.trans hns.symm)).eq_of_pairwise (fun a b ha hb hab hba => ?_)
      (List.pairwise_insertionSort keyLe ms) (List.pairwise_insertionSort keyLe ns)
    exact List.inj_on_of_nodup_map hnodup (hms.mem_iff.1 ha) (h.mem_iff.2 (hns.mem_iff.1 hb))
      (key_eq_of_keyLe hab hba)

end KeyLe

/-! ### Values -/

/-- A serializable value of the language; the members of an object stand in property order.
`nonFinite` are `NaN` and the infinities. -/
inductive Value where
  | undefined
  | null
  | bool (b : Bool)
  | num (n : NumLit)
  | nonFinite
  | str (s : String)
  | arr (xs : List Value)
  | obj (ms : List (String × Value))

def Value.isUndefined : Value → Bool
  | .undefined => true
  | _ => false

mutual

/-- What `JSON.stringify` prints of a value; in an array it prints `null` for `undefined`. -/
def Value.json : Value → Json
  | .undefined => .null
  | .null => .null
  | .bool b => .bool b
  | .num n => .num n
  | .nonFinite => .null
  | .str s => .str s
  | .arr xs => .arr (Value.jsonElems xs)
  | .obj ms => .obj (Value.jsonMembers ms)

/-- The elements of an array. -/
def Value.jsonElems : List Value → List Json
  | [] => []
  | x :: xs => x.json :: Value.jsonElems xs

/-- The members of an object that are not `undefined`. -/
def Value.jsonMembers : List (String × Value) → List (String × Json)
  | [] => []
  | (k, v) :: ms => if v.isUndefined then Value.jsonMembers ms else (k, v.json) :: Value.jsonMembers ms

end

mutual

/-- Every object in the value has each of its keys once. -/
def Value.Distinct : Value → Prop
  | .arr xs => Value.DistinctElems xs
  | .obj ms => (ms.map Prod.fst).Nodup ∧ Value.DistinctMembers ms
  | _ => True

/-- The elements of an array. -/
def Value.DistinctElems : List Value → Prop
  | [] => True
  | x :: xs => x.Distinct ∧ Value.DistinctElems xs

/-- The members of an object. -/
def Value.DistinctMembers : List (String × Value) → Prop
  | [] => True
  | (_, v) :: ms => v.Distinct ∧ Value.DistinctMembers ms

end

lemma Value.jsonMembers_sublist (ms : List (String × Value)) :
    ((Value.jsonMembers ms).map Prod.fst).Sublist (ms.map Prod.fst) := by
  induction ms with
  | nil => exact List.Sublist.slnil
  | cons m ms ih =>
    obtain ⟨k, v⟩ := m
    rw [Value.jsonMembers]
    split_ifs
    · exact ih.cons k
    · exact ih.cons_cons k

mutual

lemma Value.distinct_json : ∀ v : Value, v.Distinct → v.json.Distinct
  | .undefined, _ => trivial
  | .null, _ => trivial
  | .bool _, _ => trivial
  | .num _, _ => trivial
  | .nonFinite, _ => trivial
  | .str _, _ => trivial
  | .arr xs, h => by
    rw [Value.json, Json.Distinct]
    exact Value.distinct_jsonElems xs h
  | .obj ms, h => by
    rw [Value.json, Json.Distinct]
    exact ⟨(Value.jsonMembers_sublist ms).nodup h.1, Value.distinct_jsonMembers ms h.2⟩

lemma Value.distinct_jsonElems : ∀ xs : List Value, Value.DistinctElems xs →
    Json.DistinctElems (Value.jsonElems xs)
  | [], _ => trivial
  | x :: xs, h => ⟨Value.distinct_json x h.1, Value.distinct_jsonElems xs h.2⟩

lemma Value.distinct_jsonMembers : ∀ ms : List (String × Value), Value.DistinctMembers ms →
    Json.DistinctMembers (Value.jsonMembers ms)
  | [], _ => trivial
  | (k, v) :: ms, h => by
    rw [Value.jsonMembers]
    split_ifs
    · exact Value.distinct_jsonMembers ms h.2
    · exact ⟨Value.distinct_json v h.1, Value.distinct_jsonMembers ms h.2⟩

end

/-! ### Equality up to the order of members -/

mutual

/-- Equality up to the order of the members of objects. -/
def Json.Alike : Json → Json → Prop
  | .arr xs, .arr ys => Json.AlikeElems xs ys
  | .obj ms, .obj ns => ms.length = ns.length ∧ Json.AlikeMembers ms ns
  | .null, .null => True
  | .bool b, .bool c => b = c
  | .num m, .num n => m = n
  | .str s, .str t => s = t
  | _, _ => False

/-- The elements of two arrays. -/
def Json.AlikeElems : List Json → List Json → Prop
  | [], [] => True
  | x :: xs, y :: ys => x.Alike y ∧ Json.AlikeElems xs ys
  | _, _ => False

/-- Every member has its like. -/
def Json.AlikeMembers : List (String × Json) → List (String × Json) → Prop
  | [], _ => True
  | (k, v) :: ms, ns => (∃ w, (k, w) ∈ ns ∧ v.Alike w) ∧ Json.AlikeMembers ms ns

end

@[simp] lemma Json.alike_str {s t : String} : (Json.str s).Alike (.str t) ↔ s = t := Iff.rfl

@[simp] lemma Json.alike_obj {ms ns : List (String × Json)} :
    (Json.obj ms).Alike (.obj ns) ↔ ms.length = ns.length ∧ Json.AlikeMembers ms ns := Iff.rfl

@[simp] lemma Json.alikeMembers_nil (ns : List (String × Json)) : Json.AlikeMembers [] ns := trivial

@[simp] lemma Json.alikeMembers_cons {k : String} {v : Json} {ms ns : List (String × Json)} :
    Json.AlikeMembers ((k, v) :: ms) ns ↔
      (∃ w, (k, w) ∈ ns ∧ v.Alike w) ∧ Json.AlikeMembers ms ns := Iff.rfl

mutual

/-- The members of every object in the order of their keys. -/
def sortJson : Json → Json
  | .arr xs => .arr (sortJsonElems xs)
  | .obj ms => .obj ((sortJsonMembers ms).insertionSort keyLe)
  | j => j

/-- The elements of an array. -/
def sortJsonElems : List Json → List Json
  | [] => []
  | x :: xs => sortJson x :: sortJsonElems xs

/-- The members of an object, their values sorted. -/
def sortJsonMembers : List (String × Json) → List (String × Json)
  | [] => []
  | (k, v) :: ms => (k, sortJson v) :: sortJsonMembers ms

end

lemma sortJsonMembers_eq_map (ms : List (String × Json)) :
    sortJsonMembers ms = ms.map fun m => (m.1, sortJson m.2) := by
  induction ms with
  | nil => rfl
  | cons m ms ih =>
    obtain ⟨k, v⟩ := m
    rw [sortJsonMembers, ih, List.map_cons]

/-- Members with distinct keys are the same up to order if there are as many and one list holds
the other. -/
lemma perm_sorted_iff {ms ns : List (String × Json)} (hms : (ms.map Prod.fst).Nodup) :
    (sortJsonMembers ms).Perm (sortJsonMembers ns) ↔
      ms.length = ns.length ∧ ∀ m ∈ ms, ∃ w, (m.1, w) ∈ ns ∧ sortJson m.2 = sortJson w := by
  rw [sortJsonMembers_eq_map, sortJsonMembers_eq_map]
  have hnodup : (ms.map fun m => (m.1, sortJson m.2)).Nodup := by
    refine List.Nodup.of_map Prod.fst ?_
    simpa [Function.comp_def] using hms
  constructor
  · intro hperm
    refine ⟨by simpa using hperm.length_eq, fun m hm => ?_⟩
    obtain ⟨n, hn, heq⟩ := List.mem_map.1 (hperm.mem_iff.1 (List.mem_map_of_mem hm))
    obtain ⟨hkey, hvalue⟩ := Prod.mk.inj heq
    exact ⟨n.2, by rwa [← hkey], hvalue.symm⟩
  · rintro ⟨hlength, hmem⟩
    have hsub : (ms.map fun m => (m.1, sortJson m.2)) ⊆ ns.map fun m => (m.1, sortJson m.2) := by
      intro x hx
      obtain ⟨m, hm, rfl⟩ := List.mem_map.1 hx
      obtain ⟨w, hw, heq⟩ := hmem m hm
      exact List.mem_map.2 ⟨(m.1, w), hw, by rw [heq]⟩
    refine (hnodup.subperm hsub).perm_of_length_le ?_
    simp [hlength]

mutual

/-- **Two values sort to one exactly if they are alike.** -/
theorem sortJson_eq_iff : ∀ a b : Json, a.Distinct → (sortJson a = sortJson b ↔ a.Alike b)
  | .arr xs, b, h => by
    cases b with
    | arr ys =>
      rw [sortJson, sortJson, Json.Alike, Json.arr.injEq]
      exact sortJsonElems_eq_iff xs ys h
    | _ => simp [sortJson, Json.Alike]
  | .obj ms, b, h => by
    cases b with
    | obj ns =>
      have hnodup : ((sortJsonMembers ms).map Prod.fst).Nodup := by
        rw [sortJsonMembers_eq_map]
        simpa [Function.comp_def] using h.1
      rw [sortJson, sortJson, Json.Alike, Json.obj.injEq, sort_eq_iff_perm hnodup,
        perm_sorted_iff h.1, alikeMembers_iff ms ns h.2]
    | _ => simp [sortJson, Json.Alike]
  | .null, b, _ => by cases b <;> simp [sortJson, Json.Alike]
  | .bool _, b, _ => by cases b <;> simp [sortJson, Json.Alike]
  | .num _, b, _ => by cases b <;> simp [sortJson, Json.Alike]
  | .str _, b, _ => by cases b <;> simp [sortJson, Json.Alike]

lemma sortJsonElems_eq_iff : ∀ xs ys : List Json, Json.DistinctElems xs →
    (sortJsonElems xs = sortJsonElems ys ↔ Json.AlikeElems xs ys)
  | [], ys, _ => by cases ys <;> simp [sortJsonElems, Json.AlikeElems]
  | x :: xs, ys, h => by
    cases ys with
    | nil => simp [sortJsonElems, Json.AlikeElems]
    | cons y ys =>
      rw [sortJsonElems, sortJsonElems, Json.AlikeElems, List.cons.injEq,
        sortJson_eq_iff x y h.1, sortJsonElems_eq_iff xs ys h.2]

lemma alikeMembers_iff : ∀ ms ns : List (String × Json), Json.DistinctMembers ms →
    ((∀ m ∈ ms, ∃ w, (m.1, w) ∈ ns ∧ sortJson m.2 = sortJson w) ↔ Json.AlikeMembers ms ns)
  | [], ns, _ => by simp [Json.AlikeMembers]
  | (k, v) :: ms, ns, h => by
    rw [List.forall_mem_cons, alikeMembers_iff ms ns h.2, Json.AlikeMembers]
    refine and_congr_left fun _ => exists_congr fun w => and_congr_right fun _ => ?_
    exact sortJson_eq_iff v w h.1

end

end Js
