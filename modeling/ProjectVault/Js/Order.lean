import ProjectVault.Js.Json

/-!
Stable sorts and the order of object properties.
-/

namespace Js

variable {α : Type}

/-! ### Pairs in a list -/

lemma pair_sublist_or {a b : α} {l : List α} (ha : a ∈ l) (hb : b ∈ l) (hab : a ≠ b) :
    List.Sublist [a, b] l ∨ List.Sublist [b, a] l := by
  induction l with
  | nil => simp at ha
  | cons x xs ih =>
    cases List.mem_cons.1 ha with
    | inl hax =>
      cases List.mem_cons.1 hb with
      | inl hbx => exact absurd (hax.trans hbx.symm) hab
      | inr hbs =>
        rw [hax]
        exact .inl ((List.singleton_sublist.2 hbs).cons_cons x)
    | inr has =>
      cases List.mem_cons.1 hb with
      | inl hbx =>
        rw [hbx]
        exact .inr ((List.singleton_sublist.2 has).cons_cons x)
      | inr hbs =>
        cases ih has hbs with
        | inl h => exact .inl (h.cons x)
        | inr h => exact .inr (h.cons x)

lemma not_pair_sublist_swap {a b : α} {l : List α} (hnodup : l.Nodup)
    (h : List.Sublist [a, b] l) : ¬ List.Sublist [b, a] l := by
  induction l with
  | nil => simp at h
  | cons x xs ih =>
    rw [List.nodup_cons] at hnodup
    intro h'
    cases h with
    | cons _ h =>
      cases h' with
      | cons _ h' => exact ih hnodup.2 h h'
      | cons_cons _ h' => exact hnodup.1 (h.subset (by simp))
    | cons_cons _ h =>
      cases h' with
      | cons _ h' => exact hnodup.1 (h'.subset (by simp))
      | cons_cons _ h' => exact hnodup.1 (h.subset (by simp))

lemma pair_sublist_filter {p : α → Bool} {a b : α} {l : List α} (ha : p a = true)
    (hb : p b = true) (h : List.Sublist [a, b] l) : List.Sublist [a, b] (l.filter p) := by
  have := h.filter p
  simpa [ha, hb] using this

/-! ### Stable sorts -/

section Stable

variable (r : α → α → Prop) [DecidableRel r]

/-- A tie keeps its order in a stable sort. -/
lemma pair_sublist_of_insertionSort {a b : α} {l : List α} (hnodup : l.Nodup)
    (h : List.Sublist [a, b] (l.insertionSort r)) (hba : r b a) : List.Sublist [a, b] l := by
  have hnodup' : (l.insertionSort r).Nodup := (List.perm_insertionSort r l).nodup_iff.2 hnodup
  have ha : a ∈ l := (List.mem_insertionSort r).1 (h.subset (by simp))
  have hb : b ∈ l := (List.mem_insertionSort r).1 (h.subset (by simp))
  have hne : a ≠ b := by
    rintro rfl
    exact not_pair_sublist_swap hnodup' h h
  cases pair_sublist_or ha hb hne with
  | inl hab => exact hab
  | inr hswap =>
    exact absurd (List.pair_sublist_insertionSort hba hswap) (not_pair_sublist_swap hnodup' h)

variable [Std.Total r] [IsTrans α r]

/-- The order `r`, with ties broken as they stand in `l`. -/
def TieOrder (l : List α) (a b : α) : Prop := r a b ∧ (r b a → List.Sublist [a, b] l)

/-- Of two arrangements of the same entries, the stable sorts select the same list if and
only if the selected entries of every tie are arranged alike. -/
lemma filter_insertionSort_eq_iff_of_perm (p : α → Bool) {l l' : List α} (hperm : l.Perm l')
    (hnodup : l.Nodup) :
    (l.insertionSort r).filter p = (l'.insertionSort r).filter p ↔
      ∀ a b, p a = true → p b = true → r a b → r b a → List.Sublist [a, b] l →
        List.Sublist [a, b] l' := by
  have hnodup' : l'.Nodup := hperm.nodup_iff.1 hnodup
  constructor
  · intro heq a b ha hb hab hba hsub
    have hsorted := pair_sublist_filter ha hb (List.pair_sublist_insertionSort hab hsub)
    rw [heq] at hsorted
    exact pair_sublist_of_insertionSort r hnodup' (hsorted.trans List.filter_sublist) hba
  · intro h
    have hsorts : (l.insertionSort r).Perm (l'.insertionSort r) :=
      (List.perm_insertionSort r l).trans (hperm.trans (List.perm_insertionSort r l').symm)
    -- both lists are sorted by `r`, and ties by the second arrangement
    have hleft : ((l.insertionSort r).filter p).Pairwise (TieOrder r l') := by
      rw [List.pairwise_iff_forall_sublist]
      intro a b hsub
      have hmem : ∀ x ∈ [a, b], p x = true := fun x hx =>
        (List.mem_filter.1 (hsub.subset hx)).2
      have hsub' := hsub.trans List.filter_sublist
      have hab := List.pairwise_iff_forall_sublist.1 (List.pairwise_insertionSort r l) hsub'
      refine ⟨hab, fun hba => ?_⟩
      exact h a b (hmem a (by simp)) (hmem b (by simp)) hab hba
        (pair_sublist_of_insertionSort r hnodup hsub' hba)
    have hright : ((l'.insertionSort r).filter p).Pairwise (TieOrder r l') := by
      rw [List.pairwise_iff_forall_sublist]
      intro a b hsub
      have hsub' := hsub.trans List.filter_sublist
      have hab := List.pairwise_iff_forall_sublist.1 (List.pairwise_insertionSort r l') hsub'
      exact ⟨hab, fun hba => pair_sublist_of_insertionSort r hnodup' hsub' hba⟩
    refine (hsorts.filter p).eq_of_pairwise ?_ hleft hright
    intro a b _ _ hab hba
    by_contra hne
    exact not_pair_sublist_swap hnodup' (hab.2 hba.1) (hba.2 hab.1)

end Stable

/-! ### Array indices -/

/-- The value of a digit. -/
def digitVal (c : Char) : ℕ := c.toNat - '0'.toNat

lemma digitVal_lt {c : Char} (h : c.isDigit = true) : digitVal c < 10 := by
  have hc := Char.isDigit_iff_toNat.1 h
  have h0 : '0'.toNat = 48 := rfl
  have h9 : '9'.toNat = 57 := rfl
  unfold digitVal
  omega

lemma digitVal_injOn {c d : Char} (hc : c.isDigit = true) (hd : d.isDigit = true)
    (h : digitVal c = digitVal d) : c = d := by
  have hc' := Char.isDigit_iff_toNat.1 hc
  have hd' := Char.isDigit_iff_toNat.1 hd
  unfold digitVal at h
  exact Char.toNat_inj.1 (by omega)

lemma foldl_digits_eq_ofDigits (cs : List Char) :
    cs.foldl (fun a c => a * 10 + (c.toNat - '0'.toNat)) 0 =
      Nat.ofDigits 10 (cs.reverse.map digitVal) := by
  induction cs using List.reverseRecOn with
  | nil => rfl
  | append_singleton cs c ih =>
    rw [List.foldl_append, ih]
    simp [Nat.ofDigits_cons, digitVal]
    ring

lemma digits_ofDigits_digitVal {cs : List Char} (hcs : cs.all Char.isDigit = true)
    (h0 : cs.head? ≠ some '0') :
    Nat.digits 10 (Nat.ofDigits 10 (cs.reverse.map digitVal)) = cs.reverse.map digitVal := by
  have hdigit : ∀ c ∈ cs, c.isDigit = true := by simpa using hcs
  refine Nat.digits_ofDigits 10 (by norm_num) _ ?_ ?_
  · intro d hd
    obtain ⟨c, hc, rfl⟩ := List.mem_map.1 hd
    exact digitVal_lt (hdigit c (List.mem_reverse.1 hc))
  · intro hne hlast
    cases cs with
    | nil => simp at hne
    | cons c cs =>
      have hzero : digitVal c = 0 := by simpa [List.getLast_map] using hlast
      have hc : c = '0' := digitVal_injOn (hdigit c (by simp)) (by decide) hzero
      exact h0 (by simp [hc])

lemma map_digitVal_injective {cs ds : List Char} (hcs : ∀ c ∈ cs, c.isDigit = true)
    (hds : ∀ d ∈ ds, d.isDigit = true) (h : cs.map digitVal = ds.map digitVal) : cs = ds := by
  induction cs generalizing ds with
  | nil =>
    cases ds with
    | nil => rfl
    | cons d ds => simp at h
  | cons c cs ih =>
    cases ds with
    | nil => simp at h
    | cons d ds =>
      rw [List.map_cons, List.map_cons, List.cons.injEq] at h
      have hhead : c = d := digitVal_injOn (hcs c (by simp)) (hds d (by simp)) h.1
      have htail : cs = ds := ih (fun x hx => hcs x (by simp [hx]))
        (fun x hx => hds x (by simp [hx])) h.2
      rw [hhead, htail]

/-- A numeral without leading zeros is determined by its value. -/
lemma digits_eq_of_ofDigits_eq {cs ds : List Char} (hcs : cs.all Char.isDigit = true)
    (hds : ds.all Char.isDigit = true) (hc : cs ≠ []) (hd : ds ≠ [])
    (hc0 : cs.length = 1 ∨ cs.head? ≠ some '0') (hd0 : ds.length = 1 ∨ ds.head? ≠ some '0')
    (h : Nat.ofDigits 10 (cs.reverse.map digitVal) = Nat.ofDigits 10 (ds.reverse.map digitVal)) :
    cs = ds := by
  -- the numeral of zero is the only one that begins with a zero
  have hzero : ∀ es : List Char, es.head? = some '0' → (es.length = 1 ∨ es.head? ≠ some '0') →
      es = ['0'] := by
    intro es hes hlen
    cases es with
    | nil => simp at hes
    | cons e es =>
      cases hlen with
      | inl hlen =>
        have hnil : es = [] := by simpa using hlen
        have he : e = '0' := by simpa using hes
        rw [hnil, he]
      | inr hne => exact absurd hes hne
  have hpos : ∀ es : List Char, es.all Char.isDigit = true → es ≠ [] → es.head? ≠ some '0' →
      Nat.ofDigits 10 (es.reverse.map digitVal) ≠ 0 := by
    intro es hall hne h0 hval
    have := digits_ofDigits_digitVal hall h0
    rw [hval] at this
    simp [hne] at this
  by_cases hch : cs.head? = some '0'
  · have hcs' := hzero cs hch hc0
    by_cases hdh : ds.head? = some '0'
    · rw [hcs', hzero ds hdh hd0]
    · refine absurd ?_ (hpos ds hds hd hdh)
      rw [← h, hcs']
      rfl
  · by_cases hdh : ds.head? = some '0'
    · refine absurd ?_ (hpos cs hcs hc hch)
      rw [h, hzero ds hdh hd0]
      rfl
    · refine List.reverse_injective (map_digitVal_injective ?_ ?_ ?_)
      · simpa using hcs
      · simpa using hds
      · rw [← digits_ofDigits_digitVal hcs hch, h, digits_ofDigits_digitVal hds hdh]

/-- Different keys are different array indices. -/
lemma arrayIndex?_injective {k k' : String} {n : ℕ} (h : arrayIndex? k = some n)
    (h' : arrayIndex? k' = some n) : k = k' := by
  simp only [arrayIndex?] at h h'
  split_ifs at h with hk hlt
  split_ifs at h' with hk' hlt'
  rw [Option.some.injEq, foldl_digits_eq_ofDigits] at h h'
  have := digits_eq_of_ofDigits_eq hk.2.1 hk'.2.1 hk.1 hk'.1 hk.2.2 hk'.2.2 (h.trans h'.symm)
  exact String.toList_inj.1 this

/-! ### Property order -/

/-- A member whose key is not an array index. -/
def named {β : Type} (m : String × β) : Bool := (arrayIndex? m.1).isNone

/-- The order of array indices. -/
def indexLe {β : Type} (a b : String × β) : Prop :=
  (arrayIndex? a.1).getD 0 ≤ (arrayIndex? b.1).getD 0

instance {β : Type} : DecidableRel (indexLe (β := β)) := fun _ _ => inferInstanceAs (Decidable (_ ≤ _))

instance {β : Type} : Std.Total (indexLe (β := β)) := ⟨fun _ _ => le_total _ _⟩

instance {β : Type} : IsTrans (String × β) indexLe := ⟨fun _ _ _ h h' => le_trans h h'⟩

lemma ownPropertyOrder_eq {β : Type} (ms : List (String × β)) :
    ownPropertyOrder ms =
      (ms.filter fun m => !named m).insertionSort indexLe ++ ms.filter named := by
  simp only [ownPropertyOrder, named, Option.not_isNone]
  rfl

lemma filter_named_ownPropertyOrder {β : Type} (ms : List (String × β)) :
    (ownPropertyOrder ms).filter named = ms.filter named := by
  have hnone : ((ms.filter fun m => !named m).insertionSort indexLe).filter named = [] := by
    rw [List.filter_eq_nil_iff]
    intro m hm
    have := (List.mem_filter.1 ((List.mem_insertionSort _).1 hm)).2
    simpa using this
  rw [ownPropertyOrder_eq, List.filter_append, hnone, List.nil_append, List.filter_filter]
  simp

lemma perm_ownPropertyOrder {β : Type} (ms : List (String × β)) :
    (ownPropertyOrder ms).Perm ms := by
  rw [ownPropertyOrder_eq]
  refine ((List.perm_insertionSort _ _).append_right _).trans ?_
  refine List.perm_append_comm.trans ?_
  exact List.filter_append_perm named ms

/-- The array indices of members with distinct keys have one order only. -/
lemma insertionSort_indexLe_eq {β : Type} {ms ms' : List (String × β)} (hperm : ms.Perm ms')
    (hnodup : (ms.map Prod.fst).Nodup) :
    (ms.filter fun m => !named m).insertionSort indexLe =
      (ms'.filter fun m => !named m).insertionSort indexLe := by
  have hsorts : ((ms.filter fun m => !named m).insertionSort indexLe).Perm
      ((ms'.filter fun m => !named m).insertionSort indexLe) :=
    (List.perm_insertionSort _ _).trans ((hperm.filter _).trans (List.perm_insertionSort _ _).symm)
  refine hsorts.eq_of_pairwise ?_ (List.pairwise_insertionSort indexLe _)
    (List.pairwise_insertionSort indexLe _)
  intro a b ha hb hab hba
  have ha' := List.mem_filter.1 ((List.mem_insertionSort _).1 ha)
  have hb' := List.mem_filter.1 ((List.mem_insertionSort _).1 hb)
  have hle : (arrayIndex? a.1).getD 0 = (arrayIndex? b.1).getD 0 := le_antisymm hab hba
  cases hia : arrayIndex? a.1 with
  | none => simp [named, hia] at ha'
  | some n =>
    cases hib : arrayIndex? b.1 with
    | none => simp [named, hib] at hb'
    | some n' =>
      rw [hia, hib] at hle
      have hkey : a.1 = b.1 := arrayIndex?_injective hia (by rw [hib]; simpa using hle.symm)
      exact List.inj_on_of_nodup_map hnodup ha'.1 (hperm.mem_iff.2 hb'.1) hkey

/-- Members with distinct keys are enumerated alike if and only if those that are not
array indices stand alike. -/
lemma ownPropertyOrder_eq_iff {β : Type} {ms ms' : List (String × β)} (hperm : ms.Perm ms')
    (hnodup : (ms.map Prod.fst).Nodup) :
    ownPropertyOrder ms = ownPropertyOrder ms' ↔ ms.filter named = ms'.filter named := by
  constructor
  · intro h
    rw [← filter_named_ownPropertyOrder ms, h, filter_named_ownPropertyOrder]
  · intro h
    rw [ownPropertyOrder_eq, ownPropertyOrder_eq, h, insertionSort_indexLe_eq hperm hnodup]

/-- The members of an object sorted by `r` are enumerated as those of another
arrangement if and only if, array indices apart, both arrange ties alike. -/
lemma ownPropertyOrder_insertionSort_eq_iff {β : Type} (r : String × β → String × β → Prop)
    [DecidableRel r] [Std.Total r] [IsTrans (String × β) r] {ms ms' : List (String × β)}
    (hperm : ms.Perm ms') (hnodup : (ms.map Prod.fst).Nodup) :
    ownPropertyOrder (ms.insertionSort r) = ownPropertyOrder (ms'.insertionSort r) ↔
      ∀ a b, named a = true → named b = true → r a b → r b a → List.Sublist [a, b] ms →
        List.Sublist [a, b] ms' := by
  have hsorts : (ms.insertionSort r).Perm (ms'.insertionSort r) :=
    (List.perm_insertionSort r ms).trans (hperm.trans (List.perm_insertionSort r ms').symm)
  have hnodup' : ((ms.insertionSort r).map Prod.fst).Nodup :=
    (((List.perm_insertionSort r ms).map Prod.fst).nodup_iff).2 hnodup
  rw [ownPropertyOrder_eq_iff hsorts hnodup',
    filter_insertionSort_eq_iff_of_perm r named hperm hnodup.of_map]

/-! ### Objects -/

mutual

/-- Every object in the value has each of its keys once, as objects of the language
do. -/
def Json.Distinct : Json → Prop
  | .arr xs => Json.DistinctElems xs
  | .obj ms => (ms.map Prod.fst).Nodup ∧ Json.DistinctMembers ms
  | _ => True

/-- The elements of an array. -/
def Json.DistinctElems : List Json → Prop
  | [] => True
  | x :: xs => x.Distinct ∧ Json.DistinctElems xs

/-- The members of an object. -/
def Json.DistinctMembers : List (String × Json) → Prop
  | [] => True
  | (_, v) :: ms => v.Distinct ∧ Json.DistinctMembers ms

end

lemma Json.distinctMembers_iff {ms : List (String × Json)} :
    Json.DistinctMembers ms ↔ ∀ m ∈ ms, m.2.Distinct := by
  induction ms with
  | nil => simp [Json.DistinctMembers]
  | cons m ms ih =>
    obtain ⟨k, v⟩ := m
    simp [Json.DistinctMembers, ih]

/-- Property access on an object without repeated keys. -/
lemma Json.get?_eq_some_iff {ms : List (String × Json)} (hnodup : (ms.map Prod.fst).Nodup)
    {k : String} {v : Json} : (Json.obj ms).get? k = some v ↔ (k, v) ∈ ms := by
  simp only [Json.get?, Option.map_eq_some_iff]
  constructor
  · rintro ⟨m, hfind, rfl⟩
    have hmem := List.mem_of_find?_eq_some hfind
    have hkey : m.1 = k := by simpa using List.find?_some hfind
    rw [← hkey]
    simpa using hmem
  · intro hmem
    cases hfind : ms.reverse.find? fun m => m.1 = k with
    | none =>
      have := List.find?_eq_none.1 hfind (k, v) (by simpa using hmem)
      simp at this
    | some m =>
      have hm : m ∈ ms := by simpa using List.mem_of_find?_eq_some hfind
      have hkey : m.1 = k := by simpa using List.find?_some hfind
      have heq : m = (k, v) := List.inj_on_of_nodup_map hnodup hm hmem hkey
      exact ⟨m, rfl, by rw [heq]⟩

/-! ### Collation -/

/-- `String.prototype.localeCompare`, read as "not after": any total preorder. -/
structure Collation where
  le : String → String → Bool
  total : ∀ a b, le a b = true ∨ le b a = true
  trans : ∀ a b c, le a b = true → le b c = true → le a c = true

/-- The first string does not come after the second. -/
def Collation.rel (c : Collation) (a b : String) : Prop := c.le a b = true

instance (c : Collation) : DecidableRel c.rel := fun a b => inferInstanceAs (Decidable (c.le a b = true))

instance (c : Collation) : Std.Total c.rel := ⟨c.total⟩

instance (c : Collation) : IsTrans String c.rel := ⟨c.trans⟩

/-- `Array.prototype.sort` by `localeCompare`, which is stable. -/
def Collation.sort (c : Collation) (keys : List String) : List String := keys.insertionSort c.rel

lemma Collation.perm_sort (c : Collation) (keys : List String) : (c.sort keys).Perm keys :=
  List.perm_insertionSort c.rel keys

/-- Strings compared by their length only. -/
def Collation.byLength : Collation where
  le a b := a.length ≤ b.length
  total a b := by simpa using Nat.le_total a.length b.length
  trans a b c hab hbc := by simpa using le_trans (by simpa using hab) (by simpa using hbc)

end Js
