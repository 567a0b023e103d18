import ProjectVault.Audit.Digest

/-!
What the canonical text of a payload determines (`audit/write-entry.ts`).
-/

namespace ProjectVault.Audit

open Js

variable {ms ns : List (String × Json)}

/-- `JSON.stringify(sortKeys(value))`, the text `computeAuditHmac` hashes. -/
def auditText (env : AuditEnv) (value : Json) : String := stringify (sortKeys env value)

mutual

/-- The values that come from one another by reordering the keys of objects at any depth. -/
def KeyPerm : Json → Json → Prop
  | .arr xs, q => ∃ ys, q = .arr ys ∧ KeyPermElems xs ys
  | .obj ms, q => ∃ ns ns', q = .obj ns ∧ ns'.Perm ns ∧ KeyPermMembers ms ns'
  | p, q => q = p

/-- The elements of an array. -/
def KeyPermElems : List Json → List Json → Prop
  | [], ys => ys = []
  | x :: xs, ys => ∃ y ys', ys = y :: ys' ∧ KeyPerm x y ∧ KeyPermElems xs ys'

/-- The members of an object, under the same keys. -/
def KeyPermMembers : List (String × Json) → List (String × Json) → Prop
  | [], ns => ns = []
  | (k, v) :: ms, ns => ∃ w ns', ns = (k, w) :: ns' ∧ KeyPerm v w ∧ KeyPermMembers ms ns'

end

mutual

/-- No object of the value has two canonically equivalent keys; array indices are enumerated in
their own order and do not count. -/
def Untied (nfc : String → String) : Json → Prop
  | .arr xs => UntiedElems nfc xs
  | .obj ms =>
    (ms.Pairwise fun a b => named a = true → named b = true → nfc a.1 ≠ nfc b.1) ∧
      UntiedMembers nfc ms
  | _ => True

/-- The elements of an array. -/
def UntiedElems (nfc : String → String) : List Json → Prop
  | [] => True
  | x :: xs => Untied nfc x ∧ UntiedElems nfc xs

/-- The members of an object. -/
def UntiedMembers (nfc : String → String) : List (String × Json) → Prop
  | [] => True
  | (_, v) :: ms => Untied nfc v ∧ UntiedMembers nfc ms

end

variable {env : AuditEnv} {nfc : String → String}

/-! ### Reordered values -/

mutual

lemma KeyPerm.refl : ∀ p : Json, KeyPerm p p
  | .null => rfl
  | .bool _ => rfl
  | .num _ => rfl
  | .str _ => rfl
  | .arr xs => ⟨xs, rfl, KeyPermElems.refl xs⟩
  | .obj ms => ⟨ms, ms, rfl, .refl _, KeyPermMembers.refl ms⟩

lemma KeyPermElems.refl : ∀ xs : List Json, KeyPermElems xs xs
  | [] => rfl
  | x :: xs => ⟨x, xs, rfl, KeyPerm.refl x, KeyPermElems.refl xs⟩

lemma KeyPermMembers.refl : ∀ ms : List (String × Json), KeyPermMembers ms ms
  | [] => rfl
  | (_, v) :: ms => ⟨v, ms, rfl, KeyPerm.refl v, KeyPermMembers.refl ms⟩

end

lemma keyPermMembers_keys (h : KeyPermMembers ms ns) :
    ns.map Prod.fst = ms.map Prod.fst := by
  induction ms generalizing ns with
  | nil => rw [h]
  | cons m ms ih =>
    obtain ⟨w, ns', rfl, -, hrest⟩ := h
    rw [List.map_cons, List.map_cons, ih hrest]

/-! ### Payloads with one text -/

/-- Members that sort to the same list can be matched after a reordering. -/
lemma exists_perm_of_sorted_eq {f : Json → Json}
    (h : ownPropertyOrder ((ns.map fun m => (m.1, f m.2)).insertionSort env.keyLe) =
      ownPropertyOrder ((ms.map fun m => (m.1, f m.2)).insertionSort env.keyLe)) :
    ∃ ns' : List (String × Json), ns'.Perm ns ∧ (ns'.map fun m => (m.1, f m.2)) = ms.map fun m => (m.1, f m.2) := by
  have hperm : (ms.map fun m => (m.1, f m.2)).Perm (ns.map fun m => (m.1, f m.2)) :=
    (perm_sorted env.keyLe _).symm.trans ((List.Perm.of_eq h.symm).trans
      (perm_sorted env.keyLe _))
  have hcomp : Relation.Comp List.Perm (List.Forall₂ fun x m => x = (m.1, f m.2))
      (ms.map fun m => (m.1, f m.2)) ns :=
    ⟨_, hperm, List.forall₂_map_left_iff.2 (List.forall₂_same.2 fun _ _ => rfl)⟩
  rw [← List.forall₂_comp_perm_eq_perm_comp_forall₂] at hcomp
  obtain ⟨ns', hforall, hns⟩ := hcomp
  refine ⟨ns', hns, ?_⟩
  have heq : List.Forall₂ Eq (ms.map fun m => (m.1, f m.2)) (ns'.map fun m => (m.1, f m.2)) :=
    List.forall₂_map_right_iff.2 hforall
  rw [List.forall₂_eq_eq_eq] at heq
  exact heq.symm

mutual

/-- Values that sort alike differ in the order of keys only. -/
lemma keyPerm_of_sortKeys_eq : ∀ p q : Json, sortKeys env q = sortKeys env p → KeyPerm p q
  | .null, q, h => by cases q <;> simp_all [sortKeys, KeyPerm]
  | .bool _, q, h => by cases q <;> simp_all [sortKeys, KeyPerm]
  | .num _, q, h => by cases q <;> simp_all [sortKeys, KeyPerm]
  | .str _, q, h => by cases q <;> simp_all [sortKeys, KeyPerm]
  | .arr xs, q, h => by
    cases q with
    | arr ys => exact ⟨ys, rfl, keyPermElems_of_sortElems_eq xs ys (Json.arr.inj h)⟩
    | _ => simp [sortKeys] at h
  | .obj ms, q, h => by
    cases q with
    | obj ns =>
      have h' := Json.obj.inj h
      rw [sortMembers_eq_map, sortMembers_eq_map] at h'
      obtain ⟨ns', hperm, hmap⟩ := exists_perm_of_sorted_eq h'
      exact ⟨ns, ns', rfl, hperm, keyPermMembers_of_map_eq ms ns' hmap⟩
    | _ => simp [sortKeys] at h

lemma keyPermElems_of_sortElems_eq : ∀ xs ys : List Json,
    sortElems env ys = sortElems env xs → KeyPermElems xs ys
  | [], ys, h => by
    cases ys with
    | nil => rfl
    | cons y ys => simp [sortElems] at h
  | x :: xs, ys, h => by
    cases ys with
    | nil => simp [sortElems] at h
    | cons y ys =>
      rw [sortElems, sortElems, List.cons.injEq] at h
      exact ⟨y, ys, rfl, keyPerm_of_sortKeys_eq x y h.1,
        keyPermElems_of_sortElems_eq xs ys h.2⟩

lemma keyPermMembers_of_map_eq : ∀ ms ns : List (String × Json),
    (ns.map fun m => (m.1, sortKeys env m.2)) = (ms.map fun m => (m.1, sortKeys env m.2)) →
      KeyPermMembers ms ns
  | [], ns, h => List.map_eq_nil_iff.1 h
  | (k, v) :: ms, ns, h => by
    cases ns with
    | nil => simp at h
    | cons n ns =>
      obtain ⟨l, w⟩ := n
      rw [List.map_cons, List.map_cons, List.cons.injEq, Prod.mk.injEq] at h
      obtain ⟨⟨rfl, hvalue⟩, hrest⟩ := h
      exact ⟨w, ns, rfl, keyPerm_of_sortKeys_eq v w hvalue,
        keyPermMembers_of_map_eq ms ns hrest⟩

end

/-! ### Untied payloads -/

/-- Members without ties sort to one list whatever order they come in. -/
lemma sorted_eq_of_untied (hzero : ∀ a b, env.localeCompare a b = .eq ↔ nfc a = nfc b)
    (hnodup : (ms.map Prod.fst).Nodup) (hperm : ms.Perm ns)
    (huntied : ms.Pairwise fun a b => named a = true → named b = true → nfc a.1 ≠ nfc b.1) :
    ownPropertyOrder (ms.insertionSort env.keyLe) =
      ownPropertyOrder (ns.insertionSort env.keyLe) := by
  refine (ownPropertyOrder_insertionSort_eq_iff env.keyLe hperm hnodup).2 ?_
  intro a b ha hb hab hba hsub
  have htie := (hzero a.1 b.1).1 ((tie_iff env a b).1 ⟨hab, hba⟩)
  exact absurd htie (List.pairwise_iff_forall_sublist.1 huntied hsub ha hb)

mutual

/-- The order of the keys of an untied value does not matter. -/
lemma sortKeys_eq_of_keyPerm (hzero : ∀ a b, env.localeCompare a b = .eq ↔ nfc a = nfc b) :
    ∀ p q : Json, p.Distinct → Untied nfc p → KeyPerm p q → sortKeys env q = sortKeys env p
  | .null, q, _, _, h => congrArg (sortKeys env) h
  | .bool _, q, _, _, h => congrArg (sortKeys env) h
  | .num _, q, _, _, h => congrArg (sortKeys env) h
  | .str _, q, _, _, h => congrArg (sortKeys env) h
  | .arr xs, q, hdistinct, huntied, h => by
    obtain ⟨ys, rfl, helems⟩ := h
    exact congrArg Json.arr (sortElems_eq_of_keyPerm hzero xs ys hdistinct huntied helems)
  | .obj ms, q, hdistinct, huntied, h => by
    obtain ⟨ns, ns', rfl, hperm, hmembers⟩ := h
    have hmap := map_eq_of_keyPerm hzero ms ns' hdistinct.2 huntied.2 hmembers
    rw [sortKeys, sortKeys, sortMembers_eq_map, sortMembers_eq_map, Json.obj.injEq, eq_comm]
    refine sorted_eq_of_untied hzero ?_ (hmap ▸ hperm.map _) ?_
    · rw [List.map_map]
      exact hdistinct.1
    · exact List.pairwise_map.2 huntied.1

lemma sortElems_eq_of_keyPerm (hzero : ∀ a b, env.localeCompare a b = .eq ↔ nfc a = nfc b) :
    ∀ xs ys : List Json, Json.DistinctElems xs → UntiedElems nfc xs → KeyPermElems xs ys →
      sortElems env ys = sortElems env xs
  | [], _, _, _, h => congrArg (sortElems env) h
  | x :: xs, _, hdistinct, huntied, h => by
    obtain ⟨y, ys, rfl, hx, hxs⟩ := h
    rw [sortElems, sortElems, sortKeys_eq_of_keyPerm hzero x y hdistinct.1 huntied.1 hx,
      sortElems_eq_of_keyPerm hzero xs ys hdistinct.2 huntied.2 hxs]

lemma map_eq_of_keyPerm (hzero : ∀ a b, env.localeCompare a b = .eq ↔ nfc a = nfc b) :
    ∀ ms ns : List (String × Json), Json.DistinctMembers ms → UntiedMembers nfc ms →
      KeyPermMembers ms ns →
      (ns.map fun m => (m.1, sortKeys env m.2)) = ms.map fun m => (m.1, sortKeys env m.2)
  | [], _, _, _, h => congrArg (List.map _) h
  | (k, v) :: ms, _, hdistinct, huntied, h => by
    obtain ⟨w, ns, rfl, hv, hms⟩ := h
    rw [List.map_cons, List.map_cons,
      sortKeys_eq_of_keyPerm hzero v w hdistinct.1 huntied.1 hv,
      map_eq_of_keyPerm hzero ms ns hdistinct.2 huntied.2 hms]

end

/-! ### Ties -/

/-- Reversing the members moves two equivalent keys past each other. -/
lemma pairwise_of_sorted_reverse (hzero : ∀ a b, env.localeCompare a b = .eq ↔ nfc a = nfc b)
    (hnodup : (ms.map Prod.fst).Nodup) (h : ownPropertyOrder (ms.insertionSort env.keyLe) =
      ownPropertyOrder (ms.reverse.insertionSort env.keyLe)) :
    ms.Pairwise fun a b => named a = true → named b = true → nfc a.1 ≠ nfc b.1 := by
  rw [ownPropertyOrder_insertionSort_eq_iff env.keyLe ms.reverse_perm.symm hnodup] at h
  refine List.pairwise_iff_forall_sublist.2 fun {a b} hsub ha hb heq => ?_
  obtain ⟨hab, hba⟩ := (tie_iff env a b).2 ((hzero a.1 b.1).2 heq)
  have hswap : List.Sublist [b, a] ms := List.reverse_sublist.1 (h a b ha hb hab hba hsub)
  exact not_pair_sublist_swap hnodup.of_map hsub hswap

/-- A value of which every reordering sorts alike. -/
def Settles (env : AuditEnv) (p : Json) : Prop :=
  ∀ q, KeyPerm p q → sortKeys env q = sortKeys env p

/-- The members of an object whose reorderings all sort alike. -/
def SettlesMembers (env : AuditEnv) (ms : List (String × Json)) : Prop :=
  ∀ ns, KeyPermMembers ms ns →
    (ns.map fun m => (m.1, sortKeys env m.2)) = ms.map fun m => (m.1, sortKeys env m.2)

/-- Lists under the same distinct keys that sort to one list are equal. -/
lemma eq_of_sorted_eq (hnodup : (ms.map Prod.fst).Nodup) (hkeys : ns.map Prod.fst = ms.map Prod.fst)
    (h : ownPropertyOrder (ns.insertionSort env.keyLe) =
      ownPropertyOrder (ms.insertionSort env.keyLe)) : ns = ms := by
  have hperm : ns.Perm ms := (perm_sorted env.keyLe ns).symm.trans
    ((List.Perm.of_eq h).trans (perm_sorted env.keyLe ms))
  have hlength : ns.length = ms.length := hperm.length_eq
  refine List.ext_getElem hlength fun i hi hi' => ?_
  have hmem : ns[i] ∈ ms := hperm.subset (List.getElem_mem hi)
  have hkey : ns[i].1 = ms[i].1 := by
    have := List.getElem_of_eq hkeys (by simpa using hi)
    simpa using this
  exact List.inj_on_of_nodup_map hnodup hmem (List.getElem_mem hi') hkey

lemma Settles.members (hnodup : (ms.map Prod.fst).Nodup) (h : Settles env (.obj ms)) :
    SettlesMembers env ms := by
  intro ns hmembers
  have hsorted := Json.obj.inj (h (.obj ns) ⟨ns, ns, rfl, .refl _, hmembers⟩)
  rw [sortMembers_eq_map, sortMembers_eq_map] at hsorted
  refine eq_of_sorted_eq ?_ ?_ hsorted
  · rw [List.map_map]
    exact hnodup
  · rw [List.map_map, List.map_map]
    exact keyPermMembers_keys hmembers

lemma Settles.pairwise (hzero : ∀ a b, env.localeCompare a b = .eq ↔ nfc a = nfc b)
    (hnodup : (ms.map Prod.fst).Nodup) (h : Settles env (.obj ms)) :
    ms.Pairwise fun a b => named a = true → named b = true → nfc a.1 ≠ nfc b.1 := by
  have hsorted := Json.obj.inj (h (.obj ms.reverse)
    ⟨ms.reverse, ms, rfl, ms.reverse_perm.symm, KeyPermMembers.refl ms⟩)
  rw [sortMembers_eq_map, sortMembers_eq_map, List.map_reverse] at hsorted
  have hmapped := pairwise_of_sorted_reverse hzero
    (by rw [List.map_map]; exact hnodup) hsorted.symm
  exact List.pairwise_map.1 hmapped

mutual

/-- A value whose reorderings all sort alike is untied. -/
lemma untied_of_settles (hzero : ∀ a b, env.localeCompare a b = .eq ↔ nfc a = nfc b) :
    ∀ p : Json, p.Distinct → Settles env p → Untied nfc p
  | .null, _, _ => trivial
  | .bool _, _, _ => trivial
  | .num _, _, _ => trivial
  | .str _, _, _ => trivial
  | .arr xs, hdistinct, h => untiedElems_of_settles hzero xs hdistinct fun ys hys =>
    Json.arr.inj (h (.arr ys) ⟨ys, rfl, hys⟩)
  | .obj ms, hdistinct, h => ⟨h.pairwise hzero hdistinct.1,
      untiedMembers_of_settles hzero ms hdistinct.2 (h.members hdistinct.1)⟩

lemma untiedElems_of_settles (hzero : ∀ a b, env.localeCompare a b = .eq ↔ nfc a = nfc b) :
    ∀ xs : List Json, Json.DistinctElems xs →
      (∀ ys, KeyPermElems xs ys → sortElems env ys = sortElems env xs) → UntiedElems nfc xs
  | [], _, _ => trivial
  | x :: xs, hdistinct, h => by
    refine ⟨untied_of_settles hzero x hdistinct.1 fun q hq => ?_,
      untiedElems_of_settles hzero xs hdistinct.2 fun ys hys => ?_⟩
    · have := h (q :: xs) ⟨q, xs, rfl, hq, KeyPermElems.refl xs⟩
      rw [sortElems, sortElems, List.cons.injEq] at this
      exact this.1
    · have := h (x :: ys) ⟨x, ys, rfl, KeyPerm.refl x, hys⟩
      rw [sortElems, sortElems, List.cons.injEq] at this
      exact this.2

lemma untiedMembers_of_settles (hzero : ∀ a b, env.localeCompare a b = .eq ↔ nfc a = nfc b) :
    ∀ ms : List (String × Json), Json.DistinctMembers ms → SettlesMembers env ms →
      UntiedMembers nfc ms
  | [], _, _ => trivial
  | (k, v) :: ms, hdistinct, h => by
    refine ⟨untied_of_settles hzero v hdistinct.1 fun q hq => ?_,
      untiedMembers_of_settles hzero ms hdistinct.2 fun ns hns => ?_⟩
    · have := h ((k, q) :: ms) ⟨q, ms, rfl, hq, KeyPermMembers.refl ms⟩
      rw [List.map_cons, List.map_cons, List.cons.injEq, Prod.mk.injEq] at this
      exact this.1.2
    · have := h ((k, v) :: ns) ⟨v, ns, rfl, KeyPerm.refl v, hns⟩
      rw [List.map_cons, List.map_cons, List.cons.injEq] at this
      exact this.2

end

/-- **The canonical text**: where `localeCompare` returns 0 on canonically equivalent strings
only, the text of a payload is that of all its reorderings and of no other value if and only if
no object of it has two canonically equivalent keys. -/
theorem canonicalText_iff (hzero : ∀ a b, env.localeCompare a b = .eq ↔ nfc a = nfc b)
    {p : Json} (hdistinct : p.Distinct) :
    ((∀ q, KeyPerm p q → auditText env q = auditText env p) ∧
      ∀ q, auditText env q = auditText env p → KeyPerm p q) ↔ Untied nfc p := by
  constructor
  · rintro ⟨horder, -⟩
    exact untied_of_settles hzero p hdistinct fun q hq => stringify_injective (horder q hq)
  · intro huntied
    refine ⟨fun q hq => ?_, fun q hq => keyPerm_of_sortKeys_eq p q (stringify_injective hq)⟩
    rw [auditText, sortKeys_eq_of_keyPerm hzero p q hdistinct huntied hq, auditText]

section Samples

/-- Normalisation of the one decomposed letter the samples use. -/
def composeAcute (s : String) : String := if s = "e\u0301" then "\u00e9" else s

/-- An environment that compares texts after normalisation. -/
def composingEnv : AuditEnv where
  hmacSha256 := sizeMac
  jsonbText := stringify
  localeCompare a b := compare (composeAcute a) (composeAcute b)
  collation := inferInstanceAs (Std.TransCmp (compareOn composeAcute))
  keyVersion := plainEnv.keyVersion

lemma composingEnv_zero (a b : String) :
    composingEnv.localeCompare a b = .eq ↔ composeAcute a = composeAcute b := by
  show compare (composeAcute a) (composeAcute b) = .eq ↔ _
  exact Std.LawfulEqOrd.compare_eq_iff_eq

/-- An object with a composed and a decomposed key. -/
def tiedObject : List (String × Json) := [("\u00e9", .null), ("e\u0301", .bool true)]

/-- An object whose keys differ as texts and as sounds. -/
def untiedObject : List (String × Json) := [("\u00e9", .null), ("e", .obj [("b", .null), ("a", .null)])]

/-- The text of an untied payload is that of its reorderings and of nothing else. -/
theorem canonicalText_untied :
    (∀ q, KeyPerm (.obj untiedObject) q →
        auditText composingEnv q = auditText composingEnv (.obj untiedObject)) ∧
      ∀ q, auditText composingEnv q = auditText composingEnv (.obj untiedObject) →
        KeyPerm (.obj untiedObject) q :=
  (canonicalText_iff composingEnv_zero (by simp [untiedObject, Json.Distinct, Json.DistinctMembers])).2
    (by simp [untiedObject, Untied, UntiedMembers, composeAcute])

/-- Two equivalent keys keep the order they come in, so a reordered payload has another text. -/
theorem canonicalText_tied :
    (∀ a b, composingEnv.localeCompare a b = .eq ↔ composeAcute a = composeAcute b) ∧
      KeyPerm (.obj tiedObject) (.obj tiedObject.reverse) ∧
      auditText composingEnv (.obj tiedObject.reverse) ≠
        auditText composingEnv (.obj tiedObject) :=
  ⟨composingEnv_zero, ⟨_, tiedObject, rfl, tiedObject.reverse_perm.symm, KeyPermMembers.refl _⟩,
    by decide +kernel⟩

end Samples

end ProjectVault.Audit
