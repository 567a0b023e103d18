import ProjectVault.Js.Value
import ProjectVault.Js.Parse

/-!
The fingerprint of an audit event that an extension writes under a key
(`audit/extension-idempotency.ts`, `audit/extension-attribution.ts`).
-/

namespace ProjectVault.Audit

open Js

/-! ### Canonical JSON -/

/-- `items.join(',')`. -/
def joinCommas : List (List Char) → List Char
  | [] => []
  | [x] => x
  | x :: y :: xs => x ++ ',' :: joinCommas (y :: xs)

/-- An entry of an object: its key, quoted, and its text. -/
def entryText (e : String × List Char) : List Char := quote e.1 ++ ':' :: e.2

mutual

/-- `canonicalJson`, on characters. -/
def canonicalText : Value → List Char
  | .undefined => ['n', 'u', 'l', 'l']
  | .nonFinite => ['n', 'u', 'l', 'l']
  | .null => render .null
  | .bool b => render (.bool b)
  | .num n => render (.num n)
  | .str s => render (.str s)
  | .arr xs => '[' :: (joinCommas (canonicalItems xs) ++ [']'])
  | .obj ms =>
    '\x7b' ::
      (joinCommas (((canonicalEntries ms).insertionSort keyLe).map entryText) ++ ['\x7d'])

/-- The texts of the items of an array. -/
def canonicalItems : List Value → List (List Char)
  | [] => []
  | x :: xs => canonicalText x :: canonicalItems xs

/-- The entries of an object that are not `undefined`, each with its text; they are sorted by key
only, so it does not matter that the texts are made first. -/
def canonicalEntries : List (String × Value) → List (String × List Char)
  | [] => []
  | (k, v) :: ms =>
    if v.isUndefined then canonicalEntries ms else (k, canonicalText v) :: canonicalEntries ms

end

/-- `canonicalJson`. -/
def canonicalJson (value : Value) : String := String.ofList (canonicalText value)

lemma render_arr (xs : List Json) :
    render (.arr xs) = '[' :: (joinCommas (xs.map render) ++ [']']) := by
  cases xs with
  | nil => rfl
  | cons x xs =>
    rw [render]
    refine congrArg _ ?_
    induction xs generalizing x with
    | nil => simp [renderElems, joinCommas]
    | cons y ys ih =>
      rw [renderElems, ih y]
      simp [joinCommas]

lemma render_obj (ms : List (String × Json)) :
    render (.obj ms) =
      '\x7b' :: (joinCommas (ms.map fun m => entryText (m.1, render m.2)) ++ ['\x7d']) := by
  cases ms with
  | nil => rfl
  | cons m ms =>
    obtain ⟨k, v⟩ := m
    rw [render]
    refine congrArg _ ?_
    induction ms generalizing k v with
    | nil => simp [renderMembers, joinCommas, entryText]
    | cons n ns ih =>
      obtain ⟨l, w⟩ := n
      rw [renderMembers, ih l w]
      simp [joinCommas, entryText]

mutual

lemma canonicalText_eq : ∀ v : Value, canonicalText v = render (sortJson v.json)
  | .undefined => rfl
  | .nonFinite => rfl
  | .null => rfl
  | .bool _ => rfl
  | .num _ => rfl
  | .str _ => rfl
  | .arr xs => by
    rw [canonicalText, Value.json, sortJson, render_arr, canonicalItems_eq xs]
  | .obj ms => by
    have hsort := List.map_insertionSort keyLe keyLe
      (fun m : String × Json => (m.1, render m.2)) (sortJsonMembers (Value.jsonMembers ms))
      fun _ _ _ _ => Iff.rfl
    rw [canonicalText, Value.json, sortJson, render_obj, canonicalEntries_eq ms, ← hsort,
      List.map_map]
    rfl

lemma canonicalItems_eq : ∀ xs : List Value,
    canonicalItems xs = (sortJsonElems (Value.jsonElems xs)).map render
  | [] => rfl
  | x :: xs => by
    rw [canonicalItems, Value.jsonElems, sortJsonElems, List.map_cons, canonicalText_eq x,
      canonicalItems_eq xs]

lemma canonicalEntries_eq : ∀ ms : List (String × Value),
    canonicalEntries ms =
      (sortJsonMembers (Value.jsonMembers ms)).map fun m => (m.1, render m.2)
  | [] => rfl
  | (k, v) :: ms => by
    rw [canonicalEntries, Value.jsonMembers]
    split_ifs
    · exact canonicalEntries_eq ms
    · rw [sortJsonMembers, List.map_cons, canonicalText_eq v, canonicalEntries_eq ms]

end

/-- **Canonical texts are one exactly if the values are alike.** -/
theorem canonicalJson_eq_iff {v w : Value} (h : v.Distinct) :
    canonicalJson v = canonicalJson w ↔ v.json.Alike w.json := by
  have htext : ∀ u : Value, canonicalJson u = stringify (sortJson u.json) := by
    intro u
    rw [canonicalJson, canonicalText_eq, stringify]
  rw [htext, htext, stringify_injective.eq_iff, sortJson_eq_iff _ _ (v.distinct_json h)]

/-! ### Contents -/

/-- Who said when the event happened. -/
inductive OccurredAtSource where
  | delegationSigned | extension

/-- The actor of a delegation. -/
structure DelegationActor where
  provider : String
  subject : String
  userId : Option String
  attestation : String
  reason : Option String

/-- The assertion behind a delegation. -/
structure DelegatedBy where
  kid : String
  issuer : String
  assertionId : String

/-- `PvAttribution`: `resolveAttribution` makes one only if there is something to record. -/
structure PvAttribution where
  occurred : Option (String × OccurredAtSource)
  delegation : Option (DelegationActor × DelegatedBy)
  recorded : occurred ≠ none ∨ delegation ≠ none

/-- The effective time of an event. -/
def effectiveTime (attribution : Option PvAttribution) : Option String :=
  attribution.bind fun a => a.occurred.map Prod.fst

/-- The effective actor of an event. -/
def effectiveActor (attribution : Option PvAttribution) : Option (String × String) :=
  attribution.bind fun a => a.delegation.map fun d => (d.1.provider, d.1.subject)

/-- The member of `attributionFingerprintPart` for the time. -/
def occurredAtPart : Option String → List (String × Value)
  | none => []
  | some occurredAt => [("occurredAt", .str occurredAt)]

/-- The member of `attributionFingerprintPart` for the actor. -/
def actorPart : Option (String × String) → List (String × Value)
  | none => []
  | some (provider, subject) =>
    [("actor", .obj [("provider", .str provider), ("subject", .str subject)])]

/-- `attributionFingerprintPart`. -/
def attributionFingerprintPart (attribution : Option PvAttribution) : Value :=
  match attribution with
  | none => .undefined
  | some _ => .obj (occurredAtPart (effectiveTime attribution) ++ actorPart (effectiveActor attribution))

/-- A `Record<string, unknown>`. -/
structure ValueRecord where
  members : List (String × Value)
  distinct : (Value.obj members).Distinct

/-- `IdempotentAuditContent`. -/
structure IdempotentAuditContent where
  eventType : String
  resourceType : Option String
  resourceId : Option String
  projectId : Option String
  payload : ValueRecord
  attribution : Option PvAttribution

/-- A text that may be missing. -/
def optionalText : Option String → Value
  | none => .undefined
  | some s => .str s

/-- The members of the object that is fingerprinted. -/
def IdempotentAuditContent.members (content : IdempotentAuditContent) : List (String × Value) :=
  [("eventType", .str content.eventType), ("resourceType", optionalText content.resourceType),
   ("resourceId", optionalText content.resourceId), ("projectId", optionalText content.projectId),
   ("payload", .obj content.payload.members),
   ("attribution", attributionFingerprintPart content.attribution)]

/-- The text that is fingerprinted. -/
def contentText (content : IdempotentAuditContent) : String := canonicalJson (.obj content.members)

/-- `computeContentFingerprint`. -/
def computeContentFingerprint (sha256 : String → String) (content : IdempotentAuditContent) :
    String :=
  sha256 (contentText content)

/-- The contents record the same event: what the caller has said of it, the payload up to the
order of object keys and members that are `undefined`, its effective time and its actor. -/
structure SameContent (c d : IdempotentAuditContent) : Prop where
  eventType : c.eventType = d.eventType
  resourceType : c.resourceType = d.resourceType
  resourceId : c.resourceId = d.resourceId
  projectId : c.projectId = d.projectId
  payload : (Value.obj c.payload.members).json.Alike (Value.obj d.payload.members).json
  time : effectiveTime c.attribution = effectiveTime d.attribution
  actor : effectiveActor c.attribution = effectiveActor d.attribution

/-! ### Records -/

/-- Two members of one name: both are `undefined`, or they are alike. -/
def AlikeField (v w : Value) : Prop :=
  v.isUndefined = w.isUndefined ∧ (v.isUndefined = false → v.json.Alike w.json)

lemma mem_jsonMembers {ms : List (String × Value)} {k : String} {j : Json} :
    (k, j) ∈ Value.jsonMembers ms ↔ ∃ v, (k, v) ∈ ms ∧ v.isUndefined = false ∧ v.json = j := by
  induction ms with
  | nil => simp [Value.jsonMembers]
  | cons m ms ih =>
    obtain ⟨l, w⟩ := m
    rw [Value.jsonMembers]
    split_ifs with hw
    · rw [ih]
      constructor
      · rintro ⟨v, hv, hdefined⟩
        exact ⟨v, List.mem_cons_of_mem _ hv, hdefined⟩
      · rintro ⟨v, hv, hdefined, hjson⟩
        rcases List.mem_cons.1 hv with heq | hv
        · cases heq
          rw [hw] at hdefined
          cases hdefined
        · exact ⟨v, hv, hdefined, hjson⟩
    · rw [List.mem_cons, ih]
      constructor
      · rintro (heq | ⟨v, hv, hdefined⟩)
        · cases heq
          exact ⟨w, List.mem_cons_self, by simpa using hw, rfl⟩
        · exact ⟨v, List.mem_cons_of_mem _ hv, hdefined⟩
      · rintro ⟨v, hv, hdefined, hjson⟩
        rcases List.mem_cons.1 hv with heq | hv
        · cases heq
          exact .inl (by rw [hjson])
        · exact .inr ⟨v, hv, hdefined, hjson⟩

lemma alikeMembers_iff_forall {ms ns : List (String × Json)} :
    Json.AlikeMembers ms ns ↔ ∀ m ∈ ms, ∃ w, (m.1, w) ∈ ns ∧ m.2.Alike w := by
  induction ms with
  | nil => simp
  | cons m ms ih =>
    obtain ⟨k, v⟩ := m
    rw [Json.alikeMembers_cons, ih, List.forall_mem_cons]

/-- Objects that are alike have the same keys. -/
lemma keys_subset_of_alike {ms ns : List (String × Json)} (hms : (ms.map Prod.fst).Nodup)
    (h : (Json.obj ms).Alike (.obj ns)) : ns.map Prod.fst ⊆ ms.map Prod.fst := by
  obtain ⟨hlength, hmembers⟩ := h
  rw [alikeMembers_iff_forall] at hmembers
  have hsub : ms.map Prod.fst ⊆ ns.map Prod.fst := by
    intro k hk
    obtain ⟨m, hm, rfl⟩ := List.mem_map.1 hk
    obtain ⟨w, hw, -⟩ := hmembers m hm
    exact List.mem_map.2 ⟨(m.1, w), hw, rfl⟩
  exact ((hms.subperm hsub).perm_of_length_le (by simp [hlength])).symm.subset

section Records

variable {ms ns : List (String × Value)}

/-- Records that are alike agree at each of their fields. -/
lemma alikeField_of_alike (hms : (ms.map Prod.fst).Nodup) (hns : (ns.map Prod.fst).Nodup)
    (h : (Value.obj ms).json.Alike (Value.obj ns).json) {k : String} {v w : Value}
    (hv : (k, v) ∈ ms) (hw : (k, w) ∈ ns) : AlikeField v w := by
  rw [Value.json, Value.json] at h
  have hkeys := keys_subset_of_alike ((Value.jsonMembers_sublist ms).nodup hms) h
  obtain ⟨-, hmembers⟩ := h
  rw [alikeMembers_iff_forall] at hmembers
  have hfield : v.isUndefined = false → w.isUndefined = false ∧ v.json.Alike w.json := by
    intro hdefined
    obtain ⟨j, hj, halike⟩ := hmembers (k, v.json) (mem_jsonMembers.2 ⟨v, hv, hdefined, rfl⟩)
    obtain ⟨w', hw', hdefined', rfl⟩ := mem_jsonMembers.1 hj
    have heq := List.inj_on_of_nodup_map hns hw hw' rfl
    cases heq
    exact ⟨hdefined', halike⟩
  refine ⟨?_, fun hdefined => (hfield hdefined).2⟩
  cases hdefined : v.isUndefined with
  | false => exact (hfield hdefined).1.symm
  | true =>
    cases hdefined' : w.isUndefined with
    | true => rfl
    | false =>
      have hmem : k ∈ (Value.jsonMembers ns).map Prod.fst :=
        List.mem_map.2 ⟨(k, w.json), mem_jsonMembers.2 ⟨w, hw, hdefined', rfl⟩, rfl⟩
      obtain ⟨⟨k', j⟩, hj, rfl⟩ := List.mem_map.1 (hkeys hmem)
      obtain ⟨v', hv', hdefined', rfl⟩ := mem_jsonMembers.1 hj
      have heq := List.inj_on_of_nodup_map hms hv hv' rfl
      cases heq
      rw [hdefined] at hdefined'
      exact hdefined'

lemma exists_of_forall₂ {R : String × Value → String × Value → Prop} (h : List.Forall₂ R ms ns)
    {m : String × Value} (hm : m ∈ ms) : ∃ n ∈ ns, R m n := by
  induction h with
  | nil => simp at hm
  | cons hhead _ ih =>
    rcases List.mem_cons.1 hm with rfl | hm
    · exact ⟨_, List.mem_cons_self, hhead⟩
    · obtain ⟨n, hn, hr⟩ := ih hm
      exact ⟨n, List.mem_cons_of_mem _ hn, hr⟩

/-- Records that agree field by field are alike. -/
lemma alike_of_alikeField (h : List.Forall₂ (fun m n => m.1 = n.1 ∧ AlikeField m.2 n.2) ms ns) :
    (Value.obj ms).json.Alike (Value.obj ns).json := by
  rw [Value.json, Value.json, Json.Alike, alikeMembers_iff_forall]
  constructor
  · induction h with
    | nil => rfl
    | cons hhead _ ih =>
      obtain ⟨-, hundefined, -⟩ := hhead
      rw [Value.jsonMembers, Value.jsonMembers, hundefined]
      split_ifs
      · exact ih
      · rw [List.length_cons, List.length_cons, ih]
  · rintro ⟨k, j⟩ hj
    obtain ⟨v, hv, hdefined, rfl⟩ := mem_jsonMembers.1 hj
    obtain ⟨⟨k', w⟩, hw, rfl, hundefined, halike⟩ := exists_of_forall₂ h hv
    exact ⟨w.json, mem_jsonMembers.2 ⟨w, hw, hundefined.symm.trans hdefined, rfl⟩, halike hdefined⟩

end Records

/-! ### Contents that are the same -/

lemma alikeField_str {s t : String} : AlikeField (.str s) (.str t) ↔ s = t := by
  simp [AlikeField, Value.isUndefined, Value.json]

lemma alikeField_optionalText {s t : Option String} :
    AlikeField (optionalText s) (optionalText t) ↔ s = t := by
  cases s <;> cases t <;> simp [AlikeField, optionalText, Value.isUndefined, Value.json]

lemma alikeField_obj {ms ns : List (String × Value)} :
    AlikeField (.obj ms) (.obj ns) ↔ (Value.obj ms).json.Alike (Value.obj ns).json := by
  simp [AlikeField, Value.isUndefined]

lemma alike_attributionPart {t t' : Option String} {x x' : Option (String × String)} :
    (Value.obj (occurredAtPart t ++ actorPart x)).json.Alike
        (Value.obj (occurredAtPart t' ++ actorPart x')).json ↔ t = t' ∧ x = x' := by
  cases t <;> cases t' <;> cases x <;> cases x' <;>
    simp [occurredAtPart, actorPart, Value.json, Value.jsonMembers, Value.isUndefined, Prod.ext_iff]

lemma PvAttribution.effective_ne (a : PvAttribution) :
    ¬ (effectiveTime (some a) = none ∧ effectiveActor (some a) = none) := by
  rintro ⟨htime, hactor⟩
  simp only [effectiveTime, effectiveActor, Option.bind_some, Option.map_eq_none_iff] at htime hactor
  cases a.recorded with
  | inl htime' => exact htime' htime
  | inr hactor' => exact hactor' hactor

lemma alikeField_attributionFingerprintPart {a b : Option PvAttribution} :
    AlikeField (attributionFingerprintPart a) (attributionFingerprintPart b) ↔
      effectiveTime a = effectiveTime b ∧ effectiveActor a = effectiveActor b := by
  cases a with
  | none =>
    cases b with
    | none => simp [AlikeField, attributionFingerprintPart, Value.isUndefined]
    | some b =>
      have hnone := b.effective_ne
      simp only [AlikeField, attributionFingerprintPart, Value.isUndefined]
      constructor
      · rintro ⟨h, -⟩
        cases h
      · rintro ⟨htime, hactor⟩
        exact absurd ⟨htime.symm, hactor.symm⟩ hnone
  | some a =>
    cases b with
    | none =>
      simp only [AlikeField, attributionFingerprintPart, Value.isUndefined]
      constructor
      · rintro ⟨h, -⟩
        cases h
      · exact fun hnone => absurd hnone a.effective_ne
    | some b => exact alikeField_obj.trans alike_attributionPart

/-- What an attribution contributes has distinct keys. -/
lemma distinct_attributionFingerprintPart (a : Option PvAttribution) :
    (attributionFingerprintPart a).Distinct := by
  cases a with
  | none => trivial
  | some a =>
    rw [attributionFingerprintPart]
    generalize effectiveTime (some a) = t
    generalize effectiveActor (some a) = x
    cases t <;> cases x <;>
      simp [occurredAtPart, actorPart, Value.Distinct, Value.DistinctMembers]

/-- The object that is fingerprinted has distinct keys. -/
lemma IdempotentAuditContent.distinct_members (content : IdempotentAuditContent) :
    (Value.obj content.members).Distinct := by
  have htext : ∀ s : Option String, (optionalText s).Distinct := by
    intro s
    cases s <;> trivial
  refine ⟨?_, trivial, htext _, htext _, htext _, content.payload.distinct,
    distinct_attributionFingerprintPart _, trivial⟩
  simp [IdempotentAuditContent.members]

/-- **The canonical texts of two contents are one exactly if the contents are the same.** -/
theorem contentText_eq_iff {c d : IdempotentAuditContent} :
    contentText c = contentText d ↔ SameContent c d := by
  rw [contentText, contentText, canonicalJson_eq_iff c.distinct_members]
  constructor
  · intro h
    have hfield : ∀ (k : String) (f : IdempotentAuditContent → Value),
        (∀ e : IdempotentAuditContent, (k, f e) ∈ e.members) → AlikeField (f c) (f d) :=
      fun k f hmem =>
        alikeField_of_alike c.distinct_members.1 d.distinct_members.1 h (hmem c) (hmem d)
    obtain ⟨htime, hactor⟩ := alikeField_attributionFingerprintPart.1 (hfield "attribution"
      (fun e => attributionFingerprintPart e.attribution) fun e => by
        simp [IdempotentAuditContent.members])
    refine ⟨alikeField_str.1 (hfield "eventType" (fun e => .str e.eventType) fun e => ?_),
      alikeField_optionalText.1 (hfield "resourceType" (fun e => optionalText e.resourceType)
        fun e => ?_),
      alikeField_optionalText.1 (hfield "resourceId" (fun e => optionalText e.resourceId)
        fun e => ?_),
      alikeField_optionalText.1 (hfield "projectId" (fun e => optionalText e.projectId)
        fun e => ?_),
      alikeField_obj.1 (hfield "payload" (fun e => .obj e.payload.members) fun e => ?_),
      htime, hactor⟩
    all_goals simp [IdempotentAuditContent.members]
  · intro h
    refine alike_of_alikeField ?_
    unfold IdempotentAuditContent.members
    refine .cons ⟨rfl, alikeField_str.2 h.eventType⟩ (.cons ⟨rfl, alikeField_optionalText.2
      h.resourceType⟩ (.cons ⟨rfl, alikeField_optionalText.2 h.resourceId⟩ (.cons ⟨rfl,
      alikeField_optionalText.2 h.projectId⟩ (.cons ⟨rfl, alikeField_obj.2 h.payload⟩ (.cons ⟨rfl,
      alikeField_attributionFingerprintPart.2 ⟨h.time, h.actor⟩⟩ .nil)))))

end ProjectVault.Audit
