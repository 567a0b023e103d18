import ProjectVault.Js.Runtime

/-!
The structured field sets of a secret (`credentials/field-set.ts`,
`credentials/totp-field.ts` and the key rules of
`shared/credential-templates.ts`).
-/

namespace ProjectVault

open Js

/-- The errors the service layer throws; a throw rolls the transaction back. -/
inductive VaultError where
  | fieldKeyConflict (conflictingKey : String)
  | legacyShapeFieldLoss
  | invalidTotpSeed (fieldKey : String)
  | totpSeedRequired (fieldKey : String)
  | importTargetMultiField
  | versionConflict
  | uniqueViolation
  | rotationConflict (rotationId : Option ℕ)
  | typeError
  | syntaxError
  | error (message : String)
  deriving DecidableEq

/-! ### Field keys and kinds -/

/-- `CREDENTIAL_TEMPLATES`. -/
inductive CredentialTemplate where
  | login | dbConnection | apiKey | secureNote | custom
  deriving DecidableEq

/-- `FIELD_KINDS`. -/
inductive FieldKind where
  | text | multiline | totp
  deriving DecidableEq

/-- The literal a kind is stored as. -/
def FieldKind.literal : FieldKind → String
  | .text => "text"
  | .multiline => "multiline"
  | .totp => "totp"

/-- One field of a secret, value included. -/
structure Field where
  key : String
  value : String
  sensitive : Bool
  kind : Option FieldKind
  deriving DecidableEq

/-- One entry of `credential_versions.field_meta`; values never appear. -/
structure FieldMeta where
  key : String
  sensitive : Bool
  template : Option CredentialTemplate
  kind : Option FieldKind
  deriving DecidableEq

/-- `DEFAULT_FIELD_KEY`. -/
def defaultFieldKey : String := "value"

/-- `normalizeFieldKey`: trim, NFC, lower case. -/
def normalizeFieldKey (rt : Runtime) (key : String) : String :=
  rt.toLowerCase (rt.nfc (trim key))

/-- `storedKind`: `text` is the default and is never written. -/
def storedKind : Option FieldKind → Option FieldKind
  | some .text => none
  | k => k

/-- A field as it is persisted. -/
def Field.stored (f : Field) : Field := { f with kind := storedKind f.kind }

/-- A `totp` field. -/
def Field.isTotp (f : Field) : Bool := f.kind = some .totp

/-- The body of a create or edit request: a field set, or the legacy single
value. -/
inductive FieldSetBody where
  | value (v : Option String)
  | fields (fs : List Field) (template : Option CredentialTemplate)

/-- `isFieldSetBody`. -/
def FieldSetBody.isFieldSet : FieldSetBody → Bool
  | .value _ => false
  | .fields _ _ => true

/-- `ResolvedFieldSet`. -/
structure ResolvedFieldSet where
  fields : List Field
  template : Option CredentialTemplate

/-! ### Write-side checks -/

/-- `assertLegacyShapeSafe`: the legacy shape may not collapse a secret that
already has other fields. -/
def assertLegacyShapeSafe (isLegacyBody : Bool) (currentKeys : List String) :
    Except VaultError Unit :=
  if isLegacyBody = false then .ok ()
  else if currentKeys.length > 1 ∨
      (currentKeys.head? ≠ none ∧ currentKeys.head? ≠ some defaultFieldKey) then
    .error .legacyShapeFieldLoss
  else .ok ()

/-- `assertUniqueFieldKeys`, with the normalised keys seen so far. -/
def assertUniqueFieldKeysFrom (rt : Runtime) : List String → List Field → Except VaultError Unit
  | _, [] => .ok ()
  | seen, f :: fs =>
    if normalizeFieldKey rt f.key ∈ seen then .error (.fieldKeyConflict f.key)
    else assertUniqueFieldKeysFrom rt (normalizeFieldKey rt f.key :: seen) fs

/-- `assertUniqueFieldKeys`. -/
def assertUniqueFieldKeys (rt : Runtime) (fs : List Field) : Except VaultError Unit :=
  assertUniqueFieldKeysFrom rt [] fs

/-- The characters `parseBase32` keeps: blanks and dashes are dropped, then a
run of `=` at the end, and the rest is upper-cased. -/
def base32Chars (rt : Runtime) (text : String) : List Char :=
  let kept := text.toList.filter fun c => !(isTrimmable c || c == '-')
  (rt.toUpperCase (String.ofList (kept.reverse.dropWhile (· == '=')).reverse)).toList

/-- `parseBase32`: between 16 and 256 characters of the Base32 alphabet. -/
def parseBase32 (rt : Runtime) (text : String) : Bool :=
  let cs := base32Chars rt text
  16 ≤ cs.length && cs.length ≤ 256 &&
    cs.all fun c => ('A' ≤ c && c ≤ 'Z') || ('2' ≤ c && c ≤ '7')

/-- `parseTotpSeed`, read as whether it yields a generator. -/
def parseTotpSeed (rt : Runtime) (raw : String) : Bool :=
  let text := trim raw
  if Js.length text = 0 ∨ Js.length text > 2048 then false
  else if "otpauth://".toList.isPrefixOf (rt.toLowerCase text).toList then rt.otpAuthUri text
  else parseBase32 rt text

/-- `assertValidTotpSeeds`. -/
def assertValidTotpSeeds (rt : Runtime) : List Field → Except VaultError Unit
  | [] => .ok ()
  | f :: fs =>
    if f.isTotp = true ∧ parseTotpSeed rt f.value = false then .error (.invalidTotpSeed f.key)
    else assertValidTotpSeeds rt fs

/-- `keptTotpSeed`: the stored seed an empty submitted one stands for. -/
def keptTotpSeed (rt : Runtime) (name : String) (previousFields : Option (List Field)) :
    Except VaultError String :=
  match (previousFields.getD []).find? fun f =>
      f.isTotp && normalizeFieldKey rt f.key == normalizeFieldKey rt name with
  | none => .error (.totpSeedRequired name)
  | some previous =>
    if previous.value = "" then .error (.totpSeedRequired name) else .ok previous.value

/-- One submitted field as it is persisted: a `totp` field is sensitive and an
empty seed keeps the stored one. -/
def resolveField (rt : Runtime) (previousFields : Option (List Field)) (item : Field) :
    Except VaultError Field := do
  let value ← if item.isTotp = true ∧ item.value = "" then
    keptTotpSeed rt item.key previousFields else .ok item.value
  return { key := item.key, value, sensitive := if item.isTotp then true else item.sensitive,
           kind := storedKind item.kind }

/-- `resolveFieldSet`. -/
def resolveFieldSet (rt : Runtime) (body : FieldSetBody) (previousFields : Option (List Field)) :
    Except VaultError ResolvedFieldSet :=
  match body with
  | .fields fs template => do
      assertUniqueFieldKeys rt fs
      let fields ← fs.mapM (resolveField rt previousFields)
      assertValidTotpSeeds rt fields
      return { fields, template }
  | .value v =>
    .ok { fields := [{ key := defaultFieldKey, value := v.getD "", sensitive := true,
                       kind := none }],
          template := none }

/-- `buildFieldMeta`. -/
def buildFieldMeta (resolved : ResolvedFieldSet) : List FieldMeta :=
  resolved.fields.map fun f =>
    { key := f.key, sensitive := f.sensitive, template := resolved.template,
      kind := storedKind f.kind }

/-! ### The envelope -/

/-- The JSON object of one field. -/
def envelopeField (f : Field) : Json :=
  .obj ([("key", .str f.key), ("value", .str f.value), ("sensitive", .bool f.sensitive)] ++
    match storedKind f.kind with
    | some k => [("kind", .str k.literal)]
    | none => [])

/-- `serializeFieldEnvelope`. -/
def serializeFieldEnvelope (fields : List Field) : String :=
  stringify (.arr (fields.map envelopeField))

/-- `parseKind`. -/
def parseKind : Option Json → Option FieldKind
  | some (.str s) =>
    if s = "text" then some .text else if s = "multiline" then some .multiline
    else if s = "totp" then some .totp else none
  | _ => none

/-- One element of a parsed envelope. -/
def parseEnvelopeField : Json → Except VaultError Field
  | .null => .error .typeError
  | raw => .ok
      { key := ((raw.get? "key").map Json.toText).getD "undefined"
        value := match raw.get? "value" with
          | some (.str s) => s
          | _ => ""
        sensitive := Json.truthy (raw.get? "sensitive")
        kind := storedKind (parseKind (raw.get? "kind")) }

/-- `parseEnvelope`. -/
def parseEnvelope (plaintext : String) : Except VaultError (List Field) :=
  match parse plaintext with
  | none => .error .syntaxError
  | some (.arr raws) => raws.mapM parseEnvelopeField
  | some _ => .error (.error "Field envelope is not a JSON array")

/-- `parseFieldsFromPlaintext`. -/
def parseFieldsFromPlaintext (schemaVersion : ℕ) (plaintext : String) :
    Except VaultError (List Field) :=
  if schemaVersion < 2 then
    .ok [{ key := defaultFieldKey, value := plaintext, sensitive := true, kind := none }]
  else parseEnvelope plaintext

/-- `unwrapRevealValue`. -/
def unwrapRevealValue (schemaVersion : ℕ) (plaintext : String) : Except VaultError String :=
  if schemaVersion < 2 then .ok plaintext
  else do
    let fields ← parseEnvelope plaintext
    match fields with
    | [f] => return f.value
    | _ => return plaintext

/-- `fieldMetaForResponse`. -/
def fieldMetaForResponse (schemaVersion : ℕ) (fieldMeta : Option (List FieldMeta)) :
    List FieldMeta :=
  match fieldMeta with
  | some ms =>
    if schemaVersion ≥ 2 then ms
    else [{ key := defaultFieldKey, sensitive := true, template := none, kind := none }]
  | none => [{ key := defaultFieldKey, sensitive := true, template := none, kind := none }]

/-- `withoutTotpFields`: seeds are write-only. -/
def withoutTotpFields (fields : List Field) : List Field := fields.filter fun f => !f.isTotp

/-- `plaintextWithoutTotpSeeds`. -/
def plaintextWithoutTotpSeeds (schemaVersion : ℕ) (plaintext : String) :
    Except VaultError String :=
  if schemaVersion < 2 then .ok plaintext
  else do
    let fields ← parseEnvelope plaintext
    if fields.any Field.isTotp then
      return serializeFieldEnvelope
        (fields.map fun f => if f.isTotp then { f with value := "" } else f)
    else return plaintext

/-! ### Round trip of the envelope -/

@[simp] lemma storedKind_storedKind (k : Option FieldKind) :
    storedKind (storedKind k) = storedKind k := by
  rcases k with _ | k
  · rfl
  · cases k <;> rfl

@[simp] lemma Field.stored_stored (f : Field) : f.stored.stored = f.stored := by
  simp [Field.stored]

@[simp] lemma Field.isTotp_stored (f : Field) : f.stored.isTotp = f.isTotp := by
  obtain ⟨key, value, sensitive, kind⟩ := f
  rcases kind with _ | k
  · rfl
  · cases k <;> rfl

lemma parseEnvelopeField_envelopeField (f : Field) :
    parseEnvelopeField (envelopeField f) = .ok f.stored := by
  obtain ⟨key, value, sensitive, kind⟩ := f
  rcases kind with _ | k
  · simp [envelopeField, storedKind, parseEnvelopeField, Json.get?, Json.toText, Json.truthy,
      Field.stored, parseKind]
  · cases k <;>
      simp [envelopeField, storedKind, parseEnvelopeField, Json.get?, Json.toText, Json.truthy,
        Field.stored, parseKind, FieldKind.literal]

lemma mapM_parseEnvelopeField (fields : List Field) :
    (fields.map envelopeField).mapM parseEnvelopeField = .ok (fields.map Field.stored) := by
  induction fields with
  | nil => rfl
  | cons f fs ih =>
    rw [List.map_cons, List.mapM_cons, parseEnvelopeField_envelopeField, ih]
    rfl

/-- What `serializeFieldEnvelope` writes, `parseEnvelope` reads back, the
default kind having been dropped. -/
theorem parseEnvelope_serializeFieldEnvelope (fields : List Field) :
    parseEnvelope (serializeFieldEnvelope fields) = .ok (fields.map Field.stored) := by
  rw [parseEnvelope, serializeFieldEnvelope, parse_stringify]
  exact mapM_parseEnvelopeField fields

end ProjectVault
