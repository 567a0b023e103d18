import ProjectVault.Js.Runtime

/-!
The cache file of the agent (`agent/src/cache-store.ts`).
-/

namespace Agent

open Js

variable {ε : Type}

/-- `CacheEntry`, over the envelopes `ε` of the cipher. -/
structure CacheEntry (ε : Type) where
  encryptedValue : ε
  versionNumber : Option Json
  cachedAt : ℕ
  ttlSeconds : ℕ

/-- `CacheFile`: the own properties of the object. -/
def CacheFile (ε : Type) : Type := String → Option (CacheEntry ε)

/-- The names every object answers to. -/
def objectPrototypeKeys : List String :=
  ["constructor", "__defineGetter__", "__defineSetter__", "hasOwnProperty", "__lookupGetter__",
    "__lookupSetter__", "isPrototypeOf", "propertyIsEnumerable", "toString", "valueOf", "__proto__",
    "toLocaleString"]

/-- What a property access on the file comes to. -/
inductive Lookup (ε : Type) where
  | missing
  | inherited
  | found (entry : CacheEntry ε)

/-- `getEntry`. -/
def getEntry (cache : CacheFile ε) (name : String) : Lookup ε :=
  match cache name with
  | some entry => .found entry
  | none => if name ∈ objectPrototypeKeys then .inherited else .missing

/-- `withEntry`. -/
def withEntry (cache : CacheFile ε) (name : String) (entry : CacheEntry ε) : CacheFile ε :=
  fun n => if n = name then some entry else cache n

/-- `withoutEntry`. -/
def withoutEntry (cache : CacheFile ε) (name : String) : CacheFile ε :=
  fun n => if n = name then none else cache n

/-- `DEFAULT_TTL_SECONDS`. -/
def defaultTtlSeconds : ℕ := 86400

/-- `buildCacheEntry`. -/
def buildCacheEntry (encryptedValue : ε) (versionNumber : Option Json) (now : ℕ) : CacheEntry ε :=
  ⟨encryptedValue, versionNumber, now, defaultTtlSeconds⟩

/-- `isEntryExpired`. -/
def isEntryExpired (entry : CacheEntry ε) (now : ℕ) : Bool :=
  now ≥ entry.cachedAt + entry.ttlSeconds * 1000

/-- What lies under the path of the cache. -/
inductive Disk (ε : Type) where
  | absent
  | unreadable
  | holds (cache : CacheFile ε)

/-- `readCacheFile`; nothing is `VaultCacheCorruptedError`. -/
def readCacheFile : Disk ε → Option (CacheFile ε)
  | .absent => some fun _ => none
  | .unreadable => none
  | .holds cache => some cache

/-- The entry that lies on the disk under a name. -/
def Disk.entry (disk : Disk ε) (name : String) : Option (CacheEntry ε) :=
  (readCacheFile disk).bind fun cache => cache name

/-- The file `refreshCache` writes back, if it writes one, on the file it has read. An answer that
is not cacheable has no entry. -/
def refreshed (cache : CacheFile ε) (name : String) :
    Option (CacheEntry ε) → Option (CacheFile ε)
  | none =>
    match getEntry cache name with
    | .missing => none
    | _ => some (withoutEntry cache name)
  | some entry => some (withEntry cache name entry)

/-! ### Entries -/

variable {cache : CacheFile ε} {name n : String} {entry : CacheEntry ε} {disk : Disk ε}

@[simp] lemma withEntry_self : withEntry cache name entry name = some entry := if_pos rfl

lemma withEntry_of_ne (h : n ≠ name) : withEntry cache name entry n = cache n := if_neg h

@[simp] lemma withoutEntry_self : withoutEntry cache name name = none := if_pos rfl

lemma withoutEntry_of_ne (h : n ≠ name) : withoutEntry cache name n = cache n := if_neg h

lemma entry_eq_some_iff :
    disk.entry name = some entry ↔ ∃ cache, disk = .holds cache ∧ cache name = some entry := by
  cases disk with
  | absent =>
    constructor
    · exact fun h => absurd h.symm (Option.some_ne_none entry)
    · rintro ⟨cache, h, -⟩
      exact absurd h (by simp)
  | unreadable => simp [Disk.entry, readCacheFile]
  | holds cache => simp [Disk.entry, readCacheFile]

lemma getEntry_eq_found_iff : getEntry cache name = .found entry ↔ cache name = some entry := by
  rw [getEntry]
  cases cache name with
  | none => split_ifs <;> simp
  | some e => simp

/-- What a live read writes under its own name: the new entry, or none. -/
lemma refreshed_self {cache' : CacheFile ε} {live : Option (CacheEntry ε)}
    (h : refreshed cache name live = some cache') : cache' name = live := by
  cases live with
  | none =>
    rw [refreshed] at h
    split at h
    · exact absurd h (by simp)
    · cases h
      exact withoutEntry_self
  | some entry =>
    cases h
    exact withEntry_self

/-- A live read leaves what it has read under the other names. -/
lemma refreshed_of_ne {cache' : CacheFile ε} {live : Option (CacheEntry ε)} (hn : n ≠ name)
    (h : refreshed cache name live = some cache') : cache' n = cache n := by
  cases live with
  | none =>
    rw [refreshed] at h
    split at h
    · exact absurd h (by simp)
    · cases h
      exact withoutEntry_of_ne hn
  | some entry =>
    cases h
    exact withEntry_of_ne hn

/-- A live read that writes nothing was not cacheable and found no entry. -/
lemma eq_none_of_refreshed {live : Option (CacheEntry ε)}
    (h : refreshed cache name live = none) : live = none ∧ cache name = none := by
  cases live with
  | none =>
    refine ⟨rfl, ?_⟩
    rw [refreshed] at h
    split at h
    case h_1 hmissing =>
        rw [getEntry] at hmissing
        split at hmissing
        · exact absurd hmissing (by simp)
        · assumption
    case h_2 => exact absurd h (by simp)
  | some entry => exact absurd h (by simp [refreshed])

end Agent
