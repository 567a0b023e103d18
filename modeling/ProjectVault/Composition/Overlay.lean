import ProjectVault.Composition.Paths

/-!
The overlay of a UI pack on the files of web-host (`composition-kit/src/overlay.ts`).
-/

namespace Composition

open Js

/-! ### Inputs -/

/-- `OWNED_DIRECTORIES`. -/
def ownedDirectories : List String :=
  ["src", "static", "messages", "project.inlang", "inlang-plugins", "vendor"]

/-- `Host`: the files `loadHost` reads, all of them under an owned directory. -/
structure Host where
  pvRelease : String
  files : Map String
  owned : ∀ path ∈ files.keys, ∃ directory ∈ ownedDirectories, startsWith path (directory ++ "/")

/-- `Pack`. -/
structure Pack where
  files : Map String

/-- `RouteOverride`. -/
structure RouteOverride where
  path : String
  hostSha256 : String
  story : Option String

/-- `Replacement`; its field `with` is `withRel`. -/
structure Replacement where
  withRel : String
  hostSha256 : String
  story : Option String

/-- The part of `UiPackManifest` the overlay reads. -/
structure UiPackManifest where
  pvRelease : String
  overrides : List RouteOverride
  remove : List String
  replacements : Map Replacement

/-- A hash `AcceptedState` holds. -/
structure AcceptedHash where
  hostSha256 : String
  hostVersion : String

/-- `AcceptedState`. -/
structure AcceptedState where
  overrides : Map AcceptedHash
  replacements : Map AcceptedHash

/-- `OverlayInput`, with the SHA-256 that `treeDigest` takes of its lines. -/
structure OverlayInput where
  host : Host
  pack : Pack
  manifest : UiPackManifest
  accepted : AcceptedState
  hash : String → String
  sha256Hex : String → String
  previousRemovalFiles : Option (Map (List String))

/-! ### Results -/

/-- `FileSource`, of which the overlay makes files only. -/
inductive FileSource where
  | file (abs : String)

/-- `OverrideRecord`. -/
structure OverrideRecord where
  path : String
  hostSha256 : String
  cmSha256 : String
  story : Option String
  hostVersion : String

/-- `AdditionRecord`. -/
structure AdditionRecord where
  path : String
  cmSha256 : String

/-- `RemovalRecord`. -/
structure RemovalRecord where
  path : String
  matched : ℕ
  hostSha256 : Option String
  hostVersion : String
  files : List String

/-- `ReplacementRecord`. -/
structure ReplacementRecord where
  target : String
  withRel : String
  hostSha256 : String
  cmSha256 : String
  story : Option String
  hostVersion : String
  hostPath : String

/-- The kinds of drift. -/
inductive DriftKind where
  | override | replacement

/-- `DriftItem`. -/
structure DriftItem where
  kind : DriftKind
  key : String
  hostPath : String
  story : Option String
  accepted : String
  acceptedAt : String
  actual : String
  hostAbs : String
  cmAbs : String

/-- `OverlayResult`. -/
structure OverlayResult where
  files : Map FileSource
  overrides : List OverrideRecord
  additions : List AdditionRecord
  removals : List RemovalRecord
  replacements : List ReplacementRecord
  drift : List DriftItem
  problems : List String
  notes : List String
  changedHostPaths : List String

/-! ### Removals -/

/-- `RESERVED`. -/
def reserved : List String := ["src/lib/_cm/", "src/lib/server/_cm/"]

/-- `isOverlayPath`. -/
def isOverlayPath (rel : String) : Bool := startsWith rel "src/" || startsWith rel "static/"

/-- `matchRemoval`; an error is the problem it returns instead. -/
def matchRemoval (entry : String) (hostPaths : List String) : Except String (List String) :=
  if startsWith entry "/" then
    let start := "src/routes" ++ stripTrailingSlashes entry ++ "/"
    .ok (hostPaths.filter fun path => startsWith path start)
  else if startsWith entry "src/" || startsWith entry "static/" then
    let start := stripTrailingSlashes entry ++ "/"
    .ok (hostPaths.filter fun path => path == entry || startsWith path start)
  else .error ("routes.remove \"" ++ entry ++ "\" is neither a route id (it starts with \"/\") " ++
    "nor a file path (it starts with \"src/\" or \"static/\")")

/-- `Removal`. -/
structure Removal where
  record : RemovalRecord
  paths : List String

/-- `treeDigest`. -/
def treeDigest (sha256Hex : String → String) (entries : List (String × String)) : String :=
  sha256Hex ("\n".intercalate (sortedCodeUnits (entries.map fun e => e.1 ++ ":" ++ e.2)))

/-- `removalDigest`. -/
def removalDigest (entry : String) (files : List String) (input : OverlayInput) : Option String :=
  let hashes := files.map fun path => (path, input.hash ((input.host.files.get? path).getD ""))
  match hashes with
  | [] => none
  | first :: _ =>
    if files.length = 1 ∧ files.head? = some entry then some first.2
    else some (treeDigest input.sha256Hex hashes)

/-- `planRemoval`, with the note it adds. -/
def planRemoval (entry : String) (files : List String) (input : OverlayInput) :
    Removal × List String :=
  let gained := match (input.previousRemovalFiles.bind fun m => m.get? entry) with
    | none => false
    | some previous => files.any fun path => !previous.contains path
  (⟨⟨entry, files.length, removalDigest entry files input, input.host.pvRelease, files⟩, files⟩,
    if gained then
      ["removed route id or path " ++ entry ++ " gained a file in web-host (it is removed too)"]
    else [])

/-- What `planRemovals` finds: the removals, the problems and the notes. -/
structure Removals where
  removals : List Removal
  problems : List String
  notes : List String

/-- One entry of `planRemovals`. -/
def planRemovalEntry (input : OverlayInput) (out : Removals) (entry : String) : Removals :=
  match matchRemoval entry input.host.files.keys with
  | .error problem => { out with problems := out.problems ++ [problem] }
  | .ok matched =>
    let (removal, notes) := planRemoval entry (sortedCodeUnits matched) input
    { out with removals := out.removals ++ [removal], notes := out.notes ++ notes }

/-- `planRemovals`. -/
def planRemovals (input : OverlayInput) : Removals :=
  input.manifest.remove.foldl (planRemovalEntry input) ⟨[], [], []⟩

/-- The entry of a removal covers the path. -/
def liesUnder (entry path : String) : Bool :=
  let start :=
    if startsWith entry "/" then "src/routes" ++ stripTrailingSlashes entry ++ "/"
    else stripTrailingSlashes entry ++ "/"
  path == entry || startsWith path start

/-- `underRemoved`. -/
def underRemoved (path : String) (removals : List Removal) : Option String :=
  (removals.find? fun removal => liesUnder removal.record.path path).map (·.record.path)

/-! ### The pack -/

/-- `packOverlay`. -/
def packOverlay (pack : Pack) : List String := sortedCodeUnits (pack.files.keys.filter isOverlayPath)

/-- `reservedProblems`. -/
def reservedProblems (hostPaths packPaths : List String) : List String :=
  [("web-host", hostPaths), ("the UI pack", packPaths)].flatMap fun labelled =>
    (labelled.2.filter fun path => reserved.any fun start => startsWith path start).map fun path =>
      "Reserved namespace: " ++ path ++
        " is under src/lib/_cm or src/lib/server/_cm, which the composer owns (found in " ++
        labelled.1 ++ ")."

/-- `declaredOverrides`, the later declaration of a path winning. -/
def declaredOverrides (manifest : UiPackManifest) : Map RouteOverride :=
  Map.ofList (manifest.overrides.map fun entry => (entry.path, entry))

/-- `declarationProblems`. -/
def declarationProblems (declared : Map RouteOverride) (packPaths : List String)
    (hostFiles : Map String) : List String :=
  declared.keys.flatMap fun path =>
    if !packPaths.contains path then
      ["Override declared for " ++ path ++ " but the UI pack has no such file (check the path)."]
    else if hostFiles.has path then []
    else ["Override declared for " ++ path ++ " but web-host has no such file (PV removed it, or " ++
      "the path is mistyped); remove the declaration to make it an addition, or keep it as a new " ++
      "file."]

/-- `planCollision`. -/
def planCollision (path hostAbs : String) (declaration : Option RouteOverride)
    (input : OverlayInput) (out : OverlayResult) : OverlayResult :=
  let cmAbs := (input.pack.files.get? path).getD ""
  let actual := input.hash hostAbs
  match declaration with
  | none =>
    { out with problems := out.problems ++
        ["Collision: " ++ path ++ " exists in web-host (sha256 " ++ actual ++
          ") but is not declared in routes.overrides. Declare it with hostSha256 \"" ++ actual ++
          "\" to override it."] }
  | some declaration =>
    let state := input.accepted.overrides.get? path
    let accepted := (state.map (·.hostSha256)).getD declaration.hostSha256
    let acceptedAt := (state.map (·.hostVersion)).getD input.manifest.pvRelease
    { out with
      overrides := out.overrides ++
        [⟨path, accepted, input.hash cmAbs, declaration.story, acceptedAt⟩]
      drift := out.drift ++
        if accepted ≠ actual then
          [⟨.override, path, path, declaration.story, accepted, acceptedAt, actual, hostAbs, cmAbs⟩]
        else []
      files := out.files.set path (.file cmAbs)
      changedHostPaths := out.changedHostPaths ++ [path] }

/-- One path of `planOverrides`. -/
def planOverride (input : OverlayInput) (declared : Map RouteOverride) (out : OverlayResult)
    (path : String) : OverlayResult :=
  match input.host.files.get? path with
  | some hostAbs => planCollision path hostAbs (declared.get? path) input out
  | none =>
    let cmAbs := (input.pack.files.get? path).getD ""
    { out with
      additions := out.additions ++ [⟨path, input.hash cmAbs⟩]
      files := out.files.set path (.file cmAbs) }

/-- `planOverrides`. -/
def planOverrides (input : OverlayInput) (packPaths : List String) (out : OverlayResult) :
    OverlayResult :=
  let declared := declaredOverrides input.manifest
  packPaths.foldl (planOverride input declared)
    { out with problems := out.problems ++ declarationProblems declared packPaths input.host.files }

/-! ### Replacements -/

/-- `tsSpelling`. -/
def tsSpelling (base : String) : List String :=
  match [(".js", ".ts"), (".jsx", ".tsx"), (".mjs", ".mts")].find? fun e => endsWith base e.1 with
  | some (js, ts) => [String.ofList (base.toList.take (base.toList.length - js.toList.length)) ++ ts]
  | none => []

/-- `resolveLibTarget`. -/
def resolveLibTarget (target : String) (hostPaths : List String) : List String :=
  let base := "src/lib/" ++ String.ofList (target.toList.drop "$lib/".toList.length)
  let candidates :=
    ["", ".svelte", ".ts", ".js"].map (base ++ ·) ++ tsSpelling base ++
      ["/index.svelte", "/index.ts", "/index.js"].map (base ++ ·)
  candidates.eraseDups.filter fun candidate => hostPaths.contains candidate

/-- `replacementTarget`; an error is the problem found. -/
def replacementTarget (input : OverlayInput) (target : String) : Except String String :=
  if !startsWith target "$lib/" then
    .error ("Replacement target " ++ target ++ " must start with \"$lib/\".")
  else
    match resolveLibTarget target input.host.files.keys with
    | [] => .error ("Replacement target " ++ target ++
        " does not exist in web-host (no matching file under src/lib).")
    | [hostPath] => .ok hostPath
    | candidates => .error ("Replacement target " ++ target ++ " is ambiguous in web-host: " ++
        ", ".intercalate candidates ++ ".")

/-- `replacementConflict`. -/
def replacementConflict (target hostPath : String) (input : OverlayInput)
    (removals : List Removal) : Option String :=
  if input.manifest.overrides.any fun entry => entry.path == hostPath then
    some ("Conflict: " ++ hostPath ++
      " is both overlaid (routes.overrides) and replaced (replacements " ++ target ++
      "). Choose one.")
  else
    (underRemoved hostPath removals).map fun removed =>
      "Conflict: " ++ hostPath ++ " is both replaced (replacements " ++ target ++
        ") and removed (routes.remove " ++ removed ++ ")."

/-- `planReplacement`. -/
def planReplacement (target : String) (entry : Replacement) (hostPath withRel : String)
    (input : OverlayInput) (out : OverlayResult) : OverlayResult :=
  let hostAbs := (input.host.files.get? hostPath).getD ""
  let withAbs := (input.pack.files.get? withRel).getD ""
  let state := input.accepted.replacements.get? target
  let accepted := (state.map (·.hostSha256)).getD entry.hostSha256
  let acceptedAt := (state.map (·.hostVersion)).getD input.manifest.pvRelease
  let actual := input.hash hostAbs
  { out with
    replacements := out.replacements ++
      [⟨target, withRel, accepted, input.hash withAbs, entry.story, acceptedAt, hostPath⟩]
    drift := out.drift ++
      if accepted ≠ actual then
        [⟨.replacement, target, hostPath, entry.story, accepted, acceptedAt, actual, hostAbs, withAbs⟩]
      else [] }

/-- One target of `planReplacements`, with the targets that have claimed a host path. -/
def planReplacementEntry (input : OverlayInput) (removals : List Removal)
    (state : Map String × OverlayResult) (e : String × Replacement) : Map String × OverlayResult :=
  let (claimedBy, out) := state
  let (target, entry) := e
  match replacementTarget input target with
  | .error problem => (claimedBy, { out with problems := out.problems ++ [problem] })
  | .ok hostPath =>
    match normalizePackPath entry.withRel with
    | none => (claimedBy, out)
    | some withRel =>
      if !input.pack.files.has withRel then (claimedBy, out)
      else
        match claimedBy.get? hostPath with
        | some first =>
          (claimedBy, { out with problems := out.problems ++
            ["Conflict: " ++ hostPath ++ " is replaced twice (replacements " ++ first ++
              " and " ++ target ++ "). Choose one."] })
        | none =>
          let claimedBy := claimedBy.set hostPath target
          match replacementConflict target hostPath input removals with
          | none => (claimedBy, planReplacement target entry hostPath withRel input out)
          | some conflict => (claimedBy, { out with problems := out.problems ++ [conflict] })

/-- `planReplacements`. -/
def planReplacements (input : OverlayInput) (removals : List Removal) (out : OverlayResult) :
    OverlayResult :=
  (input.manifest.replacements.entries.foldl (planReplacementEntry input removals)
    (Map.empty, out)).2

/-! ### The plan -/

/-- `contradictionProblems`. -/
def contradictionProblems (packPaths declared : List String) (removals : List Removal) :
    List String :=
  (sortedCodeUnits (packPaths ++ declared).eraseDups).filterMap fun path =>
    (underRemoved path removals).map fun removed =>
      "Contradiction: " ++ path ++
        " is in the UI pack (or declared in routes.overrides) but routes.remove \"" ++ removed ++
        "\" removes it. Choose one."

/-- The paths of a removal leave the composed file set. -/
def applyRemoval (out : OverlayResult) (removal : Removal) : OverlayResult :=
  { out with
    removals := out.removals ++ [removal.record]
    files := removal.paths.foldl Map.delete out.files
    changedHostPaths := out.changedHostPaths ++ removal.paths }

/-- The problems `planOverlay` has found before it applies anything. -/
def planProblems (rt : Runtime) (input : OverlayInput) : List String :=
  let packPaths := packOverlay input.pack
  reservedProblems input.host.files.keys packPaths ++
    (findCaseCollisions rt packPaths).map (fun group =>
      "Case collision: " ++ " and ".intercalate group ++ " differ only by case.") ++
    (planRemovals input).problems ++
    contradictionProblems packPaths (input.manifest.overrides.map (·.path)).eraseDups
      (planRemovals input).removals

/-- `planOverlay`. -/
def planOverlay (rt : Runtime) (input : OverlayInput) : OverlayResult :=
  let packPaths := packOverlay input.pack
  let planned := planRemovals input
  let out : OverlayResult :=
    ⟨input.host.files.mapValues .file, [], [], [], [], [], planProblems rt input, planned.notes, []⟩
  let out := planned.removals.foldl applyRemoval out
  let out := planOverrides input
    (packPaths.filter fun path => (underRemoved path planned.removals).isNone) out
  planReplacements input planned.removals out

end Composition
