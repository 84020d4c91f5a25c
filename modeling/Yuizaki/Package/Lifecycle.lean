import Yuizaki.Lib.Dict
import Yuizaki.Lib.Fallible
import Yuizaki.Lib.JsStr
import Yuizaki.Lib.Json
import Mathlib.Data.List.Sort
import Mathlib.Data.String.Basic
import Mathlib.Algebra.Order.Ring.Int

/- Installed packages (`PackageLifecycle` in `main/package-lifecycle.ts`, with the JSON state
   store and the local artifact store it is given).

   A package has a state (its active version, the one before it, and the versions that were
   revoked), which is kept in memory and in the state store, and an artifact for each installed
   version. What the outside answers during a call (signatures, health, and whether a file is
   read or written) comes with the call. -/
namespace Package

open Fallible

/-! ## Manifests -/

abbrev Buffer : Type := List UInt8

inductive PackageCapability where
  | voice
  | avatar
  | skill
  | workflow
  | memorySync
deriving DecidableEq

def PackageCapability.text : PackageCapability → String
  | .voice => "voice"
  | .avatar => "avatar"
  | .skill => "skill"
  | .workflow => "workflow"
  | .memorySync => "memory-sync"

structure PackageAssetEntry where
  kind : String
  path : String
  sha256 : String
deriving DecidableEq

/-- `PackageAssetLicense`; the flag is missing where it is no boolean. -/
structure PackageAssetLicense where
  spdx : String
  redistributable : Option Bool
  attribution : Option String
deriving DecidableEq

structure PackageAssetManifest where
  schemaVersion : ℤ
  displayName : String
  assets : List PackageAssetEntry
  license : PackageAssetLicense
deriving DecidableEq

structure PackageManifest where
  packageId : String
  version : String
  sha256 : String
  signature : String
  keyId : String
  capabilities : List PackageCapability
  minRuntime : Option String
  maxRuntime : Option String
  assetManifest : Option PackageAssetManifest
deriving DecidableEq

/-- The digits of `RUNTIME_VERSION`'s matches. -/
def digitRuns (value : String) : List (List Char) :=
  (value.toList.splitOnP fun c => !c.isDigit).filter (· ≠ [])

/-- `Number` of a run of digits. -/
def numberOf (digits : List Char) : ℕ := digits.foldl (fun n c => 10 * n + (c.toNat - 48)) 0

def versionKey (value : String) : Except String (List ℕ) := do
  let parts := (digitRuns value).map numberOf
  require "invalid package runtime version" (parts ≠ [])
  pure (parts.take 4)

/-- The differences of two keys part by part, where a shorter one goes on with zeros. -/
def differences (a b : List ℕ) : List ℤ :=
  (List.range (max a.length b.length)).map fun index => (a.getD index 0 : ℤ) - (b.getD index 0 : ℤ)

def compareVersions (left right : String) : Except String ℤ := do
  let a ← versionKey left
  let b ← versionKey right
  pure (((differences a b).find? (· ≠ 0)).getD 0)

/-- What the code calls of the platform: a digest, and the collation of two texts. -/
structure Host where
  sha256 : Buffer → String
  localeCompare : String → String → ℤ

/-- A text, or `null`. -/
def textOr : Option String → Json
  | none => .null
  | some text => .str text

/-- `canonicalizePackageManifest`, before it is written as text. -/
def canonicalizePackageManifest (host : Host) (manifest : PackageManifest) : Json :=
  .obj [("packageId", .str manifest.packageId), ("version", .str manifest.version), ("sha256", .str manifest.sha256),
    ("keyId", .str manifest.keyId),
    ("capabilities", .arr (((manifest.capabilities.map (·.text)).insertionSort (· ≤ ·)).map .str)),
    ("minRuntime", textOr manifest.minRuntime), ("maxRuntime", textOr manifest.maxRuntime),
    ("assetManifest", match manifest.assetManifest with
      | none => .null
      | some asset => .obj [("schemaVersion", .num asset.schemaVersion), ("displayName", .str asset.displayName),
        ("assets", .arr ((asset.assets.insertionSort fun left right =>
          host.localeCompare left.path right.path < 0 ∨ host.localeCompare left.path right.path = 0 ∧
            host.localeCompare left.kind right.kind ≤ 0).map fun entry =>
          .obj [("kind", .str entry.kind), ("path", .str entry.path), ("sha256", .str (JsStr.lowerAscii entry.sha256))])),
        ("license", .obj [("spdx", .str asset.license.spdx),
          ("redistributable", match asset.license.redistributable with
            | none => .null
            | some flag => .bool flag),
          ("attribution", textOr asset.license.attribution)])])]

def isSafeAssetPath (value : String) : Bool :=
  decide (value ≠ "") && !JsStr.includes value '\\' && !value.startsWith "/" &&
    !(match value.toList with
      | drive :: ':' :: _ => drive.isAlpha
      | _ => false) &&
    (JsStr.split '/' value).all fun part => decide (part ≠ "") && decide (part ≠ ".") && decide (part ≠ "..")

/-- `ASSET_SHA256.test`. -/
def isAssetSha256 (value : String) : Bool :=
  decide (value.toList.length = 64) &&
    value.toList.all fun c => c.isDigit || ('a' ≤ c && c ≤ 'f') || ('A' ≤ c && c ≤ 'F')

/-- The loop of `validatePackageAssetManifest`. -/
def validateAssets : List String → List PackageAssetEntry → Except String Unit
  | _, [] => .ok ()
  | seenPaths, asset :: rest => do
    require "asset manifest kind is unsupported" (asset.kind ∈ ["role", "voice", "motion", "avatar"])
    require "asset manifest path is unsafe" (isSafeAssetPath asset.path = true)
    require "asset manifest path is duplicated" (asset.path ∉ seenPaths)
    require "asset manifest checksum is invalid" (isAssetSha256 asset.sha256 = true)
    validateAssets (asset.path :: seenPaths) rest

def validatePackageAssetManifest (manifest : PackageAssetManifest) : Except String Unit := do
  require "asset manifest schema version is unsupported" (manifest.schemaVersion = 1)
  let displayName := JsStr.trim manifest.displayName
  require "asset manifest display name is invalid" (displayName ≠ "" ∧ JsStr.length displayName ≤ 120)
  require "asset manifest must contain between 1 and 512 assets"
    (1 ≤ manifest.assets.length ∧ manifest.assets.length ≤ 512)
  validateAssets [] manifest.assets
  let spdx := JsStr.trim manifest.license.spdx
  require "asset manifest SPDX license is invalid" (spdx ≠ "" ∧ JsStr.length spdx ≤ 80)
  require "asset manifest redistribution flag is required" (manifest.license.redistributable.isSome = true)
  require "asset manifest attribution is too long" (∀ text ∈ manifest.license.attribution, JsStr.length text ≤ 500)

/-! ## States and stores -/

structure PackageState where
  activeVersion : Option String
  previousVersion : Option String
  revokedVersions : List String
deriving DecidableEq

/-- The state of a package that is not recorded. -/
def PackageState.fresh : PackageState := ⟨none, none, []⟩

structure PackageOperationResult where
  packageId : String
  version : Option String
  operation : String
  capabilities : List PackageCapability
  userDataPreserved : Bool
deriving DecidableEq

/-- What is fixed for a lifecycle: the version of the runtime and the capabilities it allows. -/
structure Policy where
  runtimeVersion : String
  allowedCapabilities : List PackageCapability

/-- What the outside answers during a call; a health check that throws answers no. -/
structure Answers where
  verifySignature : Json → String → String → Except String Bool
  healthCheck : String → String → Buffer → Bool
  stateLoaded : Bool
  stateSaved : Bool
  artifactWritten : Bool

/-- The lifecycle: the states in memory, the file of the state store where there is one, and the
artifacts. -/
structure Lifecycle where
  states : Dict String PackageState
  stored : Option (Dict String PackageState)
  artifacts : Dict (String × String) Buffer
deriving DecidableEq

/-- A call: what it answers or throws, and what it leaves. -/
abbrev Call (α : Type) := Except String α × Lifecycle

def isSafeSegment (value : String) : Bool :=
  decide (JsStr.trim value ≠ "") && decide (value ≠ ".") && decide (value ≠ "..") && !JsStr.includes value '/' &&
    !JsStr.includes value '\\' && !JsStr.includes value '\x00'

/-- What `resolveVersionDir` throws. -/
@[irreducible]
def checkSegments (packageId version : String) : Except String Unit :=
  require "package artifact path is invalid" (isSafeSegment packageId = true ∧ isSafeSegment version = true)

/-- The versions that a state refers to. -/
def PackageState.referenced (state : PackageState) : List String :=
  state.activeVersion.toList ++ state.previousVersion.toList

namespace Lifecycle

variable (host : Host) (policy : Policy) (l : Lifecycle) (answers : Answers)

/-- What is recorded of a package, in memory or else in the state store. -/
def recorded (packageId : String) : Option PackageState :=
  (l.states.get packageId).or (l.stored.bind (·.get packageId))

def state (packageId : String) : Call PackageState :=
  match l.states.get packageId with
  | some state => (.ok state, l)
  | none =>
    match l.stored with
    | none => (.ok .fresh, l)
    | some file =>
      if answers.stateLoaded = false then (.error "package state file is corrupt", l)
      else match file.get packageId with
        | none => (.ok .fresh, l)
        | some state => (.ok state, { l with states := l.states.set packageId state })

/-- `has` of the artifact store. -/
def has (packageId version : String) : Except String Bool := do
  checkSegments packageId version
  pure (l.artifacts.get (packageId, version)).isSome

/-- The versions of a list without an artifact. -/
def missing (packageId : String) : List String → Except String (List String)
  | [] => .ok []
  | version :: rest => do
    let there ← l.has packageId version
    let others ← missing packageId rest
    pure (if there then others else version :: others)

def assertReferencedArtifactsAvailable (packageId : String) (state : PackageState) : Except String Unit := do
  let missing ← l.missing packageId state.referenced
  require ("package artifact is unavailable: " ++ ", ".intercalate missing) (missing = [])

/-- `remove` of the artifact store. -/
def removeArtifact (packageId version : String) : Call Unit :=
  match checkSegments packageId version with
  | .error e => (.error e, l)
  | .ok _ => (.ok (), { l with artifacts := l.artifacts.erase (packageId, version) })

/-- `install` of the artifact store. -/
def installArtifact (packageId version : String) (artifact : Buffer) : Call Unit :=
  match checkSegments packageId version with
  | .error e => (.error e, l)
  | .ok _ =>
    if answers.artifactWritten then (.ok (), { l with artifacts := l.artifacts.set (packageId, version) artifact })
    else (.error "package artifact was not written", l)

/-- `save` of the state store, in a lifecycle that has one. -/
def savable (packageId : String) : Except String Unit := do
  require "package state is invalid" (JsStr.trim packageId ≠ "")
  require "package state was not saved" (answers.stateSaved = true)

/-- `setState`: what `save` throws leaves the memory as it was. -/
def setState (packageId : String) (state : PackageState) : Call Unit :=
  match l.stored with
  | none => (.ok (), { l with states := l.states.set packageId state })
  | some file =>
    match savable answers packageId with
    | .error e => (.error e, l)
    | .ok _ => (.ok (), { l with
        states := l.states.set packageId state
        stored := some (file.set packageId state) })

/-! ## Operations -/

def validate (manifest : PackageManifest) (artifact : Buffer) : Except String Unit := do
  require "signed package identity is required" (JsStr.trim manifest.packageId ≠ "" ∧ JsStr.trim manifest.version ≠ "" ∧
    JsStr.trim manifest.signature ≠ "" ∧ JsStr.trim manifest.keyId ≠ "")
  let _ ← versionKey manifest.version
  require "package capability is not allowed" (∀ capability ∈ manifest.capabilities, capability ∈ policy.allowedCapabilities)
  (manifest.minRuntime.filter (· ≠ "")).toList.forM fun version => do
    let difference ← compareVersions policy.runtimeVersion version
    require "package runtime is too old" (0 ≤ difference)
  (manifest.maxRuntime.filter (· ≠ "")).toList.forM fun version => do
    let difference ← compareVersions policy.runtimeVersion version
    require "package runtime is too new" (difference ≤ 0)
  manifest.assetManifest.toList.forM fun asset => do
    validatePackageAssetManifest asset
    require "asset manifest capability is not declared" (∀ entry ∈ asset.assets,
      (if entry.kind = "voice" then PackageCapability.voice else .avatar) ∈ manifest.capabilities)
  require "package checksum mismatch" (host.sha256 artifact = JsStr.lowerAscii manifest.sha256)
  let signed ← answers.verifySignature (canonicalizePackageManifest host manifest) manifest.signature manifest.keyId
  require "package signature rejected" (signed = true)

/-- What `install` checks of the state before it writes the artifact. -/
def checkInstall (manifest : PackageManifest) (current : PackageState) : Except String Unit := do
  l.assertReferencedArtifactsAvailable manifest.packageId current
  require "package version is revoked" (manifest.version ∉ current.revokedVersions)
  (current.activeVersion.filter (· ≠ "")).toList.forM fun active => do
    let difference ← compareVersions manifest.version active
    require "package version must advance" (0 < difference)

/-- `install` up to the artifact. -/
def admitArtifact (manifest : PackageManifest) (artifact : Buffer) : Call PackageState :=
  match validate host policy answers manifest artifact with
  | .error e => (.error e, l)
  | .ok _ =>
    match l.state answers manifest.packageId with
    | (.error e, l) => (.error e, l)
    | (.ok current, l) =>
      match l.checkInstall manifest current with
      | .error e => (.error e, l)
      | .ok _ =>
        match l.installArtifact answers manifest.packageId manifest.version artifact with
        | (.error e, l) => (.error e, l)
        | (.ok _, l) => (.ok current, l)

/-- The artifact is taken back, and the error is thrown. -/
def takeBack (packageId version error : String) : Call PackageOperationResult :=
  match l.removeArtifact packageId version with
  | (.error e, l) => (.error e, l)
  | (.ok _, l) => (.error error, l)

def install (manifest : PackageManifest) (artifact : Buffer) : Call PackageOperationResult :=
  match l.admitArtifact host policy answers manifest artifact with
  | (.error e, l) => (.error e, l)
  | (.ok current, l) =>
    if answers.healthCheck manifest.packageId manifest.version artifact = false then
      l.takeBack manifest.packageId manifest.version "package health check failed"
    else match l.setState answers manifest.packageId ⟨some manifest.version, current.activeVersion, current.revokedVersions⟩ with
      | (.error e, l) => (.error e, (l.removeArtifact manifest.packageId manifest.version).2)
      | (.ok _, l) => (.ok {
          packageId := manifest.packageId
          version := some manifest.version
          operation := if (current.activeVersion.filter (· ≠ "")).isSome then "update" else "install"
          capabilities := manifest.capabilities
          userDataPreserved := false }, l)

/-- What `rollback` checks; the versions it changes to. -/
def checkRollback (packageId : String) (current : PackageState) : Except String (String × String) := do
  l.assertReferencedArtifactsAvailable packageId current
  match current.activeVersion.filter (· ≠ ""), current.previousVersion.filter (· ≠ "") with
  | some active, some previous =>
    require "rollback version is revoked" (previous ∉ current.revokedVersions)
    let there ← l.has packageId previous
    require "rollback artifact is unavailable" (there = true)
    pure (previous, active)
  | _, _ => .error "no rollback version is available"

def rollback (packageId : String) : Call PackageOperationResult :=
  match l.state answers packageId with
  | (.error e, l) => (.error e, l)
  | (.ok current, l) =>
    match l.checkRollback packageId current with
    | .error e => (.error e, l)
    | .ok (previous, active) =>
      match l.setState answers packageId { current with
          activeVersion := some previous
          previousVersion := some active } with
      | (.error e, l) => (.error e, l)
      | (.ok _, l) => (.ok ⟨packageId, some previous, "rollback", [], false⟩, l)

/-- The state of a package one of whose versions is revoked. -/
def revokedState (current : PackageState) (version : String) : PackageState where
  activeVersion := if current.activeVersion = some version then none else current.activeVersion
  previousVersion := if current.activeVersion = some version then none else current.previousVersion
  revokedVersions := if version ∈ current.revokedVersions then current.revokedVersions
    else current.revokedVersions ++ [version]

def revoke (packageId version : String) : Call PackageOperationResult :=
  match l.state answers packageId with
  | (.error e, l) => (.error e, l)
  | (.ok current, l) =>
    match if current.activeVersion = some version then l.removeArtifact packageId version else (.ok (), l) with
    | (.error e, l) => (.error e, l)
    | (.ok _, l) =>
      match l.setState answers packageId (revokedState current version) with
      | (.error e, l) => (.error e, l)
      | (.ok _, l) => (.ok ⟨packageId, some version, "revoke", [], true⟩, l)

/-- The artifacts of some versions are removed. -/
def removeArtifacts (packageId : String) : List String → Lifecycle → Call Unit
  | [], l => (.ok (), l)
  | version :: rest, l =>
    match l.removeArtifact packageId version with
    | (.error e, l) => (.error e, l)
    | (.ok _, l) => removeArtifacts packageId rest l

/-- `remove` of the state store, where there is one. -/
def removeState (packageId : String) : Call Unit :=
  match l.stored with
  | none => (.ok (), l)
  | some file =>
    if answers.stateLoaded = false then (.error "package state file is corrupt", l)
    else if file.get packageId = none then (.ok (), l)
    else if answers.stateSaved = false then (.error "package state was not saved", l)
    else (.ok (), { l with stored := some (file.erase packageId) })

def uninstall (packageId : String) (preserveUserData : Bool) : Call PackageOperationResult :=
  match l.state answers packageId with
  | (.error e, l) => (.error e, l)
  | (.ok current, l) =>
    match removeArtifacts packageId (current.referenced.dedup.filter (· ≠ "")) l with
    | (.error e, l) => (.error e, l)
    | (.ok _, l) =>
      match { l with states := l.states.erase packageId }.removeState answers packageId with
      | (.error e, l) => (.error e, l)
      | (.ok _, l) => (.ok ⟨packageId, current.activeVersion, "uninstall", [], preserveUserData⟩, l)

/-- `reconcile` and `state` do no more to a lifecycle than to look. -/
def look (packageId : String) : Call PackageOperationResult :=
  match l.state answers packageId with
  | (.error e, l) => (.error e, l)
  | (.ok current, l) => (.ok ⟨packageId, current.activeVersion, "look", [], true⟩, l)

def restart : Lifecycle := { l with states := Dict.empty }

end Lifecycle

/-! ## Runs -/

inductive Operation where
  | install (manifest : PackageManifest) (artifact : Buffer)
  | rollback (packageId : String)
  | revoke (packageId version : String)
  | uninstall (packageId : String) (preserveUserData : Bool)
  | look (packageId : String)
  | restart

def Lifecycle.run (host : Host) (policy : Policy) (l : Lifecycle) (answers : Answers) : Operation → Call PackageOperationResult
  | .install manifest artifact => l.install host policy answers manifest artifact
  | .rollback packageId => l.rollback answers packageId
  | .revoke packageId version => l.revoke answers packageId version
  | .uninstall packageId preserveUserData => l.uninstall answers packageId preserveUserData
  | .look packageId => l.look answers packageId
  | .restart => (.ok ⟨"", none, "restart", [], true⟩, l.restart)

def Lifecycle.Step (host : Host) (policy : Policy) (l : Lifecycle) (e : Operation × Answers) (l' : Lifecycle) : Prop :=
  (l.run host policy e.2 e.1).2 = l'

/-- Nothing is installed; there is a state store or not. -/
def Lifecycle.start (hasStore : Bool) : Lifecycle where
  states := Dict.empty
  stored := if hasStore then some Dict.empty else none
  artifacts := Dict.empty

/-! ## A package that a run is about -/

namespace Sample

def host : Host where
  sha256 artifact := String.ofList (artifact.map fun byte => Char.ofNat byte.toNat)
  localeCompare left right := if left = right then 0 else if left < right then -1 else 1

def policy : Policy := ⟨"30", []⟩

def answers : Answers where
  verifySignature _ _ _ := .ok true
  healthCheck _ _ _ := true
  stateLoaded := true
  stateSaved := true
  artifactWritten := true

def manifest (version : String) : PackageManifest where
  packageId := "cat"
  version := version
  sha256 := "a"
  signature := "signature"
  keyId := "key"
  capabilities := []
  minRuntime := none
  maxRuntime := none
  assetManifest := none

def artifact : Buffer := [97]

end Sample

end Package
