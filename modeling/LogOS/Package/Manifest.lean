import LogOS.Abi

/-!
# Package manifests

Names, versions, version ranges and the fixed 384 byte manifest of a package, as the package format reads them.  A name is
a value that `PackageName::parse` accepts, so that no other name can be built.
-/

namespace LogOS.Package

open Lib Abi

def packageManifestBytes : ℕ := 384
def maxPackageNameBytes : ℕ := 32
def maxPackageDependencies : ℕ := 4
def maxVersionRangeBytes : ℕ := 32

inductive ManifestError where
  | emptyName
  | nameTooLong
  | invalidName
  | invalidVersion
  | invalidRange
  | invalidEncoding
  | unsupportedKind
  | invalidTarget
  | tooManyDependencies
  | duplicateDependency
  deriving DecidableEq, Repr

/-- `a-z`, `0-9` and `-` -/
def isNameByte (byte : UInt8) : Bool :=
  (97 ≤ byte && byte ≤ 122) || (48 ≤ byte && byte ≤ 57) || byte == 45

/-- What `PackageName::parse` checks. -/
def checkPackageName (input : List UInt8) : Except ManifestError Unit :=
  if input = [] then .error .emptyName
  else if input.length > maxPackageNameBytes then .error .nameTooLong
  else if input.head? = some 45 ∨ input.getLast? = some 45 then .error .invalidName
  else if input.any fun byte => !isNameByte byte then .error .invalidName
  else .ok ()

structure PackageName where
  bytes : List UInt8
  valid : checkPackageName bytes = .ok ()
  deriving DecidableEq

def PackageName.parse (input : List UInt8) : Except ManifestError PackageName :=
  match h : checkPackageName input with
  | .ok () => .ok ⟨input, h⟩
  | .error e => .error e

variable (name : PackageName)

lemma PackageName.parse_bytes : PackageName.parse name.bytes = .ok name := by
  unfold PackageName.parse
  split
  · rfl
  · next h =>
    rw [name.valid] at h
    cases h

lemma PackageName.nonempty : name.bytes ≠ [] := by
  intro h
  have := name.valid
  rw [h] at this
  cases this

lemma PackageName.length_le : name.bytes.length ≤ 32 := by
  have h := name.valid
  unfold checkPackageName maxPackageNameBytes at h
  split_ifs at h
  omega

/-! ## Versions -/

structure SemanticVersion where
  major : ℕ
  minor : ℕ
  patch : ℕ
  deriving DecidableEq, Repr

namespace SemanticVersion

/-- The derived order: by `major`, then `minor`, then `patch`. -/
def blt (a b : SemanticVersion) : Bool :=
  a.major < b.major || (a.major == b.major && (a.minor < b.minor || (a.minor == b.minor && a.patch < b.patch)))

def ble (a b : SemanticVersion) : Bool := a.blt b || a == b

end SemanticVersion

/-- `u32::saturating_add` of one. -/
def saturatingSucc (n : ℕ) : ℕ := min (n + 1) (2 ^ 32 - 1)

def parseNumber (input : List UInt8) : Except ManifestError ℕ :=
  if input = [] ∨ (input.length > 1 ∧ input.head? = some 48) then .error .invalidVersion
  else input.foldlM (fun value byte =>
    if ¬ (48 ≤ byte ∧ byte ≤ 57) then .error .invalidVersion
    else if value * 10 < 2 ^ 32 ∧ value * 10 + (byte.toNat - 48) < 2 ^ 32 then .ok (value * 10 + (byte.toNat - 48))
    else .error .invalidVersion) 0

/-- The position of the first `.`. -/
def findDot (input : List UInt8) : Option ℕ := input.findIdx? (· == 46)

def SemanticVersion.parse (input : List UInt8) : Except ManifestError SemanticVersion :=
  match findDot input with
  | none => .error .invalidVersion
  | some first =>
    match (findDot (input.drop (first + 1))).map (first + 1 + ·) with
    | none => .error .invalidVersion
    | some second =>
      if (input.drop (second + 1)).contains 46 then .error .invalidVersion
      else do
        let major ← parseNumber (input.take first)
        let minor ← parseNumber (slice input (first + 1) second)
        let patch ← parseNumber (input.drop (second + 1))
        .ok ⟨major, minor, patch⟩

inductive VersionRange where
  | any
  | major (major : ℕ)
  | minor (major minor : ℕ)
  | exact (v : SemanticVersion)
  | caret (v : SemanticVersion)
  | tilde (v : SemanticVersion)
  | gte (v : SemanticVersion)
  | gt (v : SemanticVersion)
  | lte (v : SemanticVersion)
  | lt (v : SemanticVersion)
  deriving DecidableEq, Repr

/-- `*`, `x` or `X` -/
def isWildcard (input : List UInt8) : Bool := input == [42] || input == [120] || input == [88]

/-- A version range without an operator in front. -/
def VersionRange.parsePlain (input : List UInt8) : Except ManifestError VersionRange :=
  match findDot input with
  | none => do .ok (.major (← parseNumber input))
  | some first =>
    let firstPart := input.take first
    let rest := input.drop (first + 1)
    if isWildcard rest then do .ok (.major (← parseNumber firstPart))
    else
      match findDot rest with
      | none => do .ok (.minor (← parseNumber firstPart) (← parseNumber rest))
      | some secondOffset =>
        if (rest.drop (secondOffset + 1)).contains 46 then .error .invalidRange
        else if isWildcard (rest.drop (secondOffset + 1)) then do
          .ok (.minor (← parseNumber firstPart) (← parseNumber (rest.take secondOffset)))
        else do .ok (.exact (← SemanticVersion.parse input))

def VersionRange.parse (input : List UInt8) : Except ManifestError VersionRange :=
  if isWildcard input then .ok .any
  else
    match input with
    | 94 :: version => do .ok (.caret (← SemanticVersion.parse version))
    | 126 :: version => do .ok (.tilde (← SemanticVersion.parse version))
    | 62 :: 61 :: version => do .ok (.gte (← SemanticVersion.parse version))
    | 62 :: version => do .ok (.gt (← SemanticVersion.parse version))
    | 60 :: 61 :: version => do .ok (.lte (← SemanticVersion.parse version))
    | 60 :: version => do .ok (.lt (← SemanticVersion.parse version))
    | _ => VersionRange.parsePlain input

def caretUpperBound (version : SemanticVersion) : SemanticVersion :=
  if version.major > 0 then ⟨saturatingSucc version.major, 0, 0⟩
  else if version.minor > 0 then ⟨0, saturatingSucc version.minor, 0⟩
  else ⟨0, 0, saturatingSucc version.patch⟩

def tildeUpperBound (version : SemanticVersion) : SemanticVersion := ⟨version.major, saturatingSucc version.minor, 0⟩

def VersionRange.matchesVersion : VersionRange → SemanticVersion → Bool
  | any, _ => true
  | major m, version => version.major == m
  | minor m n, version => version.major == m && version.minor == n
  | exact required, version => version == required
  | caret required, version => required.ble version && version.blt (caretUpperBound required)
  | tilde required, version => required.ble version && version.blt (tildeUpperBound required)
  | gte required, version => required.ble version
  | gt required, version => required.blt version
  | lte required, version => version.ble required
  | lt required, version => version.blt required

/-! ## Manifests -/

inductive PackageKind where
  | service
  | program
  deriving DecidableEq, Repr

def PackageKind.decode (value : UInt8) : Except ManifestError PackageKind :=
  if value = 1 then .ok .service else if value = 2 then .ok .program else .error .unsupportedKind

inductive PackageTarget where
  | none
  | service (id : ServiceId)
  deriving DecidableEq, Repr

structure PackageDependency where
  name : PackageName
  range : List UInt8
  deriving DecidableEq

namespace PackageDependency

def new (name : PackageName) (range : List UInt8) : Except ManifestError PackageDependency :=
  if range = [] ∨ range.length > maxVersionRangeBytes then .error .invalidRange
  else do
    let _ ← VersionRange.parse range
    .ok ⟨name, range⟩

def matchesVersion (dependency : PackageDependency) (version : SemanticVersion) : Except ManifestError Bool := do
  .ok ((← VersionRange.parse dependency.range).matchesVersion version)

end PackageDependency

structure PackageManifest where
  name : PackageName
  version : SemanticVersion
  kind : PackageKind
  target : PackageTarget
  dependencies : List PackageDependency
  deriving DecidableEq

namespace PackageManifest

def addDependency (manifest : PackageManifest) (dependency : PackageDependency) : Except ManifestError PackageManifest :=
  if manifest.dependencies.any fun existing => existing.name == dependency.name then .error .duplicateDependency
  else if manifest.dependencies.length = maxPackageDependencies then .error .tooManyDependencies
  else .ok { manifest with dependencies := manifest.dependencies ++ [dependency] }

/-- One dependency slot of an encoded manifest. -/
def decodeDependency (input : List UInt8) (dependencyCount : ℕ) (manifest : PackageManifest) (index : ℕ) :
    Except ManifestError PackageManifest :=
  let offset := 64 + index * 80
  let nameLength := (input.getD (offset + 32) 0).toNat
  let rangeLength := (input.getD (offset + 33) 0).toNat
  if nameLength > maxPackageNameBytes ∨ rangeLength > maxVersionRangeBytes then .error .invalidEncoding
  else
    let reserved := slice input (offset + 34 + rangeLength) (offset + 80)
    if rangeLength = 0 then
      if index < dependencyCount ∨ nameLength ≠ 0 ∨ ¬ reserved.all (· == 0) then .error .invalidEncoding
      else .ok manifest
    else if index ≥ dependencyCount ∨ ¬ reserved.all (· == 0) ∨
        ¬ (slice input (offset + nameLength) (offset + 32)).all (· == 0) then .error .invalidEncoding
    else do
      let name ← PackageName.parse (slice input offset (offset + nameLength))
      let dependency ← PackageDependency.new name (slice input (offset + 34) (offset + 34 + rangeLength))
      manifest.addDependency dependency

def decode (input : List UInt8) : Except ManifestError PackageManifest :=
  if input.length < packageManifestBytes then .error .invalidEncoding
  else
    let nameLength := (input.getD 32 0).toNat
    if nameLength = 0 ∨ nameLength > maxPackageNameBytes then .error .invalidEncoding
    else if ¬ (slice input nameLength 32).all (· == 0) then .error .invalidEncoding
    else do
      let name ← PackageName.parse (slice input 0 nameLength)
      let kind ← PackageKind.decode (input.getD 48 0)
      let target ← if input.getD 49 0 = 0 then .ok .none else
        match ServiceId.ofByte (input.getD 49 0) with
        | some service => .ok (.service service)
        | none => .error .invalidTarget
      let dependencyCount := (input.getD 50 0).toNat
      if dependencyCount > maxPackageDependencies ∨ ¬ (slice input 51 64).all (· == 0) then .error .invalidEncoding
      else
        (List.range maxPackageDependencies).foldlM (decodeDependency input dependencyCount)
          ⟨name, ⟨getLe input 36 4, getLe input 40 4, getLe input 44 4⟩, kind, target, []⟩

end PackageManifest

end LogOS.Package
