import Mathlib.Algebra.GroupWithZero.Nat
import Mathlib.Data.List.Sort
import Offprint.Model.Error
import Offprint.Model.Export

/-!
# Prepared artifacts

The verified payloads a transaction delivers: one file, or a directory given by
its relative files.  A value of these types has passed its own checks.
-/

namespace Offprint.Artifact

open Data Model

structure ArtifactTransactionLimits where
  maximumFiles : Nat
  maximumBytes : UInt64
  deriving Repr, DecidableEq

inductive OutputKind where
  | file
  | directory
  deriving Repr, DecidableEq

def payloadError (message : String) : OffprintError :=
  .new "offprint.export.output" .encoding message

section Names

def components (path : String) : List String :=
  (path.toList.splitOn '/').map String.ofList

def joinComponents (parts : List String) : String :=
  String.ofList (List.intercalate ['/'] (parts.map String.toList))

/-- The directories above a relative file, the shallowest first. -/
def parentDirectories (path : String) : List String :=
  ((components path).dropLast.inits.drop 1).map joinComponents

def isOutputName (name : String) : Bool :=
  name ≠ "" && name ≠ "." && name ≠ ".." && !name.toList.contains '/' &&
    !name.toList.contains '\\'

def isRelativeFile (path : String) : Bool :=
  path ≠ "" && path.toList.head? ≠ some '/' && path.toList.getLast? ≠ some '/' &&
    !path.toList.contains '\\' &&
    !(components path).any fun part => part = "" || part = "." || part = ".."

def validateOutputName (name : String) : Except OffprintError Unit :=
  if isOutputName name then .ok ()
  else .error (payloadError
    "artifact transaction destination name must be one portable path component")

def validateRelativeFile (path : String) : Except OffprintError Unit :=
  if isRelativeFile path then .ok ()
  else .error (payloadError "artifact directory file must use a portable relative path")

end Names

/-- Files by relative path, in the order of their paths. -/
structure FileMap where
  entries : List (String × List UInt8)
  sorted : entries.Pairwise fun first second => first.1 < second.1

namespace FileMap

def keys (files : FileMap) : List String :=
  files.entries.map Prod.fst

def contains (files : FileMap) (path : String) : Bool :=
  files.keys.contains path

end FileMap

section Directory

def validateDirectoryFile (files : FileMap) (path : String) : Except OffprintError Unit := do
  validateRelativeFile path
  if (parentDirectories path).any files.contains then
    throw (payloadError "artifact directory contains a file and directory at the same path")

/-- The number of directories the files imply. -/
def validateDirectoryFiles (files : FileMap) : Except OffprintError Nat := do
  if files.entries = [] then
    throw (payloadError "artifact directory requires at least one prepared file")
  files.keys.forM (validateDirectoryFile files)
  return (files.keys.flatMap parentDirectories).dedup.length

def slashes (path : String) : Nat :=
  path.toList.count '/'

/-- Shallow files first, then by path. -/
def orderFiles {α : Type} (files : List (String × α)) : List (String × α) :=
  files.insertionSort fun first second =>
    slashes first.1 < slashes second.1 ∨
      (slashes first.1 = slashes second.1 ∧ first.1 ≤ second.1)

theorem orderFiles_map {α β : Type} (image : α → β) (files : List (String × α)) :
    orderFiles (files.map fun file => (file.1, image file.2)) =
      (orderFiles files).map fun file => (file.1, image file.2) := by
  symm
  apply List.map_insertionSort
  intro first _ second _
  exact Iff.rfl

def littleEndian (value : Nat) : List UInt8 :=
  (List.range 8).map fun index => UInt8.ofNat (value / 256 ^ index)

def saturate (value : Nat) : UInt64 :=
  UInt64.ofNat (min value (2 ^ 64 - 1))

def saturatingAdd (first second : UInt64) : UInt64 :=
  saturate (first.toNat + second.toNat)

/-- What the digest of a directory hashes of one of its files. -/
def digestInput (path : String) (content : List UInt8) : List UInt8 :=
  Utf8.encode path.toList ++ [0] ++ littleEndian content.length ++ content

variable [Sha256]

def directoryDigest (files : FileMap) : UInt64 × ContentDigest :=
  let ordered := orderFiles files.entries
  (ordered.foldl (fun total file => saturatingAdd total (saturate file.2.length)) 0,
    Sha256.digest (ordered.flatMap fun file => digestInput file.1 file.2))

structure ArtifactDirectory where
  files : FileMap
  directories : Nat
  bytes : UInt64
  sha256 : ContentDigest
  validFiles : validateDirectoryFiles files = .ok directories
  digest_eq : directoryDigest files = (bytes, sha256)

def ArtifactDirectory.new (files : FileMap) : Except OffprintError ArtifactDirectory :=
  match validFiles : validateDirectoryFiles files with
  | .ok directories => .ok ⟨files, directories, _, _, validFiles, rfl⟩
  | .error error => .error error

def ArtifactDirectory.fileCount (directory : ArtifactDirectory) : Nat :=
  directory.files.entries.length

end Directory

section Prepared

variable [Sha256]

inductive PreparedPayload where
  | file (bytes : List UInt8)
  | directory (entrypoint : String) (contents : ArtifactDirectory)

/-- The byte count and digest a verification record must carry for a payload. -/
def PreparedPayload.measure : PreparedPayload → UInt64 × ContentDigest
  | .file bytes => (saturate bytes.length, Sha256.digest bytes)
  | .directory _ contents => (contents.bytes, contents.sha256)

def PreparedPayload.wellFormed : PreparedPayload → Bool
  | .file _ => true
  | .directory entrypoint contents =>
    isRelativeFile entrypoint && contents.files.contains entrypoint

structure PreparedArtifact where
  name : String
  payload : PreparedPayload
  verification : FormatVerification
  validName : isOutputName name
  validPayload : payload.wellFormed
  verified : payload.measure = (verification.bytes, verification.sha256)

namespace PreparedArtifact

def file (name : String) (bytes : List UInt8) (verification : FormatVerification) :
    Except OffprintError PreparedArtifact := do
  validateOutputName name
  if validName : isOutputName name then
    if verified : (PreparedPayload.file bytes).measure =
        (verification.bytes, verification.sha256) then
      return ⟨name, .file bytes, verification, validName, rfl, verified⟩
  throw (payloadError "prepared artifact payload does not match its verification record")

def directory
    (name entrypoint : String) (contents : ArtifactDirectory)
    (verification : FormatVerification) : Except OffprintError PreparedArtifact := do
  validateOutputName name
  validateRelativeFile entrypoint
  if validName : isOutputName name then
    if validPayload : (PreparedPayload.directory entrypoint contents).wellFormed then
      if verified : (PreparedPayload.directory entrypoint contents).measure =
          (verification.bytes, verification.sha256) then
        return ⟨name, .directory entrypoint contents, verification, validName, validPayload,
          verified⟩
    else
      throw (payloadError "artifact directory entrypoint is absent from its prepared files")
  throw (payloadError "prepared artifact payload does not match its verification record")

def outputKind (artifact : PreparedArtifact) : OutputKind :=
  match artifact.payload with
  | .file _ => .file
  | .directory _ _ => .directory

def fileCount (artifact : PreparedArtifact) : Nat :=
  match artifact.payload with
  | .file _ => 1
  | .directory _ contents => contents.fileCount

def directoryCount (artifact : PreparedArtifact) : Nat :=
  match artifact.payload with
  | .file _ => 0
  | .directory _ contents => contents.directories

def entrypoint (artifact : PreparedArtifact) : Option String :=
  match artifact.payload with
  | .file _ => none
  | .directory entrypoint _ => some entrypoint

end PreparedArtifact
end Prepared
end Offprint.Artifact
