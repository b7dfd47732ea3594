import Mathlib.Data.String.Basic
import Offprint.Artifact.JournalStore

/-!
# Planning and validating destinations

Choosing where each artifact goes, staging it, and checking that what stands at
a path is what a journal entry describes.
-/

namespace Offprint.Artifact

open Data Effect Model

def planError (stage : ErrorStage) (message : String) : OffprintError :=
  .new "offprint.export.output" stage message

def planIoError (stage : ErrorStage) (message : String) (cause : IoError) : OffprintError :=
  ioDetail (planError stage (message ++ ": " ++ cause.message)) cause

def outputExistsError (space : TransactionNamespace) (path : Path) : OffprintError :=
  .new "offprint.output.exists" .validation
    ("artifact export destination already exists: `" ++ space.display path ++ "`")

structure DestinationPlan where
  destination : Path
  entry : JournalEntry

structure StagedArtifact where
  destination : Path
  stagedPath : Path
  entry : JournalEntry

section Inspect

def metadataKind (metadata : Metadata) : Option OutputKind :=
  match metadata.kind with
  | .file => some .file
  | .directory => some .directory
  | _ => none

def directMetadata (path : Path) : Durable (Option Metadata) := do
  match ← performIo (.metadata path) with
  | .ok metadata =>
    failIf (metadata.kind = .symlink)
      (planError .validation "artifact export destination must not be a symbolic link")
    return some metadata
  | .error .notFound => return none
  | .error cause =>
    throw (planIoError .validation "failed to inspect an artifact export destination" cause)

def directDirectory (path : Path) (stage : ErrorStage) : Durable Bool := do
  let metadata ← perform (.metadata path)
    (planIoError stage "failed to inspect an artifact output directory")
  return metadata.kind = .directory

def outputDirectoryIsEmpty (path : Path) (stage : ErrorStage) : Durable Bool := do
  let direct ← directDirectory path stage
  failIf (direct = false)
    (planError stage "artifact export output must be a directly addressed directory")
  let names ← perform (.readDirectory path)
    (planIoError stage "failed to enumerate the artifact export directory")
  return names.isEmpty

def directRegularFile (path : Path) (stage : ErrorStage) : Durable Metadata := do
  let metadata ← perform (.metadata path)
    (planIoError stage "failed to inspect an artifact format file")
  failIf (metadata.kind ≠ .file)
    (planError stage "artifact format must be a directly addressed regular file")
  return metadata

end Inspect

section Collect

/-- The directories still to read, those found, and the files found. -/
structure Collected where
  pending : List (Path × String)
  directories : List String
  files : List (String × Path)

def portableName (name : OsString) : Except OffprintError String :=
  match name.toStr with
  | none => .error (planError .commit "staged artifact directory contains a non-UTF-8 name")
  | some text =>
    if text.toList.contains '\\' then
      .error (planError .commit "staged artifact directory contains a non-portable name")
    else
      .ok text

/-- Count what was found at a path of the directory. -/
def Collected.count (collected : Collected) (maximumFiles : Nat) (path : Path)
    (relative : String) : FileKind → Except OffprintError Collected
  | .symlink =>
    .error (planError .commit "staged artifact directory must not contain symbolic links")
  | .file =>
    if collected.files.length + 1 > maximumFiles then
      .error (.new "offprint.export.files" .commit
        "staged artifact directory exceeds the file count limit")
    else
      .ok { collected with files := collected.files ++ [(relative, path)] }
  | .directory =>
    if collected.directories.contains relative ∨
        collected.directories.length + 1 > maximumFiles then
      .error (.new "offprint.export.files" .commit
        "staged artifact directory exceeds the directory count limit")
    else
      .ok { collected with
        directories := relative :: collected.directories
        pending := (path, relative) :: collected.pending }
  | .special =>
    .error (planError .commit "staged artifact directory contains an unsupported filesystem entry")

def collectEntry (maximumFiles : Nat) (directory : Path) (relativeDirectory : String)
    (collected : Collected) (name : OsString) : Durable Collected := do
  let text ← portableName name
  let relative := if relativeDirectory = "" then text else relativeDirectory ++ "/" ++ text
  let metadata ← perform (.metadata (directory ++ [name]))
    (planIoError .commit "failed to inspect a staged artifact directory entry")
  collected.count maximumFiles (directory ++ [name]) relative metadata.kind

/-- Read pending directories until none is left.  Every directory read after the first
has been counted against the limit, which bounds the number of rounds. -/
def collectPending (maximumFiles : Nat) : Nat → Collected → Durable Collected
  | 0, collected => pure collected
  | rounds + 1, collected =>
    match collected.pending with
    | [] => pure collected
    | (directory, relativeDirectory) :: pending => do
        let names ← perform (.readDirectory directory)
          (planIoError .commit "failed to enumerate a staged artifact directory")
        let collected ← names.foldlM (collectEntry maximumFiles directory relativeDirectory)
          { collected with pending := pending }
        collectPending maximumFiles rounds collected

def sameMembers (first second : List String) : Bool :=
  first.all second.contains && second.all first.contains

/-- The files below a directory by relative path, which leave no directory empty. -/
def collectDirectoryFiles (root : Path) (maximumFiles : Nat) : Durable (List (String × Path)) := do
  let metadata ← perform (.metadata root)
    (planIoError .commit "failed to inspect the staged artifact directory")
  failIf (metadata.kind ≠ .directory)
    (planError .commit "staged artifact output must be a directly addressed directory")
  let collected ← collectPending maximumFiles (maximumFiles + 2) ⟨[(root, "")], [], []⟩
  let expected := collected.files.flatMap fun file => parentDirectories file.1
  failIf (sameMembers collected.directories expected = false)
    (planError .commit "staged artifact directory contains an empty directory")
  return orderFiles collected.files

end Collect

section Validate

/-- The content of a file that stays within a limit. -/
def hashOpenFile (path : Path) (maximumBytes : Nat) : Durable (List UInt8) := do
  let content ← perform (.readFile path)
    (planIoError .commit "failed to read a staged artifact format")
  failIf (content.length > maximumBytes)
    (.new "offprint.export.size" .commit "staged artifact format exceeds the export byte limit")
  return content

def hashFile (path : Path) (maximumBytes : Nat) : Durable (List UInt8) := do
  perform (.openFile path) (planIoError .commit "failed to read a staged artifact format")
  hashOpenFile path maximumBytes

/-- What has been hashed of a directory, and how many bytes of content. -/
def hashDirectoryPath (limit : UInt64) (hashed : List UInt8 × UInt64)
    (file : String × Path) : Durable (List UInt8 × UInt64) := do
  let remaining := limit.toNat - hashed.2.toNat
  let metadata ← directRegularFile file.2 .commit
  failIf (metadata.length > remaining)
    (.new "offprint.export.size" .commit
      "staged artifact directory file exceeds the export byte limit")
  perform (.openFile file.2)
    (planIoError .commit "failed to read a staged artifact directory file")
  let content ← hashOpenFile file.2 remaining
  failIf (content.length ≠ metadata.length)
    (planError .commit "staged artifact directory file byte count changed before commit")
  return (hashed.1 ++ digestInput file.1 content, saturatingAdd hashed.2 (saturate content.length))

variable [Sha256]

def validateFile (path : Path) (verification : FormatVerification) (maximumBytes : UInt64) :
    Durable Unit := do
  let metadata ← directRegularFile path .commit
  failIf (metadata.length > maximumBytes.toNat ∨ metadata.length ≠ verification.bytes.toNat)
    (planError .commit "staged artifact format byte count changed before commit")
  let content ← hashFile path maximumBytes.toNat
  failIf (content.length ≠ verification.bytes.toNat)
    (planError .commit "staged artifact format byte count changed before commit")
  failIf (Sha256.digest content ≠ verification.sha256)
    (.new "offprint.artifact.digest" .commit "staged artifact format digest changed before commit")

def validateDirectory (path : Path) (expectedFiles : Nat) (verification : FormatVerification)
    (limits : ArtifactTransactionLimits) : Durable Unit := do
  failIf (expectedFiles = 0 ∨ expectedFiles > limits.maximumFiles)
    (.new "offprint.export.files" .commit
      "staged artifact directory file count changed before commit")
  let files ← collectDirectoryFiles path limits.maximumFiles
  failIf (files.length ≠ expectedFiles)
    (.new "offprint.export.files" .commit
      "staged artifact directory file count changed before commit")
  let (hashed, total) ← files.foldlM (hashDirectoryPath limits.maximumBytes) ([], 0)
  failIf (total ≠ verification.bytes ∨ total > limits.maximumBytes)
    (.new "offprint.export.size" .commit
      "staged artifact directory byte count changed before commit")
  failIf (Sha256.digest hashed ≠ verification.sha256)
    (.new "offprint.artifact.digest" .commit
      "staged artifact directory digest changed before commit")

def validateEntryPath (path : Path) (entry : JournalEntry) (limits : ArtifactTransactionLimits) :
    Durable Unit :=
  match entry.outputKind with
  | .file => validateFile path entry.verification limits.maximumBytes
  | .directory =>
    validateDirectory path entry.directoryFiles.toNat entry.verification limits

def pathMatchesEntry (path : Path) (entry : JournalEntry) (limits : ArtifactTransactionLimits) :
    Durable Bool := do
  return (← (validateEntryPath path entry limits).attempt).isOk

def readOutputName (name : OsString) : Except OffprintError String :=
  match name.toStr with
  | some text => .ok text
  | none => .error (planError .commit "committed artifact output contains a non-UTF-8 name")

def validateCompleteOutputSet (outputDirectory : Path) (entries : List JournalEntry)
    (limits : ArtifactTransactionLimits) : Durable Unit := do
  let direct ← directDirectory outputDirectory .commit
  failIf (direct = false)
    (planError .commit "committed artifact output must be a directly addressed directory")
  let names ← perform (.readDirectory outputDirectory)
    (planIoError .commit "failed to enumerate the committed artifact output")
  let actual ← names.mapM (m := Except OffprintError) readOutputName
  failIf (sameMembers actual (entries.map JournalEntry.destinationName) = false)
    (planError .commit "committed artifact output set does not match its transaction journal")
  entries.forM fun entry =>
    validateEntryPath (outputDirectory ++ [.utf8 entry.destinationName]) entry limits

def outputMatchesCompleteSet (outputDirectory : Path) (entries : List JournalEntry)
    (limits : ArtifactTransactionLimits) : Durable Bool := do
  return (← (validateCompleteOutputSet outputDirectory entries limits).attempt).isOk

def validateStagedArtifacts (artifacts : List StagedArtifact)
    (limits : ArtifactTransactionLimits) : Durable Unit :=
  artifacts.forM fun artifact => validateEntryPath artifact.stagedPath artifact.entry limits

end Validate

section Resolve

/-- A file name around its last dot; a leading dot does not count. -/
def splitFileName (name : List Char) : List Char × Option (List Char) :=
  let extension := (name.reverse.takeWhile (· ≠ '.')).reverse
  let stem := name.take (name.length - extension.length - 1)
  if name.contains '.' ∧ stem ≠ [] ∧ name ≠ ['.', '.'] then (stem, some extension)
  else (name, none)

/-- A destination name made unique by a number before its extension. -/
def uniqueCandidate (requested : String) (suffix : Nat) (outputKind : OutputKind) : String :=
  if suffix = 0 then requested
  else
    match outputKind with
    | .directory => requested ++ "-" ++ toString suffix
    | .file =>
      match splitFileName requested.toList with
      | (stem, none) => String.ofList stem ++ "-" ++ toString suffix
      | (stem, some extension) =>
        String.ofList stem ++ "-" ++ toString suffix ++ "." ++ String.ofList extension

def uniquify (outputDirectory : Path) (requested : String) (outputKind : OutputKind) :
    (suffix remaining : Nat) → Durable String
  | _, 0 => throw (.new "offprint.output.uniquify" .validation
      "portable artifact format filename suffixes are exhausted")
  | suffix, remaining + 1 => do
      let candidate := uniqueCandidate requested suffix outputKind
      match ← directMetadata (outputDirectory ++ [.utf8 candidate]) with
      | none => return candidate
      | some _ => uniquify outputDirectory requested outputKind (suffix + 1) remaining

variable (space : TransactionNamespace) (conflict : ConflictPolicy)

/-- The name, whether something stands there, and of which kind it is. -/
def resolveDestination (requestedName : String) (outputKind : OutputKind)
    (conflict : ConflictPolicy) : Durable (String × Bool × Option OutputKind) := do
  let requested := space.outputDirectory ++ [.utf8 requestedName]
  match conflict with
  | .fail =>
    let metadata ← directMetadata requested
    failIf metadata.isSome (outputExistsError space requested)
    return (requestedName, false, none)
  | .replace =>
    let metadata ← directMetadata requested
    let previousKind := metadata.bind metadataKind
    failIf (metadata.isSome ∧ previousKind = none)
      (planError .validation "artifact export replacement must be a regular file or directory")
    failIf (outputKind = .file ∧ previousKind = some .directory)
      (planError .validation "file artifact replacement requires a regular file")
    return (requestedName, metadata.isSome, previousKind)
  | .uniquify =>
    let name ← uniquify space.outputDirectory requestedName outputKind 0 10001
    return (name, false, none)

def recheckDestination (artifact : StagedArtifact) : Durable Unit := do
  let current ← directMetadata artifact.destination
  match conflict with
  | .fail | .uniquify => failIf current.isSome (outputExistsError space artifact.destination)
  | .replace =>
    match artifact.entry.existed, current with
    | false, none => return ()
    | false, some _ => throw (outputExistsError space artifact.destination)
    | true, some metadata =>
      match metadataKind metadata with
      | none => throw (planError .commit
          "artifact export replacement changed to an unsupported file type")
      | some kind =>
        failIf (some kind ≠ artifact.entry.previousKind)
          (planError .commit "artifact export destination kind changed before commit")
    | true, none => throw (planError .commit
        "artifact export destination disappeared before commit")

def recheckDestinations (artifacts : List StagedArtifact) : Durable Unit :=
  artifacts.forM (recheckDestination space conflict)

end Resolve

section Stage

variable [Sha256] (space : TransactionNamespace) (conflict : ConflictPolicy)
  (prepared : List PreparedArtifact) (limits : ArtifactTransactionLimits)

def validatePreparedArtifact (artifact : PreparedArtifact) : Except OffprintError Unit := do
  if artifact.fileCount > limits.maximumFiles then
    throw (.new "offprint.export.files" .encoding "artifact payload exceeds the file count limit")
  if artifact.directoryCount > limits.maximumFiles then
    throw (.new "offprint.export.files" .encoding
      "artifact payload exceeds the directory count limit")
  if artifact.verification.bytes > limits.maximumBytes then
    throw (.new "offprint.export.size" .encoding "artifact payload exceeds the export byte limit")

def validatePreparedArtifacts : Except OffprintError Unit :=
  prepared.forM (validatePreparedArtifact limits)

def planDestination (artifact : PreparedArtifact) : Durable DestinationPlan := do
  let (name, existed, previousKind) ←
    resolveDestination space artifact.name artifact.outputKind conflict
  return ⟨space.outputDirectory ++ [.utf8 name],
    ⟨name, artifact.verification.format, artifact.outputKind, existed, previousKind,
      artifact.verification, UInt64.ofNat artifact.fileCount, artifact.entrypoint⟩⟩

/-- An empty output directory is replaced as a whole. -/
def planDestinations : Durable (CommitMode × List DestinationPlan) := do
  let plans ← prepared.mapM (planDestination space conflict)
  let empty ← outputDirectoryIsEmpty space.outputDirectory .validation
  return (if empty then .directorySwap else .entries, plans)

def validateDirectoryLimits (directory : ArtifactDirectory) (limits : ArtifactTransactionLimits)
    (stage : ErrorStage) : Except OffprintError Unit := do
  if directory.fileCount > limits.maximumFiles then
    throw (.new "offprint.export.files" stage "artifact directory exceeds the file count limit")
  if directory.bytes > limits.maximumBytes then
    throw (.new "offprint.export.size" stage "artifact directory exceeds the aggregate byte limit")

def below (path : Path) (relative : String) : Path :=
  path ++ (components relative).map OsString.utf8

/-- The directories a payload needs, every one after the directories above it. -/
def payloadDirectories (files : FileMap) : List String :=
  (files.keys.flatMap parentDirectories).dedup.insertionSort fun first second =>
    slashes first < slashes second ∨
      (slashes first = slashes second ∧ components first ≤ components second)

def stageDirectory (path : Path) (directory : ArtifactDirectory) : Durable Unit := do
  createDirectory path .encoding
  let directories := payloadDirectories directory.files
  directories.forM fun relative => createDirectory (below path relative) .encoding
  directory.files.entries.forM fun file => writeNewFile (below path file.1) file.2 .encoding
  directories.reverse.forM fun relative => syncDirectory (below path relative) .encoding
  syncDirectory path .encoding

def stageArtifact (stagedOutput : Path) (limits : ArtifactTransactionLimits)
    (pair : PreparedArtifact × DestinationPlan) : Durable StagedArtifact := do
  let stagedPath := stagedOutput ++ [.utf8 pair.2.entry.destinationName]
  match pair.1.payload with
  | .file bytes => writeNewFile stagedPath bytes .encoding
  | .directory _ directory =>
    validateDirectoryLimits directory limits .encoding
    stageDirectory stagedPath directory
  return ⟨pair.2.destination, stagedPath, pair.2.entry⟩

def stageArtifacts (root : Path) (prepared : List PreparedArtifact)
    (plans : List DestinationPlan) (limits : ArtifactTransactionLimits) :
    Durable (List StagedArtifact) := do
  failIf (prepared.length ≠ plans.length)
    (planError .internal "artifact transaction plan does not match its prepared artifacts")
  let stagedOutput := root ++ [.utf8 "staged-output"]
  createDirectory stagedOutput .encoding
  let staged ← (prepared.zip plans).mapM (stageArtifact stagedOutput limits)
  syncDirectory stagedOutput .encoding
  return staged

end Stage
end Offprint.Artifact
