import Offprint.Artifact.Durable
import Offprint.Artifact.Journal

/-!
# Storing and loading journals

Every phase of a transaction is a new file in its transaction directory.  The
loader takes the valid snapshot with the highest sequence number and passes over
everything else.
-/

namespace Offprint.Artifact

open Data Effect Model

def journalIoError (stage : ErrorStage) (message : String) (cause : IoError) : OffprintError :=
  ioDetail (journalError stage (message ++ ": " ++ cause.message)) cause

section ValidateEntries

/-- A path of one component that is an ordinary name. -/
def isSingleComponent (path : String) : Bool :=
  let parts := components path
  let kept := parts.filter fun part => part ≠ "" && part ≠ "."
  path.toList.head? ≠ some '/' && parts.head? ≠ some "." && kept.length = 1 && kept ≠ [".."]

def validEntryMetadata (entry : JournalEntry) : Except OffprintError Unit :=
  match entry.outputKind with
  | .file =>
    if entry.directoryFiles ≠ 1 ∨ entry.entrypoint.isSome then
      .error (journalError .commit
        "export transaction journal contains invalid file payload metadata")
    else .ok ()
  | .directory =>
    if entry.directoryFiles = 0 ∨ !entry.entrypoint.any isRelativeFile then
      .error (journalError .commit
        "export transaction journal contains invalid directory payload metadata")
    else .ok ()

/-- The entries from some point on, given the names that came before. -/
def validateEntriesFrom : List String → List JournalEntry → Except OffprintError Unit
  | _, [] => .ok ()
  | names, entry :: rest =>
    if !isSingleComponent entry.destinationName || names.contains entry.destinationName then
      .error (journalError .commit
        "export transaction journal contains an invalid destination name")
    else do
      validEntryMetadata entry
      validateEntriesFrom (entry.destinationName :: names) rest

def validateEntries (entries : List JournalEntry) : Except OffprintError Unit :=
  if entries = [] ∨ entries.length > maximumJournalVariants then
    .error (journalError .commit "export transaction journal has an invalid format count")
  else
    validateEntriesFrom [] entries

end ValidateEntries

/-- The directory that holds the transactions of one output directory. -/
structure TransactionNamespace where
  parentDirectory : String
  outputName : String
  identity : String
  apart : outputName ≠ ".offprint-transactions-" ++ identity

namespace TransactionNamespace

variable (space : TransactionNamespace)

def outputDirectory : Path :=
  [.utf8 space.outputName]

def path : Path :=
  [.utf8 (".offprint-transactions-" ++ space.identity)]

def lockPath : Path :=
  space.path ++ [.utf8 "lock"]

def display (path : Path) : String :=
  path.foldl (fun text name => text ++ "/" ++ name.display) space.parentDirectory

/-- An identity names the output directory by its path. -/
def identityOf [Sha256] (parentDirectory outputName : String) : String :=
  (Sha256.digest (Utf8.encode (parentDirectory ++ "/" ++ outputName).toList)).toHex

def ensureDirectory : Durable Unit := do
  match ← performIo (.metadata space.path) with
  | .ok metadata =>
    failIf (metadata.kind ≠ .directory) (journalError .validation
      "Offprint transaction namespace must be a directly addressed directory")
  | .error .notFound => createDirectory space.path .validation
  | .error cause => throw (journalIoError .validation
      "failed to inspect the Offprint transaction namespace" cause)

def openLock : Durable Unit := do
  let opening := journalIoError .validation "failed to open the export transaction lock"
  match ← performIo (.metadata space.lockPath) with
  | .ok _ =>
    let metadata ← perform (.metadata space.lockPath)
      (journalIoError .validation "failed to inspect the export transaction lock")
    failIf (metadata.kind ≠ .file) (journalError .validation
      "export transaction lock must be a directly addressed regular file")
    perform (.openFile space.lockPath) opening
  | .error _ =>
    match ← performIo (.createNew space.lockPath) with
    | .ok () => pure ()
    | .error .alreadyExists => perform (.openFile space.lockPath) opening
    | .error cause => throw (opening cause)
    perform (.syncFile space.lockPath)
      (journalIoError .validation "failed to synchronize the export transaction lock")
    syncDirectory space.path .validation

/-- Find the output directory, its namespace and its lock; the lock is then held. -/
def acquire : Durable Unit := do
  let _ ← perform (.metadata space.outputDirectory)
    (journalIoError .validation "failed to resolve the export output directory identity")
  space.ensureDirectory
  space.openLock

/-- A new transaction directory, under the unused name the caller drew for it. -/
def createTransactionRoot (name : String) : Durable Path := do
  let root := space.path ++ [.utf8 name]
  perform (.createDirectory root)
    (journalIoError .encoding "failed to create an export transaction directory")
  syncDirectory root .encoding
  syncDirectory space.path .encoding
  return root

def recognizeRoot (name : OsString) : Durable Unit := do
  let metadata ← perform (.metadata (space.path ++ [name]))
    (journalIoError .commit "failed to inspect an export transaction entry")
  failIf (name.startsWith transactionPrefix = false ∨ metadata.kind ≠ .directory)
    (journalError .commit "Offprint transaction namespace contains an unrecognized entry"
      |>.withDetail "path" (.string (space.display (space.path ++ [name]))))

/-- The transaction directories of a namespace, by name. -/
def transactionRoots : Durable (List Path) := do
  let names ← perform (.readDirectory space.path)
    (journalIoError .commit "failed to enumerate the Offprint transaction namespace")
  let roots := names.filter fun name => name ≠ .utf8 "lock"
  roots.forM space.recognizeRoot
  return (sortNames roots).map fun name => space.path ++ [name]

end TransactionNamespace

structure JournalStore where
  root : Path
  snapshot : TransactionJournal
  nextSequence : UInt32

namespace JournalStore

def saturatingSucc (value : UInt32) : UInt32 :=
  if value.toNat = 2 ^ 32 - 1 then value else value + 1

def new (root : Path) (outputIdentity : String) (mode : CommitMode)
    (entries : List JournalEntry) : Except OffprintError JournalStore := do
  let transactionId ←
    match root.getLast? >>= OsString.toStr with
    | some name =>
      if transactionPrefix.toList.isPrefixOf name.toList then .ok name
      else .error (journalError .internal "export transaction directory has an invalid identity")
    | none => .error (journalError .internal "export transaction directory has an invalid identity")
  validateEntries entries
  return ⟨root, ⟨journalSchemaVersion, transactionId, outputIdentity, 0, .staging, mode, entries⟩,
    0⟩

def fromSnapshot (root : Path) (snapshot : TransactionJournal) : JournalStore :=
  ⟨root, snapshot, saturatingSucc snapshot.sequence⟩

def padded (sequence : UInt32) : List Char :=
  let digits := Nat.toDigits 10 sequence.toNat
  List.replicate (8 - digits.length) '0' ++ digits

def fileName (sequence : UInt32) : OsString :=
  .utf8 (String.ofList ("journal-".toList ++ padded sequence ++ ".json".toList))

/-- The snapshot that the next persisted phase writes. -/
def next (store : JournalStore) (phase : JournalPhase) : TransactionJournal :=
  { store.snapshot with phase := phase, sequence := store.nextSequence }

/-- Write the next phase as a new file; the sequence advances only when it is written. -/
def persist (store : JournalStore) (phase : JournalPhase) : Durable JournalStore := do
  let snapshot := store.next phase
  failIf (snapshot.encode.length > maximumJournalBytes)
    (journalError .commit "export transaction journal exceeds its byte limit")
  writeNewFile (store.root ++ [fileName snapshot.sequence]) snapshot.encode .commit
  return ⟨store.root, snapshot, saturatingSucc store.nextSequence⟩

end JournalStore

section Load

/-- A decimal number in the range of sequence numbers, with an optional plus sign. -/
def parseSequence (text : List Char) : Option UInt32 :=
  let digits := match text with
    | '+' :: rest => rest
    | _ => text
  if digits = [] ∨ digits.any (fun char => !char.isDigit) then none
  else
    let value := Nat.ofDigitChars 10 digits 0
    if value < 2 ^ 32 then some (UInt32.ofNat value) else none

/-- The sequence number in the name of a journal file. -/
def fileSequence (name : OsString) : Option UInt32 := do
  let text ← name.toStr
  let stem := text.toList.take (text.toList.length - ".json".toList.length)
  let digits ← "journal-".toList.isPrefixOf? stem
  parseSequence digits

/-- Whether a file of a transaction directory is a snapshot of that transaction. -/
def acceptSnapshot (root : Path) (outputIdentity : String) (name : OsString)
    (bytes : List UInt8) : Option TransactionJournal := do
  guard (bytes.length ≤ maximumJournalBytes)
  let snapshot ← TransactionJournal.decode bytes
  guard (snapshot.schemaVersion = journalSchemaVersion)
  guard (snapshot.outputIdentity = outputIdentity)
  guard (some snapshot.transactionId = (root.getLast? >>= OsString.toStr))
  guard (validateEntries snapshot.entries).isOk
  guard (fileSequence name = some snapshot.sequence)
  return snapshot

/-- A later snapshot takes the place of an earlier one. -/
def latest (current : Option TransactionJournal) (snapshot : TransactionJournal) :
    TransactionJournal :=
  match current with
  | some held => if snapshot.sequence > held.sequence then snapshot else held
  | none => snapshot

/-- Read a snapshot file; what cannot be a snapshot is passed over. -/
def readSnapshot (root : Path) (outputIdentity : String) (current : Option TransactionJournal)
    (name : OsString) : Durable (Option TransactionJournal) := do
  let reading := journalIoError .commit "failed to read an export transaction journal"
  perform (.openFile (root ++ [name])) reading
  let bytes ← perform (.readFile (root ++ [name])) reading
  match acceptSnapshot root outputIdentity name bytes with
  | some snapshot => return some (latest current snapshot)
  | none => return current

def loadSnapshot (root : Path) (outputIdentity : String) (current : Option TransactionJournal)
    (name : OsString) : Durable (Option TransactionJournal) := do
  let metadata ← perform (.metadata (root ++ [name]))
    (journalIoError .commit "failed to inspect an export transaction journal")
  if metadata.kind ≠ .file ∨ metadata.length > maximumJournalBytes then
    return current
  else
    readSnapshot root outputIdentity current name

def loadLatestJournal (root : Path) (outputIdentity : String) :
    Durable (Option TransactionJournal) := do
  let names ← perform (.readDirectory root)
    (journalIoError .commit "failed to enumerate an export transaction directory")
  let journals := names.filter isJournalName
  failIf (journals.length > maximumJournalFiles)
    (journalError .commit "export transaction contains too many journal snapshots")
  (sortNames journals).foldlM (loadSnapshot root outputIdentity) none

end Load
end Offprint.Artifact
