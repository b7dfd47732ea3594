import Offprint.Artifact.Plan

/-!
# Recovery

Undoing or finishing whatever a transaction directory records: a transaction that
had not begun to mutate is dropped, one that had is rolled back, and one that had
committed is cleaned up.
-/

namespace Offprint.Artifact

open Data Effect Model OffprintError

def recoveryIoError (space : TransactionNamespace) (path : Path) (message : String)
    (cause : IoError) : OffprintError :=
  ((new "offprint.export.output" .commit
        (message ++ ": " ++ cause.message)).withDetail
      "path" (.string (space.display path))).withDetail "ioKind" (.string cause.kind)

section Observe

variable (space : TransactionNamespace) (root : Path)

def directExists (path : Path) : Durable Bool := do
  match ← performIo (.metadata path) with
  | .ok _ => return true
  | .error .notFound => return false
  | .error cause =>
    throw (recoveryIoError space path "failed to inspect an export recovery path" cause)

def directoryIsEmpty (path : Path) : Durable Bool := do
  let metadata ← perform (.metadata path)
    (recoveryIoError space path "failed to inspect an export transaction directory")
  failIf (metadata.kind ≠ .directory)
    (new "offprint.export.output" .commit
        "export recovery requires a directly addressed directory"
      |>.withDetail "path" (.string (space.display path)))
  let names ← perform (.readDirectory path)
    (recoveryIoError space path "failed to enumerate an export transaction directory")
  return names.isEmpty

def existingPaths (space : TransactionNamespace) (root : Path) : List String → Durable (List String)
  | [] => return []
  | relative :: rest => do
      let found ← (directExists space (root ++ [.utf8 relative])).attempt
      let others ← existingPaths space root rest
      return match found with
        | .ok true => space.display (root ++ [.utf8 relative]) :: others
        | _ => others

/-- The paths a failed recovery leaves for a person to look at. -/
def retainedPaths : Durable (List String) := do
  let kept ← existingPaths space root ["backups", "discard", "previous-output", "discard-output"]
  return if kept = [] then [space.display root] else kept

def recoveryReport (phase : Option JournalPhase) (commitComplete outputsRecovered : Bool)
    (failures recoveryPaths : List String) : OffprintError :=
  new "offprint.export.output" .commit
      (if outputsRecovered then
        "export outputs were recovered but transaction cleanup remains pending"
      else
        "an incomplete export transaction requires recovery")
    |>.withRetryable outputsRecovered
    |>.withDetail "transactionPath" (.string (space.display root))
    |>.withDetail "phase" (.string (phase.elim "unknown" JournalPhase.debug))
    |>.withDetail "commitComplete" (.bool commitComplete)
    |>.withDetail "rollbackComplete" (.bool outputsRecovered)
    |>.withDetail "partialCommit" (.bool (!commitComplete && !outputsRecovered))
    |>.withDetail "recoveryPending" (.bool true)
    |>.withDetail "recoveryPaths" (.array (recoveryPaths.map .string))
    |>.withDetail "recoveryFailures" (.array (failures.map .string))

def recoveryError (phase : Option JournalPhase) (commitComplete outputsRecovered : Bool)
    (failures : List String) : Durable OffprintError := do
  let recoveryPaths ← retainedPaths space root
  return recoveryReport space root phase commitComplete outputsRecovered failures recoveryPaths

/-- Turn an error into the report of a recovery that it stopped. -/
def orRecoveryError {α : Type} (phase : Option JournalPhase)
    (commitComplete outputsRecovered : Bool) (action : Durable α) : Durable α := do
  match ← action.attempt with
  | .ok value => return value
  | .error error =>
    throw (← recoveryError space root phase commitComplete outputsRecovered [error.display])

/-- Report what went wrong, if anything did. -/
def rejectFailures (phase : Option JournalPhase) (commitComplete : Bool) (failures : List String) :
    Durable Unit :=
  if failures = [] then return ()
  else do throw (← recoveryError space root phase commitComplete false failures)

end Observe

section Rollback

variable (space : TransactionNamespace) (root : Path)

def ensureParent (destination : Path) : Durable Unit := do
  match ← directExists space (parent destination) with
  | true => return ()
  | false => createDirectory (parent destination) .commit

def ensureParentAndMove (source destination : Path) : Durable Unit := do
  ensureParent space destination
  let occupied ← directExists space destination
  failIf occupied (.new "offprint.export.output" .commit
    "export rollback retention path is already occupied")
  let _ ← durableRename source destination

def validateBackupKind (path : Path) (expected : Option OutputKind) : Durable Unit := do
  let metadata ← perform (.metadata path) fun cause =>
    .new "offprint.export.output" .commit
      ("failed to inspect an export rollback backup: " ++ cause.message)
  failIf (metadataKind metadata ≠ expected)
    (new "offprint.export.output" .commit
        "export rollback backup kind does not match its durable journal"
      |>.withDetail "path" (.string (space.display path)))

def entryName (index : Nat) : OsString :=
  .utf8 ("entry-" ++ toString index)

def backupPath (index : Nat) : Path :=
  root ++ [.utf8 "backups", entryName index]

def discardPath (index : Nat) : Path :=
  root ++ [.utf8 "discard", entryName index]

variable [Sha256]

/-- Put the original of an entry back from its backup. -/
def restoreBackup (space : TransactionNamespace) (root : Path) (index : Nat)
    (entry : JournalEntry) : Durable (List String) := do
  let destination := space.outputDirectory ++ [.utf8 entry.destinationName]
  let backup := backupPath root index
  match ← (validateBackupKind space backup entry.previousKind).attempt with
  | .error error => return [error.display]
  | .ok () =>
    match ← (durableRename backup destination).attempt with
    | .error error =>
      return ["failed to restore `" ++ space.display destination ++ "`: " ++ error.display]
    | .ok _ => return []

/-- Undo one entry; what went wrong, if anything. -/
def rollbackEntry (space : TransactionNamespace) (root : Path)
    (limits : ArtifactTransactionLimits) (index : Nat) (entry : JournalEntry) :
    Durable (List String) := do
  let destination := space.outputDirectory ++ [.utf8 entry.destinationName]
  let shown := "`" ++ space.display destination ++ "`"
  let discard := discardPath root index
  match ← (directExists space (backupPath root index)).attempt with
  | .error error => return [error.display]
  | .ok backupExists =>
  match ← (directExists space destination).attempt with
  | .error error => return [error.display]
  | .ok destinationExists =>
  if backupExists then
    if destinationExists then
      if ← pathMatchesEntry destination entry limits then
        match ← (ensureParentAndMove space destination discard).attempt with
        | .error error =>
          return ["failed to retain the committed output " ++ shown ++ " during rollback: " ++
            error.display]
        | .ok () => restoreBackup space root index entry
      else
        return ["destination " ++ shown ++ " changed after Offprint created its backup"]
    else
      restoreBackup space root index entry
  else if entry.existed then
    if !destinationExists then
      return ["original destination " ++ shown ++ " and its backup are both missing"]
    else if ← pathMatchesEntry destination entry limits then
      return ["replacement at " ++ shown ++ " remains but its original backup is missing"]
    else
      return []
  else if !destinationExists then
    return []
  else if ← pathMatchesEntry destination entry limits then
    match ← (ensureParentAndMove space destination discard).attempt with
    | .error error =>
      return ["failed to retract committed output " ++ shown ++ ": " ++ error.display]
    | .ok () => return []
  else
    return ["new destination " ++ shown ++ " does not match the Offprint journal"]

/-- Undo the entries from the last to the first, whatever happens to each. -/
def rollbackEntries (space : TransactionNamespace) (root : Path)
    (limits : ArtifactTransactionLimits) (entries : List JournalEntry) : Durable (List String) :=
  entries.zipIdx.reverse.foldlM (fun failures (entry, index) => do
    return failures ++ (← rollbackEntry space root limits index entry)) []

/-- Put the previous output directory back. -/
def restorePrevious (space : TransactionNamespace) (root : Path) : Durable (List String) := do
  match ← (durableRename (root ++ [.utf8 "previous-output"]) space.outputDirectory).attempt with
  | .error error =>
    return ["failed to restore the previous output directory: " ++ error.display]
  | .ok _ => return []

def rollbackDirectorySwap (space : TransactionNamespace) (root : Path)
    (limits : ArtifactTransactionLimits) (entries : List JournalEntry) : Durable (List String) := do
  let output := space.outputDirectory
  let previous := root ++ [.utf8 "previous-output"]
  let discard := root ++ [.utf8 "discard-output"]
  match ← (directExists space previous).attempt with
  | .error error => return [error.display]
  | .ok previousExists =>
  match ← (directExists space output).attempt with
  | .error error => return [error.display]
  | .ok outputExists =>
  if previousExists then
    if outputExists then
      let complete ← outputMatchesCompleteSet output entries limits
      match ← (directoryIsEmpty space output).attempt with
      | .error error => return [error.display]
      | .ok empty =>
      if complete || empty then
        match ← (directExists space discard).attempt with
        | .error error => return [error.display]
        | .ok true =>
          return ["both committed and retained directory-swap outputs are present"]
        | .ok false =>
          match ← (durableRename output discard).attempt with
          | .error error =>
            return ["failed to retract the committed output directory: " ++ error.display]
          | .ok _ => restorePrevious space root
      else
        return ["output directory changed after Offprint retained the previous directory"]
    else
      restorePrevious space root
  else if !outputExists then
    return ["output directory and its retained predecessor are both missing"]
  else
    match ← (directoryIsEmpty space output).attempt with
    | .ok true => return []
    | .ok false => return ["directory-swap output is present without its retained predecessor"]
    | .error error => return [error.display]

def rollbackOutputs (space : TransactionNamespace) (root : Path)
    (limits : ArtifactTransactionLimits) (journal : TransactionJournal) : Durable (List String) :=
  match journal.mode with
  | .entries => rollbackEntries space root limits journal.entries
  | .directorySwap => rollbackDirectorySwap space root limits journal.entries

def rollbackTransaction (space : TransactionNamespace) (root : Path)
    (limits : ArtifactTransactionLimits) (journal : TransactionJournal) : Durable Unit := do
  let failures ← rollbackOutputs space root limits journal
  rejectFailures space root (some .rollingBack) false failures
  orRecoveryError space root (some .rollingBack) false true
    (syncDirectory space.outputDirectory .commit)
  orRecoveryError space root (some .rollingBack) false true (cleanupTransactionRoot root)

end Rollback

section Recover

variable [Sha256]

def allMatch (space : TransactionNamespace) (limits : ArtifactTransactionLimits) :
    List JournalEntry → Durable Bool
  | [] => return true
  | entry :: rest => do
      if ← pathMatchesEntry (space.outputDirectory ++ [.utf8 entry.destinationName]) entry
          limits then
        allMatch space limits rest
      else
        return false

variable (space : TransactionNamespace) (root : Path) (limits : ArtifactTransactionLimits)
  (journal : TransactionJournal)

def outputsComplete : Durable Bool :=
  match journal.mode with
  | .entries => allMatch space limits journal.entries
  | .directorySwap => outputMatchesCompleteSet space.outputDirectory journal.entries limits

def finalizeCommitted : Durable Unit := do
  let complete ← outputsComplete space limits journal
  rejectFailures space root (some .committed) true
    (if complete then [] else ["committed output set no longer matches its durable journal"])
  orRecoveryError space root (some .committed) true true (cleanupTransactionRoot root)

/-- A transaction directory without a valid journal is removed if nothing is in it. -/
def recoverUnknown : Durable Unit := do
  let empty ← orRecoveryError space root none false false (directoryIsEmpty space root)
  rejectFailures space root none false
    (if empty then [] else ["transaction directory has no valid durable journal"])
  cleanupTransactionRoot root

def recoverJournal (root : Path) (journal : TransactionJournal) : Durable Unit := do
  match journal.phase with
  | .staging | .prepared =>
    orRecoveryError space root (some journal.phase) false true (cleanupTransactionRoot root)
  | .mutating =>
    let store ← orRecoveryError space root (some .mutating) false false
      ((JournalStore.fromSnapshot root journal).persist .rollingBack)
    rollbackTransaction space root limits store.snapshot
  | .rollingBack => rollbackTransaction space root limits journal
  | .committed => finalizeCommitted space root limits journal

def recoverRoot (root : Path) : Durable Unit := do
  match ← orRecoveryError space root none false false
      (loadLatestJournal root space.identity) with
  | none => recoverUnknown space root
  | some journal => recoverJournal space limits root journal

def recoverPendingTransactions : Durable Unit := do
  let roots ← space.transactionRoots
  roots.forM (recoverRoot space limits)

end Recover
end Offprint.Artifact
