import Offprint.Artifact.Recovery

/-!
# Artifact transactions

Staging recovers what earlier transactions left behind, plans the destinations and
writes every payload into a fresh transaction directory.  The commit backs the old
outputs up, installs the staged ones and records each phase before it acts on it.  A
failure after the mutating phase is recorded rolls the transaction back, unless it
stands for a crash.
-/

namespace Offprint.Artifact

open Data Effect Model OffprintError

section Fault

inductive FaultPoint where
  | afterJournal (phase : JournalPhase)
  | afterBackup (index : Nat)
  | afterCommit (index : Nat)
  | beforeCleanup
  deriving Repr, DecidableEq

inductive FaultAction where
  | error
  | crash
  deriving Repr, DecidableEq

/-- What to do at each point; a commit passes a point at most once. -/
abbrev FaultInjector : Type := FaultPoint → Option FaultAction

def noFault : FaultInjector := fun _ => none

def FaultPoint.debug : FaultPoint → String
  | .afterJournal phase => "AfterJournal(" ++ phase.debug ++ ")"
  | .afterBackup index => "AfterBackup(" ++ toString index ++ ")"
  | .afterCommit index => "AfterCommit(" ++ toString index ++ ")"
  | .beforeCleanup => "BeforeCleanup"

def injectedFault (point : FaultPoint) (action : FaultAction) : OffprintError :=
  new "offprint.export.output" .commit
      (match action with
      | .error => "injected export transaction failure"
      | .crash => "injected export transaction crash")
    |>.withDetail "faultPoint" (.string point.debug)
    |>.withDetail "injectedCrash" (.bool (action = .crash))

end Fault

structure CommitRequest where
  space : TransactionNamespace
  root : Path
  journal : JournalStore
  artifacts : List StagedArtifact
  conflict : ConflictPolicy
  mode : CommitMode
  limits : ArtifactTransactionLimits

section Errors

variable (space : TransactionNamespace) (root : Path)

def transactionError (message : String) : OffprintError :=
  (new "offprint.export.output" .commit message).withDetail
    "transactionPath" (.string (space.display root))

def preparedCleanupError (source cleanup : OffprintError) : OffprintError :=
  transactionError space root
      "artifact export failed before commit and transaction cleanup remains pending"
    |>.withRetryable true
    |>.withDetail "commitComplete" (.bool false)
    |>.withDetail "rollbackComplete" (.bool true)
    |>.withDetail "cleanupComplete" (.bool false)
    |>.withDetail "recoveryPending" (.bool true)
    |>.withSource (source.withSource cleanup)

def committedRecoveryError (source : OffprintError) : OffprintError :=
  transactionError space root
      "artifact export committed every destination and cleanup remains pending"
    |>.withRetryable true
    |>.withDetail "commitComplete" (.bool true)
    |>.withDetail "rollbackComplete" (.bool false)
    |>.withDetail "partialCommit" (.bool false)
    |>.withDetail "recoveryPending" (.bool true)
    |>.withSource source

def commitConfirmationError (source : OffprintError) : OffprintError :=
  transactionError space root
      ("artifact export installed every destination but durable commit recovery remains " ++
        "pending")
    |>.withRetryable true
    |>.withDetail "commitComplete" (.bool false)
    |>.withDetail "outputsInstalled" (.bool true)
    |>.withDetail "commitStatus" (.string "indeterminate")
    |>.withDetail "rollbackComplete" (.bool false)
    |>.withDetail "partialCommit" (.bool false)
    |>.withDetail "recoveryPending" (.bool true)
    |>.withSource source

def recoveryPendingError (source : OffprintError) : OffprintError :=
  transactionError space root
      "artifact export rollback could not establish a durable recovery phase"
    |>.withDetail "commitComplete" (.bool false)
    |>.withDetail "rollbackComplete" (.bool false)
    |>.withDetail "partialCommit" (.bool true)
    |>.withDetail "recoveryPending" (.bool true)
    |>.withSource source

def rolledBackError (source : OffprintError) : OffprintError :=
  new "offprint.export.output" .commit
      "artifact export commit failed and every destination was restored"
    |>.withDetail "rollbackAttempted" (.bool true)
    |>.withDetail "rollbackComplete" (.bool true)
    |>.withDetail "partialCommit" (.bool false)
    |>.withDetail "recoveryPending" (.bool false)
    |>.withSource source

end Errors

section Mutate

def ensureEmpty (path : Path) (message : String) : Durable Unit := do
  let empty ← outputDirectoryIsEmpty path .commit
  failIf (empty = false) (.new "offprint.export.output" .commit message)

/-- A mutation fails with the error and with how the fault asked to be handled. -/
abbrev Mutation (α : Type) : Type :=
  Action (fileInterface OsString) (OffprintError × FaultAction) α

/-- A failure that no fault point asked for is an ordinary error. -/
def Mutation.lift {α : Type} (action : Durable α) : Mutation α :=
  ExceptT.mk ((fun result => result.mapError fun error => (error, .error)) <$> action.run)

variable (request : CommitRequest) (injector : FaultInjector)

def reach (point : FaultPoint) : Mutation Unit :=
  match injector point with
  | some action => throw (injectedFault point action, action)
  | none => return ()

def backUp (artifact : StagedArtifact) (index : Nat) : Mutation Unit := do
  if artifact.entry.existed then
    let _ ← Mutation.lift (durableRename artifact.destination (backupPath request.root index))
    reach injector (.afterBackup index)

def install (artifact : StagedArtifact) (index : Nat) : Mutation Unit := do
  let _ ← Mutation.lift <|
    match artifact.entry.outputKind with
    | .file => durableHardLink artifact.stagedPath artifact.destination
    | .directory => durableRename artifact.stagedPath artifact.destination
  reach injector (.afterCommit index)

/-- The old outputs go first, all of them before anything is installed. -/
def backUpAll : Mutation Unit :=
  if request.artifacts.any fun artifact => artifact.entry.existed then do
    Mutation.lift (createDirectory (request.root ++ [.utf8 "backups"]) .commit)
    request.artifacts.zipIdx.forM fun (artifact, index) =>
      backUp request injector artifact index
  else
    return ()

def commitEntries : Mutation Unit := do
  backUpAll request injector
  request.artifacts.zipIdx.forM fun (artifact, index) => install injector artifact index

def commitDirectorySwap : Mutation Unit := do
  let output := request.space.outputDirectory
  let previous := request.root ++ [.utf8 "previous-output"]
  let _ ← Mutation.lift (durableRename output previous)
  reach injector (.afterBackup 0)
  Mutation.lift (ensureEmpty previous
    "artifact export directory changed during its directory-swap commit")
  let _ ← Mutation.lift (durableRename (request.root ++ [.utf8 "staged-output"]) output)
  reach injector (.afterCommit 0)

end Mutate

section Commit

variable [Sha256] (request : CommitRequest) (injector : FaultInjector)

def validateBeforeMutation : Durable Unit := do
  validateStagedArtifacts request.artifacts request.limits
  recheckDestinations request.space request.conflict request.artifacts
  match request.mode with
  | .entries => return ()
  | .directorySwap =>
    ensureEmpty request.space.outputDirectory
      "artifact export directory changed before its directory-swap commit"

def validateCommittedOutputs : Durable Unit :=
  match request.mode with
  | .entries => request.artifacts.forM fun artifact =>
    validateEntryPath artifact.destination artifact.entry request.limits
  | .directorySwap =>
    validateCompleteOutputSet request.space.outputDirectory request.journal.snapshot.entries
      request.limits

def cleanPreparedFailure {α : Type} (source : OffprintError) : Durable α := do
  match ← (cleanupTransactionRoot request.root).attempt with
  | .ok () => throw source
  | .error cleanup => throw (preparedCleanupError request.space request.root source cleanup)

def handleMutatingFailure {α : Type} (source : OffprintError) (action : FaultAction) :
    Durable α := do
  match action with
  | .crash => throw ((source.withDetail
      "transactionPath" (.string (request.space.display request.root))).withDetail
        "recoveryPending" (.bool true))
  | .error =>
    match ← (request.journal.persist .rollingBack).attempt with
    | .error error =>
      throw (recoveryPendingError request.space request.root (source.withSource error))
    | .ok journal =>
      match ← (rollbackTransaction request.space request.root request.limits
          journal.snapshot).attempt with
      | .ok () => throw (rolledBackError source)
      | .error recovery => throw (recovery.withSource source)

def buildResult (artifact : StagedArtifact) : ExportedArtifact :=
  let path := request.space.display
    (request.space.outputDirectory ++ [.utf8 artifact.entry.destinationName])
  { format := artifact.entry.format
    path := path
    entrypoint := artifact.entry.entrypoint.elim path fun relative => path ++ "/" ++ relative
    bytes := artifact.entry.verification.bytes
    sha256 := artifact.entry.verification.sha256
    verification := artifact.entry.verification }

/-- Change the outputs and check what has become of them. -/
def mutateOutputs : Mutation Unit := do
  reach injector (.afterJournal .mutating)
  match request.mode with
  | .entries => commitEntries request injector
  | .directorySwap => commitDirectorySwap request injector
  Mutation.lift (validateCommittedOutputs request)

def confirmCommit : Durable JournalStore := do
  syncDirectory request.space.outputDirectory .commit
  request.journal.persist .committed

/-- A commit from the recorded mutating phase to the recorded committed phase. -/
def mutate : Durable JournalStore := do
  match ← ExceptT.lift (mutateOutputs request injector).run with
  | .error (error, action) => handleMutatingFailure request error action
  | .ok () =>
    match ← (confirmCommit request).attempt with
    | .error error => throw (commitConfirmationError request.space request.root error)
    | .ok journal => return journal

/-- The commit up to the point where the committed phase is recorded. -/
def recordCommit : Durable JournalStore := do
  match ← (validateBeforeMutation request).attempt with
  | .error error => cleanPreparedFailure request error
  | .ok () =>
  match ← (request.journal.persist .mutating).attempt with
  | .error error => cleanPreparedFailure request error
  | .ok journal => mutate { request with journal := journal } injector

def passCommitted (point : FaultPoint) : Durable Unit :=
  match injector point with
  | some action =>
    throw (committedRecoveryError request.space request.root (injectedFault point action))
  | none => return ()

/-- The end of a commit, once the committed phase is recorded. -/
def finishCommit (journal : JournalStore) : Durable (List ExportedArtifact) := do
  passCommitted request injector (.afterJournal .committed)
  passCommitted request injector .beforeCleanup
  finalizeCommitted request.space request.root request.limits journal.snapshot
  return request.artifacts.map (buildResult request)

def commitTransaction : Durable (List ExportedArtifact) := do
  let journal ← recordCommit request injector
  finishCommit request injector journal

end Commit

structure ArtifactTransaction where
  space : TransactionNamespace
  root : Path
  journal : JournalStore
  artifacts : List StagedArtifact
  conflict : ConflictPolicy
  mode : CommitMode
  limits : ArtifactTransactionLimits

namespace ArtifactTransaction

variable (space : TransactionNamespace) (root : Path)

def stagePendingError (source cleanup : OffprintError) : OffprintError :=
  new "offprint.export.output" .encoding
      "artifact export staging failed and durable cleanup remains pending"
    |>.withRetryable true
    |>.withDetail "transactionPath" (.string (space.display root))
    |>.withDetail "recoveryPending" (.bool true)
    |>.withSource (source.withSource cleanup)

def cleanStageFailure {α : Type} (source : OffprintError) : Durable α := do
  match ← (cleanupTransactionRoot root).attempt with
  | .ok () => throw source
  | .error cleanup => throw (stagePendingError space root source cleanup)

def stageFault {α : Type} (point : FaultPoint) (action : FaultAction) : Durable α :=
  match action with
  | .crash => throw (((injectedFault point action).withDetail
      "transactionPath" (.string (space.display root))).withDetail
        "recoveryPending" (.bool true))
  | .error => cleanStageFailure space root (injectedFault point action)

/-- Clean the transaction directory up when a step of the staging fails. -/
def orCleanUp {α : Type} (action : Durable α) : Durable α := do
  match ← action.attempt with
  | .ok value => return value
  | .error error => cleanStageFailure space root error

def stagePoint (injector : FaultInjector) (point : FaultPoint) : Durable Unit :=
  match injector point with
  | some action => stageFault space root point action
  | none => return ()

variable [Sha256]

def stageInto (space : TransactionNamespace) (conflict : ConflictPolicy)
    (prepared : List PreparedArtifact) (limits : ArtifactTransactionLimits) (mode : CommitMode)
    (plans : List DestinationPlan) (injector : FaultInjector) (root : Path) :
    Durable ArtifactTransaction := do
  let store ← orCleanUp space root
    (JournalStore.new root space.identity mode (plans.map DestinationPlan.entry))
  let staging ← orCleanUp space root (store.persist .staging)
  stagePoint space root injector (.afterJournal .staging)
  let artifacts ← orCleanUp space root (stageArtifacts root prepared plans limits)
  orCleanUp space root (validateStagedArtifacts artifacts limits)
  let journal ← orCleanUp space root (staging.persist .prepared)
  stagePoint space root injector (.afterJournal .prepared)
  return ⟨space, root, journal, artifacts, conflict, mode, limits⟩

/-- Stage under the name that was drawn for the transaction directory. -/
def stageWithInjector (space : TransactionNamespace) (conflict : ConflictPolicy)
    (prepared : List PreparedArtifact) (limits : ArtifactTransactionLimits) (drawn : String)
    (injector : FaultInjector) : Durable ArtifactTransaction := do
  validatePreparedArtifacts prepared limits
  space.acquire
  recoverPendingTransactions space limits
  let (mode, plans) ← planDestinations space conflict prepared
  let root ← space.createTransactionRoot (transactionPrefix ++ drawn)
  stageInto space conflict prepared limits mode plans injector root

def stage (space : TransactionNamespace) (conflict : ConflictPolicy)
    (prepared : List PreparedArtifact) (limits : ArtifactTransactionLimits) (drawn : String) :
    Durable ArtifactTransaction :=
  stageWithInjector space conflict prepared limits drawn noFault

def commitWithInjector (transaction : ArtifactTransaction) (injector : FaultInjector) :
    Durable (List ExportedArtifact) :=
  commitTransaction
    ⟨transaction.space, transaction.root, transaction.journal, transaction.artifacts,
      transaction.conflict, transaction.mode, transaction.limits⟩ injector

def commit (transaction : ArtifactTransaction) : Durable (List ExportedArtifact) :=
  transaction.commitWithInjector noFault

end ArtifactTransaction
end Offprint.Artifact
