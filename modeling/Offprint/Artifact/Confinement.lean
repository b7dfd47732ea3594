import Offprint.Artifact.Committing
import Offprint.Effect.Footprint

/-!
# What recovery and staging leave alone

Recovering a transaction directory changes that directory and the output, whatever
either holds; staging changes the transaction directory it fills.
-/

namespace Offprint.Artifact

open Data Effect Model List Action

variable {source destination : Path}

section Operations

variable {inside : Path → Prop} {path : Path}

theorem confined_perform_at
    {op : FileOp OsString} (only : op.changes = [path]) (within : inside path)
    (wrap : IoError → OffprintError) : (perform op wrap).run.Confined inside := by
  apply each_perform
  rw [only]
  exact fun place member => mem_singleton.mp member ▸ within

theorem confined_syncDirectory (path : Path) (stage : ErrorStage) :
    (syncDirectory path stage).run.Confined inside :=
  each_perform (fun _ member => nomatch member) _

theorem confined_createDirectory (within : inside path) (stage : ErrorStage) :
    (createDirectory path stage).run.Confined inside := by
  unfold createDirectory
  refine each_bind (confined_perform_at rfl within _) fun _ => ?_
  exact each_bind (confined_syncDirectory _ _) fun _ => confined_syncDirectory _ _

theorem confined_writeNewFile (within : inside path) (bytes : List UInt8) (stage : ErrorStage) :
    (writeNewFile path bytes stage).run.Confined inside := by
  unfold writeNewFile
  refine each_bind (confined_perform_at rfl within _) fun _ => ?_
  refine each_bind (confined_perform_at rfl within _) fun _ => ?_
  refine each_bind (each_perform (fun _ member => nomatch member) _) fun _ => ?_
  exact confined_syncDirectory _ _

theorem confined_syncParents (source destination : Path) :
    (syncParents source destination).run.Confined inside := by
  unfold syncParents
  refine each_bind (confined_syncDirectory _ _) fun _ => ?_
  split
  · exact confined_syncDirectory _ _
  · exact each_pure ()

theorem confined_durableRename (leaving : inside source) (arriving : inside destination) :
    (durableRename source destination).run.Confined inside := by
  unfold durableRename
  refine each_bind (confined_syncParents _ _) fun _ => ?_
  refine each_bind (each_perform ?_ _) fun _ => ?_
  · intro place member
    rcases mem_cons.mp member with rfl | last
    · exact leaving
    · exact mem_singleton.mp last ▸ arriving
  · refine each_bind (each_attempt (confined_syncParents _ _)) fun result => ?_
    cases result <;> exact each_pure _

theorem confined_removeDirectPath (within : inside path) :
    (removeDirectPath path).run.Confined inside := by
  unfold removeDirectPath
  refine each_bind (each_perform (fun _ member => nomatch member) _) ?_
  intro metadata
  cases metadata.kind with
  | symlink | file | directory => exact confined_perform_at rfl within _
  | special => exact each_throw _

end Operations

section Recovery

def Recovers (space : TransactionNamespace) (root place : Path) : Prop :=
  root <+: place ∨ space.outputDirectory <+: place

variable {space : TransactionNamespace} {root : Path}

theorem recovers_root (rest : Path) : Recovers space root (root ++ rest) :=
  .inl (prefix_append root rest)

theorem confined_cleanupTransactionRoot :
    (cleanupTransactionRoot root).run.Confined (Recovers space root) := by
  unfold cleanupTransactionRoot
  refine each_bind (each_perform (fun _ member => nomatch member) _) ?_
  intro names
  refine each_bind (each_forM fun name _ =>
    confined_removeDirectPath (recovers_root _)) fun _ => ?_
  refine each_bind (confined_syncDirectory _ _) fun _ => ?_
  refine each_bind (each_forM fun name _ => ?_) fun _ => ?_
  · exact each_bind (confined_removeDirectPath (recovers_root _)) fun _ =>
      confined_syncDirectory _ _
  · refine each_bind (confined_perform_at rfl (.inl (prefix_refl root)) _) fun _ => ?_
    exact confined_syncDirectory _ _

theorem reading_directoryIsEmpty (path : Path) : (directoryIsEmpty space path).run.Reading := by
  unfold directoryIsEmpty
  refine each_bind (reading_perform rfl _) fun metadata => ?_
  refine each_bind (each_failIf _ _) fun _ => ?_
  exact each_bind (reading_perform rfl _) fun _ => each_pure _

theorem reading_existingPaths (names : List String) :
    (existingPaths space root names).run.Reading := by
  induction names with
  | nil => exact each_pure _
  | cons name names ih =>
    unfold existingPaths
    refine each_bind (each_attempt (reading_directExists _ _)) fun _ => ?_
    exact each_bind ih fun _ => each_pure _

variable (phase : Option JournalPhase) (identity : String) (index : Nat) (entry : JournalEntry)
  {inside : Path → Prop}

theorem reading_recoveryError (complete recovered : Bool) (failures : List String) :
    (recoveryError space root phase complete recovered failures).run.Reading := by
  unfold recoveryError retainedPaths
  refine each_bind ?_ fun _ => each_pure _
  exact each_bind (reading_existingPaths _) fun _ => each_pure _

theorem reading_rejectFailures (complete : Bool) (failures : List String) :
    (rejectFailures space root phase complete failures).run.Reading := by
  unfold rejectFailures
  split
  · exact each_pure ()
  · exact each_bind (reading_recoveryError _ _ _ _) fun _ => each_throw _

theorem confined_orRecoveryError {α : Type} {action : Durable α}
    (confined : action.run.Confined inside) (phase : Option JournalPhase)
    (complete recovered : Bool) :
    (orRecoveryError space root phase complete recovered action).run.Confined inside := by
  unfold orRecoveryError
  refine each_bind (each_attempt confined) fun result => ?_
  cases result with
  | ok value => exact each_pure value
  | error error =>
    exact each_bind ((reading_recoveryError _ _ _ _).confined _) fun _ => each_throw _

theorem confined_persist (store : JournalStore) (located : store.root = root)
    (phase : JournalPhase) : (store.persist phase).run.Confined (Recovers space root) := by
  unfold JournalStore.persist
  refine each_bind (each_failIf _ _) fun _ => ?_
  refine each_bind (confined_writeNewFile ?_ _ _) fun _ => each_pure _
  rw [located]
  exact recovers_root _

theorem reading_loadSnapshot (current : Option TransactionJournal) (name : OsString) :
    (loadSnapshot root identity current name).run.Reading := by
  unfold loadSnapshot
  refine each_bind (reading_perform rfl _) fun metadata => ?_
  split
  · exact each_pure current
  · unfold readSnapshot
    refine each_bind (reading_perform rfl _) fun _ => ?_
    refine each_bind (reading_perform rfl _) fun bytes => ?_
    split <;> exact each_pure _

theorem reading_loadLatestJournal : (loadLatestJournal root identity).run.Reading := by
  unfold loadLatestJournal
  refine each_bind (reading_perform rfl _) fun names => ?_
  refine each_bind (each_failIf _ _) fun _ => ?_
  exact each_foldlM (reading_loadSnapshot identity) _ _

theorem confined_ensureParentAndMove (leaving : inside source) (arriving : inside destination)
    (above : inside (parent destination)) :
    (ensureParentAndMove space source destination).run.Confined inside := by
  unfold ensureParentAndMove
  refine each_bind ?_ fun _ => ?_
  · unfold ensureParent
    refine each_bind ((reading_directExists _ _).confined _) fun present => ?_
    cases present with
    | true => exact each_pure ()
    | false => exact confined_createDirectory above _
  · refine each_bind ((reading_directExists _ _).confined _) fun occupied => ?_
    refine each_bind (each_failIf _ _) fun _ => ?_
    exact each_bind (confined_durableRename leaving arriving) fun _ => each_pure _

theorem confined_restoreBackup :
    (restoreBackup space root index entry).run.Confined (Recovers space root) := by
  unfold restoreBackup
  refine each_bind (each_attempt ?_) fun checked => ?_
  · unfold validateBackupKind
    refine each_bind (each_perform (fun _ member => nomatch member) _) fun _ => ?_
    exact each_failIf _ _
  · cases checked with
    | error error => exact each_pure _
    | ok _ =>
      refine each_bind (each_attempt
        (confined_durableRename (recovers_root _) (.inr (prefix_append _ _)))) fun moved => ?_
      cases moved <;> exact each_pure _

theorem confined_retire :
    (ensureParentAndMove space (space.outputDirectory ++ [.utf8 entry.destinationName])
      (discardPath root index)).run.Confined (Recovers space root) := by
  refine confined_ensureParentAndMove (.inr (prefix_append _ _)) (recovers_root _) ?_
  rw [show parent (discardPath root index) = root ++ [.utf8 "discard"] by
    rw [parent, discardPath, append_cons, dropLast_concat]]
  exact recovers_root _

theorem confined_restorePrevious :
    (restorePrevious space root).run.Confined (Recovers space root) := by
  unfold restorePrevious
  refine each_bind (each_attempt
    (confined_durableRename (recovers_root _) (.inr (prefix_refl _)))) fun moved => ?_
  cases moved <;> exact each_pure _

variable [Sha256] {limits : ArtifactTransactionLimits}

theorem confined_rollbackEntry (index : Nat) (entry : JournalEntry) :
    (rollbackEntry space root limits index entry).run.Confined (Recovers space root) := by
  unfold rollbackEntry
  refine each_bind (each_attempt ((reading_directExists _ _).confined _)) ?_
  intro backup
  cases backup with
  | error error => exact each_pure _
  | ok backupExists =>
  refine each_bind (each_attempt ((reading_directExists _ _).confined _)) ?_
  intro destination
  cases destination with
  | error error => exact each_pure _
  | ok destinationExists =>
  dsimp only
  split
  · split
    · refine each_bind ((reading_pathMatchesEntry _ _ _).confined _) fun same => ?_
      split
      · refine each_bind (each_attempt (confined_retire index entry)) fun moved => ?_
        cases moved with
        | error error => exact each_pure _
        | ok _ => exact confined_restoreBackup index entry
      · exact each_pure _
    · exact confined_restoreBackup index entry
  · split
    · split
      · exact each_pure _
      · refine each_bind ((reading_pathMatchesEntry _ _ _).confined _) fun same => ?_
        split <;> exact each_pure _
    · split
      · exact each_pure _
      · refine each_bind ((reading_pathMatchesEntry _ _ _).confined _) fun same => ?_
        split
        · refine each_bind (each_attempt (confined_retire index entry)) fun moved => ?_
          cases moved <;> exact each_pure _
        · exact each_pure _

theorem confined_rollbackDirectorySwap (entries : List JournalEntry) :
    (rollbackDirectorySwap space root limits entries).run.Confined (Recovers space root) := by
  have empty : ((directoryIsEmpty space space.outputDirectory).attempt).run.Confined
      (Recovers space root) :=
    each_attempt ((reading_directoryIsEmpty _).confined _)
  unfold rollbackDirectorySwap
  refine each_bind (each_attempt ((reading_directExists _ _).confined _)) ?_
  intro previous
  cases previous with
  | error error => exact each_pure _
  | ok previousExists =>
  refine each_bind (each_attempt ((reading_directExists _ _).confined _)) ?_
  intro output
  cases output with
  | error error => exact each_pure _
  | ok outputExists =>
  dsimp only
  split
  · split
    · refine each_bind ?_ fun complete => ?_
      · unfold outputMatchesCompleteSet
        refine each_bind (each_attempt
          ((reading_validateCompleteOutputSet _).confined _)) fun _ => each_pure _
      · refine each_bind empty fun emptied => ?_
        cases emptied with
        | error error => exact each_pure _
        | ok emptied =>
        dsimp only
        split
        · refine each_bind (each_attempt ((reading_directExists _ _).confined _)) ?_
          intro discarded
          match discarded with
          | .error error | .ok true => exact each_pure _
          | .ok false =>
            refine each_bind (each_attempt
              (confined_durableRename (.inr (prefix_refl _)) (recovers_root _))) ?_
            intro moved
            cases moved with
            | error error => exact each_pure _
            | ok _ => exact confined_restorePrevious
        · exact each_pure _
    · exact confined_restorePrevious
  · split
    · exact each_pure _
    · refine each_bind empty fun emptied => ?_
      match emptied with
      | .error error | .ok true | .ok false => exact each_pure _

section

variable (journal : TransactionJournal)
include journal

theorem confined_rollbackTransaction :
    (rollbackTransaction space root limits journal).run.Confined (Recovers space root) := by
  unfold rollbackTransaction
  refine each_bind ?_ fun failures => ?_
  · unfold rollbackOutputs
    cases journal.mode with
    | directorySwap => exact confined_rollbackDirectorySwap _
    | entries =>
      refine each_foldlM (fun failures slot => ?_) _ _
      exact each_bind (confined_rollbackEntry _ _) fun _ => each_pure _
  · refine each_bind ((reading_rejectFailures _ _ _).confined _) fun _ => ?_
    refine each_bind (confined_orRecoveryError (confined_syncDirectory _ _) _ _ _) fun _ => ?_
    exact confined_orRecoveryError confined_cleanupTransactionRoot _ _ _

theorem confined_finalizeCommitted :
    (finalizeCommitted space root limits journal).run.Confined (Recovers space root) := by
  unfold finalizeCommitted
  refine each_bind ?_ fun complete => ?_
  · unfold outputsComplete
    cases journal.mode with
    | directorySwap =>
      exact each_bind (each_attempt
        ((reading_validateCompleteOutputSet _).confined _)) fun _ => each_pure _
    | entries =>
      dsimp only
      induction journal.entries with
      | nil => exact each_pure _
      | cons entry entries ih =>
        unfold allMatch
        refine each_bind ((reading_pathMatchesEntry _ _ _).confined _) fun same => ?_
        split
        · exact ih
        · exact each_pure _
  · refine each_bind ((reading_rejectFailures _ _ _).confined _) fun _ => ?_
    exact confined_orRecoveryError confined_cleanupTransactionRoot _ _ _

theorem confined_recoverJournal :
    (recoverJournal space limits root journal).run.Confined (Recovers space root) := by
  unfold recoverJournal
  cases journal.phase with
  | staging | prepared => exact confined_orRecoveryError confined_cleanupTransactionRoot _ _ _
  | mutating =>
    refine each_bind (confined_orRecoveryError
      (confined_persist (JournalStore.fromSnapshot root journal) rfl _) _ _ _) ?_
    exact fun store => confined_rollbackTransaction _
  | rollingBack => exact confined_rollbackTransaction _
  | committed => exact confined_finalizeCommitted _

end

theorem confined_recoverRoot :
    (recoverRoot space limits root).run.Confined (Recovers space root) := by
  unfold recoverRoot
  refine each_bind (confined_orRecoveryError
    ((reading_loadLatestJournal _).confined _) _ _ _) fun found => ?_
  cases found with
  | none =>
    unfold recoverUnknown
    refine each_bind (confined_orRecoveryError
      ((reading_directoryIsEmpty _).confined _) _ _ _) fun empty => ?_
    refine each_bind ((reading_rejectFailures _ _ _).confined _) fun _ => ?_
    exact confined_cleanupTransactionRoot
  | some journal => exact confined_recoverJournal journal

end Recovery
end Offprint.Artifact
