import Offprint.Artifact.Atomicity

/-!
# Originals survive until the commit is recorded

A transaction may be stopped anywhere, by faults, failures and crashes, and its
recovery may be stopped as often.  As long as no run has recorded the commit, what
stood at a destination stands there or in its backup.
-/

namespace Offprint.Artifact

open Data Effect Model FileSystem

section Reachable

variable (transaction : ArtifactTransaction) (program : Program (fileInterface OsString) α)
  {α : Type}

/-- A snapshot of the committed phase is complete on disk. -/
def RecordsCommit (fs : Files) : Prop :=
  ∃ name bytes snapshot, fs.entry (transaction.root ++ [name]) = some (.file bytes) ∧
    acceptSnapshot transaction.root transaction.space.identity name bytes = some snapshot ∧
    snapshot.phase = .committed

/-- A step that does not record the commit; an operation that fails does not deny a path. -/
def Unrecorded (step : Step (fileInterface OsString)) : Prop :=
  (∀ progress, step.event ≠ .fail .notFound progress) ∧ ¬ RecordsCommit transaction step.after

/-- A run ends, by itself or by a crash, without having recorded the commit. -/
def Ends (fs after : Files) : Prop :=
  ∃ schedule, (∀ step ∈ program.trace schedule fs, Unrecorded transaction step) ∧
    match program.run schedule fs with
    | .finished _ state _ => after = state
    | .crashed state => after = state

/-- A run has come to a state and has not recorded the commit. -/
def Passes (fs after : Files) : Prop :=
  ∃ schedule passed last later, program.trace schedule fs = passed ++ last :: later ∧
    (∀ step ∈ passed ++ [last], Unrecorded transaction step) ∧ last.after = after

variable [Sha256]

/-- The states of a staged transaction that are reached before its commit is recorded, while a
process is at work and while none is. -/
inductive Reachable (transaction : ArtifactTransaction) (before : Files) : Bool → Files → Prop where
  | staged : Reachable transaction before false before
  | commit {injector : FaultInjector} {after : Files}
      (ends : Ends transaction (transaction.commitWithInjector injector).run before after) :
      Reachable transaction before false after
  | committing {injector : FaultInjector} {after : Files}
      (passes : Passes transaction (transaction.commitWithInjector injector).run before after) :
      Reachable transaction before true after
  | recover {fs after : Files} (left : Reachable transaction before false fs)
      (ends : Ends transaction
        (recoverPendingTransactions transaction.space transaction.limits).run fs after) :
      Reachable transaction before false after
  | recovering {fs after : Files} (left : Reachable transaction before false fs)
      (passes : Passes transaction
        (recoverPendingTransactions transaction.space transaction.limits).run fs after) :
      Reachable transaction before true after
  | recreate {fs : Files} (left : Reachable transaction before false fs) :
      Reachable transaction before false (recreateOutput transaction.space fs)

end Reachable

section Kept

/-- Everything at or below one path of a file system stands at a path of another. -/
def SameTree (before : Files) (path : Path) (fs : Files) (place : Path) : Prop :=
  ∀ rest, fs.entry (place ++ rest) = before.entry (path ++ rest)

/-- What stood at a destination stands there or in its backup, and an output directory that is
swapped stands in its place or is retained. -/
structure KeepsOriginals (transaction : ArtifactTransaction) (before fs : Files) : Prop where
  destination : ∀ index artifact, transaction.artifacts[index]? = some artifact →
    (before.entry artifact.destination).isSome →
    SameTree before artifact.destination fs artifact.destination ∨
      SameTree before artifact.destination fs (backupPath transaction.root index)
  output : transaction.mode = .directorySwap →
    SameTree before transaction.space.outputDirectory fs transaction.space.outputDirectory ∨
      SameTree before transaction.space.outputDirectory fs
        (transaction.root ++ [.utf8 "previous-output"])

theorem KeepsOriginals.congr {transaction : ArtifactTransaction} {before fs after : Files}
    (keeps : KeepsOriginals transaction before fs)
    (same : ∀ path, after.entry path = fs.entry path) :
    KeepsOriginals transaction before after := by
  refine ⟨fun index artifact located stood => ?_, fun swap => ?_⟩
  · refine (keeps.destination index artifact located stood).imp ?_ ?_ <;>
      exact fun tree rest => (same _).trans (tree rest)
  · refine (keeps.output swap).imp ?_ ?_ <;> exact fun tree rest => (same _).trans (tree rest)

variable [Sha256] {p : PreparedTransaction} {fs : Files}

theorem PreparedTransaction.IsKnown.original
    {slot : JournalEntry × Nat} (known : p.IsKnown fs slot) (existed : slot.1.existed = true) :
    fs.subtree (p.destination slot.1) = p.original slot.1 ∨
      fs.subtree (backupPath p.root slot.2) = p.original slot.1 := by
  rcases known with original | saved | replaced
  · exact .inl original.1
  · exact .inr saved.2.2
  · have backup := replaced.2.2
    rw [if_pos existed] at backup
    exact .inr backup

theorem PreparedTransaction.SwapIs.original
    {swap : PreparedTransaction.Swap} (is : p.SwapIs fs swap) :
    fs.subtree p.output = leaf .directory ∨
      fs.subtree p.previous = leaf .directory := by
  cases swap with
  | untouched => exact .inl is.1
  | moved => exact .inr is.2
  | recreated => exact .inl is.1
  | replaced => exact .inr is.2.1

theorem PreparedTransaction.Working.keepsOriginals (working : p.Working fs) :
    KeepsOriginals p.transaction p.files fs := by
  have byEntries : ∀ {index : Nat} {entry : JournalEntry}, p.entries[index]? = some entry →
      entry.existed = true → p.mode = .entries := by
    intro index entry located existed
    cases mode : p.mode with
    | entries => rfl
    | directorySwap =>
      have absent := p.existed_eq entry (List.mem_of_getElem? located)
      rw [TransactionPlan.destination, p.emptied mode] at absent
      exact Bool.noConfusion (existed.symm.trans absent)
  refine ⟨fun index artifact located stood => ?_, fun swap => ?_⟩
  · obtain ⟨entry, place, rfl⟩ := Option.map_eq_some_iff.mp
      ((List.getElem?_map ..).symm.trans located)
    have existed := (p.existed_eq entry (List.mem_of_getElem? place)).trans stood
    obtain ⟨_, _, slots⟩ := (working_entries_iff (byEntries place existed)).mp working
    have known := slots (entry, index) (List.mk_mem_zipIdx_iff_getElem?.mpr place)
    exact (known.original existed).imp entry_of_subtree_eq entry_of_subtree_eq
  · have emptied : p.files.subtree p.output = leaf .directory :=
      subtree_eq_leaf p.output_eq (p.emptied swap)
    obtain ⟨_, is⟩ := ((working_swap_iff swap).mp working).2
    refine is.original.imp ?_ ?_ <;>
      exact fun only => entry_of_subtree_eq (only.trans emptied.symm)

theorem Open.keepsOriginals (pending : Open p fs) : KeepsOriginals p.transaction p.files fs := by
  rcases pending with ⟨_, restored⟩ | ⟨_, unfinished⟩
  · exact restored.working.keepsOriginals
  · exact unfinished.working.keepsOriginals

end Kept

section Survival

variable (transaction : ArtifactTransaction)

/-- Everything may happen but a failure that denies a path, until the commit is recorded. -/
def unreliable (crash : Files → Prop) : Environment (fileInterface OsString) where
  allowed _ event := ∀ progress, event ≠ .fail .notFound progress
  stop := RecordsCommit transaction
  crash := crash

theorem truthful_unreliable (crash : Files → Prop) : (unreliable transaction crash).Truthful := by
  rintro op error progress allowed rfl
  exact allowed progress rfl

theorem RecordsCommit.congr
    {transaction : ArtifactTransaction} {fs after : Files} (records : RecordsCommit transaction fs)
    (same : ∀ path, after.entry path = fs.entry path) : RecordsCommit transaction after := by
  obtain ⟨name, bytes, snapshot, located, accepted⟩ := records
  exact ⟨name, bytes, snapshot, (same _).trans located, accepted⟩

theorem mortal_unreliable (before : Files) :
    Program.Mortal (unreliable transaction (KeepsOriginals transaction before)) where
  allowed _ _ := nofun
  stop op fs records := RecordsCommit.congr records fun path =>
    (FileOp.entry_interrupted_zero op fs path).symm
  crash op fs keeps := KeepsOriginals.congr keeps fun path =>
    (FileOp.entry_interrupted_zero op fs path).symm

variable [Sha256] {p : PreparedTransaction} {fs after : Files} {injector : FaultInjector}
  {crash : Files → Prop}

theorem recordsCommit_of_journaled (journaled : Journaled p.toTransactionPlan committedPages fs) :
    RecordsCommit p.transaction fs := by
  obtain ⟨located, fits⟩ := journaled.page 3 (by decide)
  exact ⟨_, _, _, located, acceptSnapshot_encode fits (by decide), rfl⟩

theorem wp_commit_unrecorded (pending : ∀ state, Open p state → crash state) :
    (p.transaction.commitWithInjector injector).run.wp (unreliable p.transaction crash)
      (fun _ state => crash state) p.files := by
  refine Action.wp_bind (wp_recordCommit (truthful_unreliable _ _) ?_ ?_ ?_)
  · exact fun state committing => pending state committing.pending
  · exact fun state journaled _ => .inl (recordsCommit_of_journaled journaled)
  · exact fun _ state committing _ => pending state committing.pending

theorem wp_recover_unrecorded (left : Open p fs) (pending : ∀ state, Open p state → crash state) :
    (recoverPendingTransactions p.space p.limits).run.wp (unreliable p.transaction crash)
      (fun _ state => crash state) fs :=
  left.wp_recover (truthful_unreliable _ _) pending
    (fun state gone restored => pending state (.inl ⟨gone, restored⟩))
    fun _ state there => pending state there

theorem Ends.meets {α : Type} {program : Program (fileInterface OsString) α}
    (ends : Ends p.transaction program fs after)
    (holds : program.wp (unreliable p.transaction crash) (fun _ state => crash state) fs) :
    crash after := by
  obtain ⟨schedule, unrecorded, ended⟩ := ends
  rcases Program.wp_run holds schedule fun step member _ => (unrecorded step member).1 with
    ⟨step, member, records⟩ | promised
  · exact absurd records (unrecorded step member).2
  · revert ended promised
    cases program.run schedule fs with
    | finished value state rest | crashed state => exact fun ended promised => ended ▸ promised

theorem Passes.keepsOriginals {α : Type} {program : Program (fileInterface OsString) α}
    (passes : Passes p.transaction program fs after)
    (holds : program.wp (unreliable p.transaction (KeepsOriginals p.transaction p.files))
      (fun _ state => KeepsOriginals p.transaction p.files state) fs) :
    KeepsOriginals p.transaction p.files after := by
  obtain ⟨schedule, passed, last, later, split, unrecorded, rfl⟩ := passes
  exact (mortal_unreliable _ _).wp_passes (fun _ _ keeps => keeps) holds split
    (fun step member _ => (unrecorded step member).1) fun step member => (unrecorded step member).2

theorem Reachable.pending {running : Bool} (reachable : Reachable p.transaction p.files running fs)
    (idle : running = false) : Open p fs := by
  induction reachable with
  | staged =>
    exact open_of_cleaning p.journaled uncommitted_preparedPages
      PreparedTransaction.restored_files (Cleaning.refl p.root p.files)
  | commit ends => exact ends.meets (wp_commit_unrecorded fun _ there => there)
  | committing => cases idle
  | recover left ends ih =>
    exact ends.meets (wp_recover_unrecorded (ih rfl) fun _ there => there)
  | recovering => cases idle
  | recreate left ih => exact (ih rfl).recreate

end Survival

section Sample

attribute [local instance] sampleSha256

end Sample
end Offprint.Artifact
