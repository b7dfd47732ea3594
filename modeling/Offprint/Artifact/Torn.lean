import Offprint.Artifact.Atomicity

/-!
# Torn snapshots

A process that dies while it records a phase leaves part of a snapshot.  The loader
passes over it, but its file stays in the way of the next snapshot, which goes by the
same number, and a first snapshot that is torn leaves no readable journal at all.
-/

namespace Offprint.Artifact

open Data Effect Model Environment Action JournalStore

section Phases

/-- The number under which a transaction records a phase. -/
def JournalPhase.sequence : JournalPhase → UInt32
  | .staging => 0
  | .prepared => 1
  | .mutating => 2
  | .rollingBack | .committed => 3

/-- What a transaction has recorded when it comes to record a phase. -/
def pagesBefore : JournalPhase → Pages
  | .staging => fun _ => .absent
  | .prepared => fun sequence => if sequence = 0 then .full .staging else .absent
  | .mutating => preparedPages
  | .rollingBack | .committed => mutatingPages

variable (plan : TransactionPlan) (phase : JournalPhase)

def TransactionPlan.storeBefore : JournalPhase → JournalStore
  | .staging => ⟨plan.root, plan.snapshot .staging 0, 0⟩
  | .prepared => ⟨plan.root, plan.snapshot .staging 0, 1⟩
  | .mutating => ⟨plan.root, plan.snapshot .prepared 1, 2⟩
  | .rollingBack | .committed => ⟨plan.root, plan.snapshot .mutating 2, 3⟩

def TransactionPlan.page (phase : JournalPhase) : Path :=
  plan.root ++ [fileName phase.sequence]

theorem JournalPhase.sequence_mem : phase.sequence ∈ sequences := by
  cases phase <;> decide

theorem pagesBefore_sequence : pagesBefore phase phase.sequence = .absent := by
  cases phase <;> rfl

theorem TransactionPlan.storeBefore_eq :
    ∃ recorded before, plan.storeBefore phase =
      ⟨plan.root, plan.snapshot recorded before, phase.sequence⟩ := by
  cases phase <;> exact ⟨_, _, rfl⟩

end Phases

section Tear

variable {plan : TransactionPlan} {phase : JournalPhase} {fs after : Files}

theorem Housed.change (housed : Housed plan fs)
    (same : FileSystem.SameOutside [plan.page phase] fs after) : Housed plan after := by
  have away : ∀ path, ¬ plan.root <+: path → after.entry path = fs.entry path :=
    fun path outside => same.entry_one fun reaches =>
      outside ((List.prefix_append _ _).trans reaches)
  refine ⟨?_, ?_⟩
  · rw [away _ not_child_reaches_self]
    exact housed.directory
  · intro child present
    by_cases own : child = .utf8 plan.name
    · exact .inr own
    · rw [away _ (not_child_reaches own)] at present
      exact housed.alone child present

/-- A process may die at any operation, and nothing else goes wrong. -/
def dying (crash : Files → Prop) : Environment (fileInterface OsString) where
  allowed _ event := ∃ progress, event = .crash progress
  stop _ := False
  crash := crash

theorem dying_reliable (crash : Files → Prop) : (dying crash).Reliable := by
  rintro op error progress ⟨_, same⟩
  cases same

section

variable (journaled : Journaled plan (pagesBefore phase) fs)
include journaled

theorem Journaled.absent : fs.entry (plan.page phase) = none := by
  have page := journaled.page phase.sequence phase.sequence_mem
  rw [pagesBefore_sequence] at page
  exact page

/-- A process that died while it recorded a phase and left something other than the snapshot
has torn the page of that phase and nothing else. -/
theorem torn_of_dies {crashed : Files} {bytes : List UInt8} (housed : Housed plan fs)
    (dies : ((plan.storeBefore phase).persist phase).run.DiesIn (fun _ => True) fs crashed)
    (left : crashed.entry (plan.page phase) = some (.file bytes))
    (proper : bytes ≠ (plan.snapshot phase phase.sequence).encode) :
    Journaled plan (Function.update (pagesBefore phase) phase.sequence .torn) crashed ∧
      Housed plan crashed := by
  obtain ⟨schedule, ended, deadly⟩ := dies
  obtain ⟨recorded, before, stored⟩ := plan.storeBefore_eq phase
  have absent := journaled.absent
  have holds : ((plan.storeBefore phase).persist phase).run.wp
      (dying fun state => state.entry (plan.page phase) = none ∨ state.entry (plan.page phase) =
          some (.file (plan.snapshot phase phase.sequence).encode) ∨
        Journaled plan (Function.update (pagesBefore phase) phase.sequence .torn) state ∧
          Housed plan state) (fun _ _ => True) fs := by
    refine journaled.wp_persist stored phase.sequence_mem (pagesBefore_sequence phase)
      ⟨.inl absent, fun _ _ => trivial⟩ (fun _ _ => trivial) ?_ ?_
    · intro _ state written _
      have page := written.page phase.sequence phase.sequence_mem
      rw [Function.update_self] at page
      exact .inr ⟨⟨.inr (.inl page.1), fun _ _ => trivial⟩, trivial⟩
    · intro state torn same
      exact ⟨fun _ => .inr (.inr (.inr ⟨torn, housed.change same⟩)), fun unreliable =>
        absurd (dying_reliable _) unreliable⟩
  have promised := Program.wp_run_of_never_stops holds (fun _ stopped => stopped) schedule
    fun step member moved => (deadly step member moved).1
  rw [ended] at promised
  rcases promised with none | full | torn
  · rw [left] at none
    cases none
  · rw [left] at full
    cases full
    exact absurd rfl proper
  · exact torn

theorem dies_recording (fits : plan.fits phase phase.sequence) :
    ∃ crashed, ((plan.storeBefore phase).persist phase).run.DiesIn (fun _ => True) fs crashed ∧
      crashed.entry (plan.page phase) = some (.file []) := by
  obtain ⟨recorded, before, stored⟩ := plan.storeBefore_eq phase
  have directory : fs.entry (parent (plan.page phase)) = some .directory :=
    (congrArg fs.entry (plan.parent_child _)).trans journaled.directory
  obtain ⟨created, begun, new⟩ := FileOp.run_createNew journaled.absent directory
  refine ⟨(FileOp.append (plan.page phase) (plan.snapshot phase phase.sequence).encode).interrupted
    0 created, ?_, ?_⟩
  · rw [stored]
    refine dies_after (exec_failIf (Nat.not_lt.mpr fits) _) (dies_bind ?_ _)
    exact dies_after (exec_perform_ok begun)
      (dies_bind (dies_perform ⟨⟩ 0) _)
  · rw [FileOp.entry_interrupted_zero]
    exact new.entry

end

theorem encode_ne_nil (journal : TransactionJournal) : journal.encode ≠ [] := by
  intro empty
  have decoded := journal.decode_encode
  rw [empty] at decoded
  cases decoded

end Tear

section Recover

variable [Sha256] {plan : TransactionPlan} {limits : ArtifactTransactionLimits}
  {phase : JournalPhase} {pages : Pages} {fs : Files}

section

variable (journaled : Journaled plan pages fs) (housed : Housed plan fs) {sequence : UInt32}
include journaled housed

theorem Journaled.exec_recover
    (outcome : Except OffprintError Unit → Prop)
    (recovered : (match pages.latest with
      | none => recoverUnknown plan.space plan.root
      | some found => recoverJournal plan.space limits plan.root
          (plan.snapshot found.1 found.2)).run.wp
      (faultFree (fileInterface OsString)) (fun result _ => outcome result) fs) :
    outcome ((recoverPendingTransactions plan.space limits).run.exec fs).1 := by
  suffices promised : (recoverRoot plan.space limits plan.root).run.wp
      (faultFree (fileInterface OsString)) (fun result _ => outcome result) fs from
    Program.wp_exec (housed.wp_recover_root journaled.directory safe_faultFree promised)
      fun _ stopped => stopped
  unfold recoverRoot
  refine wp_bind (wp_orRecoveryError (journaled.wp_load safe_faultFree ?_))
  cases latest : pages.latest with
  | none | some found =>
    rw [latest] at recovered
    exact recovered

theorem Journaled.recover_unreadable (unreadable : pages.latest = none)
    (small : sequence ∈ sequences) (present : pages sequence ≠ .absent) :
    ((recoverPendingTransactions plan.space limits).run.exec fs).1 ≠ .ok () := by
  refine journaled.exec_recover housed (· ≠ .ok ()) ?_
  rw [unreadable]
  refine journaled.wp_recoverUnknown (fun _ _ => trivial) ?_ fun _ _ _ _ => nofun
  intro after _ _ bare
  have occupied := (journaled.page sequence small).isSome_iff.mpr present
  rw [bare] at occupied
  cases occupied

theorem Journaled.recover_idle (idle : phase = .staging ∨ phase = .prepared)
    (latest : pages.latest = some (phase, sequence)) :
    ((recoverPendingTransactions plan.space limits).run.exec fs).1 = .ok () := by
  refine journaled.exec_recover housed (· = .ok ()) ?_
  rw [latest]
  rcases idle with rfl | rfl <;>
    exact wp_orRecoveryError (journaled.wp_cleanup (fun _ _ => safe_faultFree) fun _ _ _ => rfl)

end

theorem recoverJournal_mutating (sequence : UInt32) :
    recoverJournal plan.space limits plan.root (plan.snapshot .mutating sequence) =
      (orRecoveryError plan.space plan.root (some .mutating) false false
        ((fromSnapshot plan.root (plan.snapshot .mutating sequence)).persist
          .rollingBack) >>=
        fun store => rollbackTransaction plan.space plan.root limits store.snapshot) :=
  rfl

theorem Journaled.recover_occupied (journaled : Journaled plan pages fs) (housed : Housed plan fs)
    (latest : pages.latest = some (.mutating, 2)) (present : pages 3 ≠ .absent) :
    ((recoverPendingTransactions plan.space limits).run.exec fs).1 ≠ .ok () := by
  refine journaled.exec_recover housed (· ≠ .ok ()) ?_
  simp only [latest, recoverJournal_mutating]
  have stored : fromSnapshot plan.root (plan.snapshot .mutating 2) =
      ⟨plan.root, plan.snapshot .mutating 2, 3⟩ := rfl
  refine wp_bind (wp_orRecoveryError ?_)
  refine journaled.wp_persist_occupied stored (by decide) present trivial fun error => ?_
  exact ⟨trivial, fun _ => nofun⟩

/-- A transaction with a torn page is recovered if it was not the first and does not stand in the
way of the rollback. -/
theorem recovers_torn_page_iff (journaled : Journaled plan
      (Function.update (pagesBefore phase) phase.sequence .torn) fs) (housed : Housed plan fs) :
    ((recoverPendingTransactions plan.space limits).run.exec fs).1 = .ok () ↔
      phase = .prepared ∨ phase = .mutating := by
  cases phase with
  | staging =>
    have stuck := @Journaled.recover_unreadable _ plan limits _ fs journaled housed 0 rfl
      (by decide) nofun
    exact iff_of_false stuck (by decide)
  | prepared => exact iff_of_true (journaled.recover_idle housed (.inl rfl) rfl) (by decide)
  | mutating => exact iff_of_true (journaled.recover_idle housed (.inr rfl) rfl) (by decide)
  | rollingBack | committed =>
    exact iff_of_false (journaled.recover_occupied housed rfl nofun) (by decide)

/-- A recovery after a process died while it recorded a phase, and left part of the snapshot,
succeeds exactly if the phase was the prepared or the mutating one. -/
theorem recovers_torn_snapshot_iff {crashed : Files} {bytes : List UInt8}
    (journaled : Journaled plan (pagesBefore phase) fs) (housed : Housed plan fs)
    (dies : ((plan.storeBefore phase).persist phase).run.DiesIn (fun _ => True) fs crashed)
    (left : crashed.entry (plan.page phase) = some (.file bytes))
    (proper : bytes ≠ (plan.snapshot phase phase.sequence).encode) :
    ((recoverPendingTransactions plan.space limits).run.exec crashed).1 = .ok () ↔
      phase = .prepared ∨ phase = .mutating := by
  obtain ⟨torn, house⟩ := torn_of_dies journaled housed dies left proper
  exact recovers_torn_page_iff torn house

end Recover

section Sample

attribute [local instance] sampleSha256

/-- A process that dies while it records the mutating phase leaves something to recover. -/
theorem recovers_torn_mutating :
    ∃ (plan : TransactionPlan) (fs crashed : Files),
      ((plan.storeBefore .mutating).persist .mutating).run.DiesIn (fun _ => True) fs crashed ∧
      (((recoverPendingTransactions plan.space sampleLimits).run.exec crashed).1 = .ok () ↔
        JournalPhase.mutating = .prepared ∨ JournalPhase.mutating = .mutating) := by
  obtain ⟨transaction, before, staged, fits⟩ := staged_longer_file
  obtain ⟨p, rfl, rfl⟩ := prepared_of_stage staged
  obtain ⟨crashed, dies, left⟩ := @dies_recording p.toTransactionPlan .mutating p.files
    p.journaled fits
  exact ⟨p.toTransactionPlan, p.files, crashed, dies,
    recovers_torn_snapshot_iff p.journaled p.housed dies left (encode_ne_nil _).symm⟩

/-- A process that dies when it has written one byte of the first snapshot leaves a directory
that no recovery removes. -/
theorem not_recovers_torn_staging :
    ∃ crashed, (ArtifactTransaction.stage sampleSpace .replace [sampleArtifact 3] sampleLimits
        "0").run.run (List.replicate 17 .proceed ++ [.crash 1]) (sampleFiles [1, 2]) =
          .crashed crashed ∧
      (crashed.entry (sampleSpace.path ++ [.utf8 "txn-0", fileName 0])).map
        (fun found => found.metadata.length) = some 1 ∧
      ((recoverPendingTransactions sampleSpace sampleLimits).run.exec crashed).1.isOk = false := by
  have found : (match (ArtifactTransaction.stage sampleSpace .replace [sampleArtifact 3]
        sampleLimits "0").run.run (List.replicate 17 .proceed ++ [.crash 1])
          (sampleFiles [1, 2]) with
      | .finished _ _ _ => false
      | .crashed crashed =>
        decide ((crashed.entry (sampleSpace.path ++ [.utf8 "txn-0",
          fileName 0])).map (fun found => found.metadata.length) = some 1) &&
        !((recoverPendingTransactions sampleSpace sampleLimits).run.exec crashed).1.isOk) =
        true := by
    decide +kernel
  split at found
  · cases found
  · next crashed ended =>
    rw [Bool.and_eq_true, decide_eq_true_eq, Bool.not_eq_true'] at found
    exact ⟨crashed, ended, found⟩

end Sample
end Offprint.Artifact
