import Offprint.Artifact.Confinement

/-!
# What a success tells

An operation that succeeded found what it needed, whatever the file system was.  A
recovery that succeeded has removed every transaction directory.
-/

namespace Offprint.Artifact

open Data Effect Model FileOp FileSystem Action

section Success

variable {fs after : Files} {op : FileOp OsString} {response : op.Response} {added : Entry}
  {error : OffprintError} {path : Path} {stage : ErrorStage}

theorem run_of_perform {wrap : IoError → OffprintError}
    (done : (perform op wrap).run.exec fs = (.ok response, after)) :
    op.run fs = .ok (response, after) := by
  rw [perform, ExceptT.run_mk, ← bind_pure_comp, Program.exec_bind, program,
    Program.operation] at done
  cases result : op.run fs with
  | ok pair =>
    rw [Program.exec_perform_ok result] at done
    cases done
    rfl
  | error error =>
    rw [Program.exec_perform_error result] at done
    cases done

theorem same_of_reading
    {α : Type} {action : Durable α} (reading : action.run.Reading) {result : Except OffprintError α}
    (done : action.run.exec fs = (result, after)) : after = fs := by
  have unchanged := Program.exec_state_of_observing reading.observing fs
  rw [done] at unchanged
  exact unchanged

theorem passed_of_failIf {bad : Prop} [Decidable bad]
    (done : (failIf bad error).run.exec fs = (.ok (), after)) : ¬ bad := by
  intro holds
  rw [failIf, if_pos holds] at done
  cases done

section Prefixes

variable {α β : Type} {action : Durable α} {continuation : α → Durable β} {value : β}

theorem of_reading_bind (reading : action.run.Reading)
    (done : (action >>= continuation).run.exec fs = (.ok value, after)) :
    ∃ first, action.run.exec fs = (.ok first, fs) ∧
      (continuation first).run.exec fs = (.ok value, after) := by
  obtain ⟨first, middle, early, later⟩ := of_exec_bind done
  obtain rfl := same_of_reading reading early
  exact ⟨first, early, later⟩

theorem of_failIf_bind {bad : Prop} [Decidable bad] {continuation : Unit → Durable β}
    (done : (failIf bad error >>= continuation).run.exec fs = (.ok value, after)) :
    ¬ bad ∧ (continuation ()).run.exec fs = (.ok value, after) := by
  obtain ⟨_, checked, later⟩ := of_reading_bind (each_failIf _ _) done
  exact ⟨passed_of_failIf checked, later⟩

end Prefixes

theorem added_of_add (done : fs.add path added = .ok after) :
    fs.entry path = none ∧ Added path added fs after := by
  have performed := done
  rw [add] at done
  split at done
  · next absent =>
    split at done
    · next above =>
      obtain ⟨state, result, new⟩ := @add_ok _ _ fs path added absent above
      rw [performed] at result
      cases result
      exact ⟨absent, new⟩
    · cases done
  · cases done

theorem added_of_run (adds : op.run fs = (fs.add path added).map fun state => (response, state))
    (done : op.run fs = .ok (response, after)) :
    fs.entry path = none ∧ Added path added fs after := by
  rw [adds] at done
  cases result : fs.add path added with
  | ok state =>
    rw [result] at done
    cases done
    exact added_of_add result
  | error error =>
    rw [result] at done
    cases done

theorem same_of_syncDirectory {value : Unit}
    (done : (syncDirectory path stage).run.exec fs = (.ok value, after)) : after = fs := by
  have performed := run_of_perform done
  simp only [FileOp.run] at performed
  split at performed
  · cases performed
    rfl
  · cases performed

theorem added_of_createDirectory
    (done : (createDirectory path stage).run.exec fs = (.ok (), after)) :
    fs.entry path = none ∧ Added path .directory fs after := by
  unfold createDirectory at done
  obtain ⟨_, created, creating, syncing⟩ := of_exec_bind done
  obtain ⟨_, synced, first, second⟩ := of_exec_bind syncing
  obtain rfl := same_of_syncDirectory first
  obtain rfl := same_of_syncDirectory second
  exact added_of_run rfl (run_of_perform creating)

theorem added_of_writeNewFile {bytes : List UInt8}
    (done : (writeNewFile path bytes stage).run.exec fs = (.ok (), after)) :
    fs.entry path = none ∧ Added path (.file bytes) fs after := by
  unfold writeNewFile at done
  obtain ⟨_, created, creating, rest⟩ := of_exec_bind done
  obtain ⟨_, written, writing, rest⟩ := of_exec_bind rest
  obtain ⟨_, synced, syncing, last⟩ := of_exec_bind rest
  obtain rfl := same_of_syncDirectory last
  have same : after = written := by
    have performed := run_of_perform syncing
    simp only [FileOp.run] at performed
    split at performed
    · cases performed
      rfl
    · cases performed
  subst same
  obtain ⟨absent, new⟩ := added_of_run rfl (run_of_perform creating)
  refine ⟨absent, new.overwritten ?_⟩
  obtain ⟨state, result, complete⟩ := run_append bytes new.entry
  cases result.symm.trans (run_of_perform writing)
  exact complete

theorem gone_of_cleanupTransactionRoot
    {root : Path} (done : (cleanupTransactionRoot root).run.exec fs = (.ok (), after)) :
    after.entry root = none := by
  unfold cleanupTransactionRoot at done
  obtain ⟨names, _, _, rest⟩ := of_exec_bind done
  obtain ⟨_, _, _, rest⟩ := of_exec_bind rest
  obtain ⟨_, _, _, rest⟩ := of_exec_bind rest
  obtain ⟨_, emptied, _, rest⟩ := of_exec_bind rest
  obtain ⟨_, removed, removing, syncing⟩ := of_exec_bind rest
  obtain rfl := same_of_syncDirectory syncing
  have performed := run_of_perform removing
  simp only [FileOp.run] at performed
  cases result : emptied.removeDirectory root with
  | ok state =>
    rw [result] at performed
    cases performed
    rw [entry_of_removeDirectory result, if_pos rfl]
  | error error =>
    rw [result] at performed
    cases performed

end Success

section Recovered

variable {space : TransactionNamespace} {fs after : Files}

theorem exec_of_orRecoveryError
    {α : Type} {root : Path} {phase : Option JournalPhase} {complete recovered : Bool}
    {action : Durable α} {value : α}
    (done : (orRecoveryError space root phase complete recovered action).run.exec fs =
      (.ok value, after)) : action.run.exec fs = (.ok value, after) := by
  unfold orRecoveryError at done
  obtain ⟨result, middle, attempted, rest⟩ := of_exec_bind done
  rw [exec_run_attempt] at attempted
  cases attempted
  rcases early : action.run.exec fs with ⟨outcome, state⟩
  rw [early] at rest
  cases outcome with
  | ok found =>
    cases rest
    rfl
  | error error =>
    obtain ⟨_, _, _, thrown⟩ := of_exec_bind rest
    cases thrown

theorem not_output_reaches (rest : Path) : ¬ space.outputDirectory <+: space.path ++ rest :=
  fun reaches => space.apart (OsString.utf8.inj (List.cons_prefix_cons.mp reaches).1)

variable [Sha256] {limits : ArtifactTransactionLimits} {root : Path} {journal : TransactionJournal}

theorem gone_of_rollbackTransaction
    (done : (rollbackTransaction space root limits journal).run.exec fs = (.ok (), after)) :
    after.entry root = none := by
  unfold rollbackTransaction at done
  obtain ⟨_, _, _, rest⟩ := of_exec_bind done
  obtain ⟨_, _, _, rest⟩ := of_exec_bind rest
  obtain ⟨_, _, _, rest⟩ := of_exec_bind rest
  exact gone_of_cleanupTransactionRoot (exec_of_orRecoveryError rest)

theorem gone_of_recoverJournal
    (done : (recoverJournal space limits root journal).run.exec fs = (.ok (), after)) :
    after.entry root = none := by
  unfold recoverJournal at done
  split at done
  · exact gone_of_cleanupTransactionRoot (exec_of_orRecoveryError done)
  · exact gone_of_cleanupTransactionRoot (exec_of_orRecoveryError done)
  · obtain ⟨_, _, _, rest⟩ := of_exec_bind done
    exact gone_of_rollbackTransaction rest
  · exact gone_of_rollbackTransaction done
  · unfold finalizeCommitted at done
    obtain ⟨_, _, _, rest⟩ := of_exec_bind done
    obtain ⟨_, _, _, rest⟩ := of_exec_bind rest
    exact gone_of_cleanupTransactionRoot (exec_of_orRecoveryError rest)

theorem gone_of_recoverRoot (done : (recoverRoot space limits root).run.exec fs = (.ok (), after)) :
    after.entry root = none := by
  unfold recoverRoot at done
  obtain ⟨found, _, _, rest⟩ := of_exec_bind done
  cases found with
  | none =>
    unfold recoverUnknown at rest
    obtain ⟨_, _, _, rest⟩ := of_exec_bind rest
    obtain ⟨_, _, _, rest⟩ := of_exec_bind rest
    exact gone_of_cleanupTransactionRoot rest
  | some journal => exact gone_of_recoverJournal rest

theorem entry_of_recoverRoot
    {path : Path} (differs : ¬ root <+: path) (apart : ¬ space.outputDirectory <+: path)
    (done : (recoverRoot space limits root).run.exec fs = (.ok (), after)) :
    after.entry path = fs.entry path := by
  have outside : ∀ place, Recovers space root place → ¬ place <+: path := by
    rintro place (inside | inside) reaches
    · exact differs (inside.trans reaches)
    · exact apart (inside.trans reaches)
  have kept := (@confined_recoverRoot space root _ limits).entry outside fs
  rw [done] at kept
  exact kept

theorem gone_of_recoverRoots {names : List OsString}
    (done : ((names.map fun name => space.path ++ [name]).forM
      (recoverRoot space limits)).run.exec fs = (.ok (), after)) :
    after.entry space.path = fs.entry space.path ∧
      ∀ child, after.entry (space.path ++ [child]) =
        if child ∈ names then none else fs.entry (space.path ++ [child]) := by
  induction names generalizing fs with
  | nil =>
    cases done
    simp
  | cons name names ih =>
    obtain ⟨_, middle, first, others⟩ := of_exec_bind done
    obtain ⟨above, children⟩ := ih others
    have apart : ¬ space.outputDirectory <+: space.path := by
      simpa using @not_output_reaches space []
    refine ⟨by rw [above, entry_of_recoverRoot not_child_reaches_self apart first], ?_⟩
    intro child
    rw [children child]
    by_cases later : child ∈ names
    · rw [if_pos later, if_pos (List.mem_cons_of_mem _ later)]
    · rw [if_neg later]
      by_cases same : child = name
      · subst same
        rw [if_pos List.mem_cons_self, gone_of_recoverRoot first]
      · rw [if_neg (by simp [same, later]),
          entry_of_recoverRoot (not_child_reaches same) (not_output_reaches _) first]

theorem alone_of_recoverPendingTransactions
    (done : (recoverPendingTransactions space limits).run.exec fs = (.ok (), after)) :
    after.entry space.path = some .directory ∧
      ∀ child, (after.entry (space.path ++ [child])).isSome → child = .utf8 "lock" := by
  unfold recoverPendingTransactions at done
  obtain ⟨roots, middle, listing, recovering⟩ := of_exec_bind done
  unfold TransactionNamespace.transactionRoots at listing
  obtain ⟨names, seen, enumerating, rest⟩ := of_exec_bind listing
  obtain ⟨_, checked, recognizing, returned⟩ := of_exec_bind rest
  cases returned
  obtain rfl := same_of_reading (reading_perform rfl _) enumerating
  obtain rfl := same_of_reading (each_forM fun name _ => by
    unfold TransactionNamespace.recognizeRoot
    exact each_bind (reading_perform rfl _) fun _ => each_failIf _ _) recognizing
  have performed := run_of_perform enumerating
  simp only [FileOp.run] at performed
  split at performed
  · next located =>
    cases performed
    obtain ⟨above, children⟩ := gone_of_recoverRoots recovering
    refine ⟨by rw [above, located], ?_⟩
    intro child present
    by_contra unlocked
    rw [children child] at present
    split at present
    · cases present
    · next unlisted =>
      apply unlisted
      rw [mem_sortNames, List.mem_filter]
      exact ⟨mem_children.mpr present, by simpa using unlocked⟩
  · cases performed
  · cases performed

end Recovered

end Offprint.Artifact
