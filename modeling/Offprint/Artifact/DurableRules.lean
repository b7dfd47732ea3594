import Offprint.Artifact.Durable
import Offprint.Effect.FileRules

/-!
# Rules for durable operations

One weakest-precondition rule for each durable operation.  An operation that the
environment lets fail leaves the state it started from or the state it would have
left, and never anything between the two.
-/

namespace Offprint.Artifact

open Effect Model Action FileOp Program List

/-- What is asked of the result of a durable action and of the files behind it. -/
abbrev Post (α : Type) : Type := Except OffprintError α → Files → Prop

variable {E : Environment (fileInterface OsString)} {fs : Files} {op : FileOp OsString}
  {wrap : IoError → OffprintError} {response : op.Response} {after : Files} {name : OsString}
  {post : Post Unit} {path : Path} {stage : ErrorStage} {source destination : Path}

theorem wp_perform {post : Post op.Response} :
    (perform op wrap).run.wp E post fs ↔
      op.program.wp E (fun result after => post (result.mapError wrap) after) fs := by
  rw [perform, ExceptT.run_mk, ← bind_pure_comp, Program.wp_bind]
  rfl

theorem wp_perform_ok {post : Post op.Response} (result : op.run fs = .ok (response, after))
    (atomic : op.Atomic) (safe : E.Safe (post ∘ .error) fs) (success : post (.ok response) after) :
    (perform op wrap).run.wp E post fs := by
  have unchanged (progress : Nat) : (fileInterface OsString).interrupted op progress fs = fs :=
    atomic progress fs
  refine wp_perform.mpr (wp_operation_ok result ?_ (.inr success) ?_)
  · intro progress _
    rw [unchanged]
    exact .inr safe.crash
  · intro unreliable error progress
    rw [unchanged]
    exact .inr (safe.failure unreliable _)

theorem wp_performIo {post : Post (Except IoError op.Response)} :
    (performIo op).run.wp E post fs ↔
      op.program.wp E (fun result after => post (.ok result) after) fs := by
  rw [performIo, ExceptT.run_lift, ← bind_pure_comp, Program.wp_bind]
  rfl

theorem strict_perform (reads : op.reads = true) (wrap : IoError → OffprintError) :
    (perform op wrap).run.Strict :=
  strict_program reads wrap

theorem exec_perform_ok (result : op.run fs = .ok (response, after)) :
    (perform op wrap).run.exec fs = (.ok response, after) := by
  rw [perform, ExceptT.run_mk, ← bind_pure_comp, exec_bind, program,
    operation, Program.exec_perform_ok result]
  rfl

theorem strict_failIf (bad : Prop) [Decidable bad] (error : OffprintError) :
    (failIf bad error).run.Strict := by
  unfold failIf
  split
  · exact strict_throw error
  · exact strict_pure ()

theorem wp_failIf {bad : Prop} [Decidable bad] {error : OffprintError}
    (rejected : bad → post (.error error) fs) (passed : ¬ bad → post (.ok ()) fs) :
    (failIf bad error).run.wp E post fs := by
  unfold failIf
  by_cases holds : bad
  · rw [if_pos holds]
    exact rejected holds
  · rw [if_neg holds]
    exact passed holds

theorem exec_failIf {bad : Prop} [Decidable bad] (fine : ¬ bad) (error : OffprintError) :
    (failIf bad error).run.exec fs = (.ok (), fs) := by
  rw [failIf, if_neg fine]
  rfl

theorem wp_check {check : Durable Unit} (observing : check.run.Observing)
    (passes : (check.run.exec fs).1 = .ok ()) (safe : E.Safe (post ∘ .error) fs)
    (success : post (.ok ()) fs) : check.run.wp E post fs := by
  refine wp_of_observing observing safe.crash ?_
  intro result truth
  cases result with
  | ok value => exact success
  | error error =>
    refine safe.failure ?_ error
    intro reliable
    rw [passes] at truth
    cases truth reliable

theorem not_reaches_parent (nonempty : path ≠ []) : ¬ path <+: parent path := by
  intro reaches
  have shorter := reaches.length_le
  have positive := length_pos_iff.mpr nonempty
  rw [parent, length_dropLast] at shorter
  omega

theorem not_child_reaches {base : Path} {other : OsString} (differs : other ≠ name) :
    ¬ base ++ [name] <+: base ++ [other] := by
  rw [prefix_append_right_inj, cons_prefix_cons]
  exact fun reaches => differs reaches.1.symm

theorem not_child_reaches_self {base : Path} : ¬ base ++ [name] <+: base := by
  intro reaches
  have shorter := reaches.length_le
  rw [length_append, length_singleton] at shorter
  omega

theorem wp_syncDirectory (present : (fs.entry path).isSome) (safe : E.Safe (post ∘ .error) fs)
    (success : post (.ok ()) fs) : (syncDirectory path stage).run.wp E post fs := by
  exact wp_perform_ok (run_sync present).2 (fun _ _ => rfl) safe success

theorem wp_createDirectory (absent : fs.entry path = none)
    (directory : fs.entry (parent path) = some .directory) (safe : E.Safe (post ∘ .error) fs)
    (created : ∀ after, Added path .directory fs after →
      E.Safe (post ∘ .error) after ∧ post (.ok ()) after) :
    (createDirectory path stage).run.wp E post fs := by
  unfold createDirectory
  obtain ⟨after, result, new⟩ := run_createDirectory absent directory
  refine wp_bind (wp_perform_ok result (fun _ _ => rfl) safe ?_)
  obtain ⟨safeAfter, success⟩ := created after new
  have above : after.entry (parent path) = some .directory := by
    rw [new.same.entry_one (outside_of_vacant absent (by rw [directory]; rfl)), directory]
  refine wp_bind (wp_syncDirectory (by rw [above]; rfl) safeAfter ?_)
  exact wp_syncDirectory (by rw [new.entry]; rfl) safeAfter success

theorem wp_syncParents (above : (fs.entry (parent source)).isSome)
    (below : (fs.entry (parent destination)).isSome) (safe : E.Safe (post ∘ .error) fs)
    (success : post (.ok ()) fs) : (syncParents source destination).run.wp E post fs := by
  unfold syncParents
  refine wp_bind (wp_syncDirectory above safe ?_)
  by_cases same : parent destination = parent source
  · rw [if_neg (not_not.mpr same)]
    exact success
  · rw [if_pos same]
    exact wp_syncDirectory below safe success

theorem wp_confirm {sync : Durable Unit} {post : Post DurabilityOutcome}
    (attempted : sync.run.wp E (fun _ after => ∀ outcome, post (.ok outcome) after) fs) :
    (confirm sync).run.wp E post fs := by
  unfold confirm
  refine wp_attempt_bind ?_
  refine wp_mono attempted ?_
  intro result after settled
  cases result with
  | ok value => exact settled .synced
  | error error => exact settled .appliedWithSyncWarning

theorem wp_durableRename {post : Post DurabilityOutcome}
    (present : (fs.entry source).isSome) (above : fs.entry (parent source) = some .directory)
    (vacant : fs.entry destination = none)
    (directory : fs.entry (parent destination) = some .directory)
    (apart : ¬ source <+: destination) (nonempty : source ≠ []) (safe : E.Safe (post ∘ .error) fs)
    (renamed : ∀ after, Renamed source destination fs after →
      E.crash after ∧ ∀ outcome, post (.ok outcome) after) :
    (durableRename source destination).run.wp E post fs := by
  unfold durableRename
  refine wp_bind
    (wp_syncParents (by rw [above]; rfl) (by rw [directory]; rfl) safe ?_)
  obtain ⟨after, result, moved⟩ := run_rename present vacant directory apart
  refine wp_bind (wp_perform_ok result (fun _ _ => rfl) safe ?_)
  obtain ⟨crashesAfter, success⟩ := renamed after moved
  have kept : ∀ place, fs.entry place = some .directory → ¬ source <+: place →
      after.entry place = some .directory := by
    intro place found away
    rw [moved.same.entry_two away (outside_of_vacant vacant (by rw [found]; rfl)), found]
  have aboveAfter := kept (parent source) above (not_reaches_parent nonempty)
  have directoryAfter := kept (parent destination) directory
    fun reaches => apart (reaches.trans ( dropLast_prefix destination))
  apply wp_confirm
  exact wp_syncParents (by rw [aboveAfter]; rfl) (by rw [directoryAfter]; rfl)
    ⟨crashesAfter, fun _ _ => success⟩ success

theorem wp_durableHardLink {content : List UInt8}
    {post : Post DurabilityOutcome}
    (present : fs.entry source = some (.file content))
    (above : fs.entry (parent source) = some .directory) (vacant : fs.entry destination = none)
    (directory : fs.entry (parent destination) = some .directory)
    (safe : E.Safe (post ∘ .error) fs)
    (linked : ∀ after, Linked source destination fs after →
      E.crash after ∧ ∀ outcome, post (.ok outcome) after) :
    (durableHardLink source destination).run.wp E post fs := by
  unfold durableHardLink
  refine wp_bind
    (wp_syncParents (by rw [above]; rfl) (by rw [directory]; rfl) safe ?_)
  obtain ⟨after, result, new⟩ := run_hardLink present vacant directory
  refine wp_bind (wp_perform_ok result (fun _ _ => rfl) safe ?_)
  obtain ⟨crashesAfter, success⟩ := linked after new
  have directoryAfter : after.entry (parent destination) = some .directory := by
    rw [new.same.entry_one (outside_of_vacant vacant (by rw [directory]; rfl)), directory]
  apply wp_confirm
  exact wp_syncDirectory (by rw [directoryAfter]; rfl) ⟨crashesAfter, fun _ _ => success⟩ success

theorem wp_writeNewFile {bytes : List UInt8} (absent : fs.entry path = none)
    (directory : fs.entry (parent path) = some .directory) (safe : E.Safe (post ∘ .error) fs)
    (cut : ∀ progress after, E.allowed (.append path bytes) (.crash progress) →
      Added path (.file (bytes.take progress)) fs after → E.stop after ∨ E.crash after)
    (written : ∀ after, Added path (.file bytes) fs after →
      E.stop after ∨ E.Safe (post ∘ .error) after ∧ post (.ok ()) after)
    (torn : ¬ E.Reliable → ∀ error progress after,
      Added path (.file (bytes.take progress)) fs after →
      E.stop after ∨ post (.error error) after) :
    (writeNewFile path bytes stage).run.wp E post fs := by
  unfold writeNewFile
  obtain ⟨created, result, new⟩ := run_createNew absent directory
  refine wp_bind (wp_perform_ok result (fun _ _ => rfl) safe ?_)
  refine wp_bind (wp_perform.mpr (wp_append new.entry ?_ ?_ ?_))
  · intro progress after allowed part
    exact cut progress after allowed (new.overwritten part)
  · intro after whole
    have complete := new.overwritten whole
    refine (written after complete).imp_right ?_
    rintro ⟨safeAfter, success⟩
    have above : after.entry (parent path) = some .directory := by
      rw [complete.same.entry_one (outside_of_vacant absent (by rw [directory]; rfl)), directory]
    refine wp_bind (wp_perform_ok (run_sync (by rw [complete.entry]; rfl)).1
      (fun _ _ => rfl) safeAfter ?_)
    exact wp_syncDirectory (by rw [above]; rfl) safeAfter success
  · intro unreliable error progress after part
    exact torn unreliable _ progress after (new.overwritten part)

theorem wp_removeDirectPath (present : (fs.entry path).isSome)
    (plain : fs.entry path ≠ some .special)
    (safe : ∀ after, Pruned path fs after → E.Safe (post ∘ .error) after)
    (success : ∀ after, Removed path fs after → post (.ok ()) after) :
    (removeDirectPath path).run.wp E post fs := by
  obtain ⟨found, present⟩ := Option.isSome_iff_exists.mp present
  have unharmed := safe fs (Pruned.refl path fs)
  unfold removeDirectPath
  refine wp_bind (wp_perform_ok (run_metadata present) (fun _ _ => rfl) unharmed ?_)
  cases found with
  | file content | symlink =>
    obtain ⟨after, result, removed⟩ := run_removeFile present nofun
    exact wp_perform_ok result (fun _ _ => rfl) unharmed (success after removed)
  | directory =>
    apply wp_perform.mpr
    exact wp_removeAll present (fun after pruned => (safe after pruned).wrap _) success
  | special => exact absurd present plain

end Offprint.Artifact
