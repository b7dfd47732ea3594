import Offprint.Effect.FileOperations

/-!
# Rules for file operations

Weakest-precondition rules for operations that a failure or an interruption can leave
half done, and for those that only look.
-/

namespace Offprint.Effect

open FileSystem

variable {Name : Type} [DecidableEq Name] {E : Environment (fileInterface Name)}
  {fs : FileSystem Name}

/-- A failure of the environment's making never claims that a path leads nowhere. -/
def Environment.Truthful (E : Environment (fileInterface Name)) : Prop :=
  ∀ op error progress, E.allowed op (.fail error progress) → error ≠ .notFound

/-- A process may die in the middle of writing bytes. -/
def Environment.Tears (E : Environment (fileInterface Name)) : Prop :=
  ∃ path bytes progress, E.allowed (.append path bytes) (.crash progress)

namespace FileOp

theorem entry_interrupted_zero (op : FileOp Name) (fs : FileSystem Name) (path : List Name) :
    (op.interrupted 0 fs).entry path = fs.entry path := by
  cases op with
  | append place bytes =>
    simp only [interrupted, List.take_zero, FileSystem.append]
    split
    · next written done =>
      split at done
      · next content located =>
        cases done
        rw [entry_write, List.append_nil]
        split
        · next same => rw [same, located]
        · rfl
      all_goals cases done
    · rfl
  | removeAll place =>
    simp only [interrupted]
    split
    · rw [entry_prune]
      split
      · next taken =>
        by_contra present
        obtain ⟨pair, member, rfl⟩ := List.mem_map.mp
          ((lookup_isSome_iff_mem_keys _ _).mp
            (Option.ne_none_iff_isSome.mp (Ne.symm present)))
        have chosen := (taken_iff.mp taken).2 pair member (List.prefix_refl _)
        simp [reached] at chosen
      · rfl
    · rfl
  | _ => rfl

/-- An operation either happens or leaves no trace. -/
def Atomic (op : FileOp Name) : Prop :=
  ∀ progress (fs : FileSystem Name), op.interrupted progress fs = fs

variable {op : FileOp Name} {after : FileSystem Name} {path : List Name}
  {post : Except IoError Unit → FileSystem Name → Prop} {before : FileSystem Name}

theorem strict_program (reads : op.reads = true) {κ : Type} (wrap : IoError → κ) :
    ((fun result => result.mapError wrap) <$> op.program).Strict := by
  refine ⟨observes_of_reads reads, ?_, fun response => trivial⟩
  intro error
  exact ⟨wrap error, rfl⟩

theorem wp_metadata {post : Except IoError Metadata → FileSystem Name → Prop}
    (truthful : E.Truthful) (crashes : E.crash fs)
    (present : ∀ found, fs.entry path = some found → post (.ok found.metadata) fs)
    (absent : fs.entry path = none → post (.error (fs.missing path)) fs)
    (failure : ¬ E.Reliable → ∀ error, error ≠ .notFound → post (.error error) fs) :
    (metadata path).program.wp E post fs := by
  refine ⟨?_, ?_, ?_, ?_⟩
  · intro progress _
    exact .inr crashes
  · intro error progress allowed
    refine .inr (failure ?_ error (truthful _ error progress allowed))
    intro reliable
    exact reliable _ error progress allowed
  · intro response after result
    simp only [fileInterface, run] at result
    split at result
    · next found located =>
      cases result
      exact .inr (present found located)
    · cases result
  · intro error result
    simp only [fileInterface, run] at result
    split at result
    · cases result
    · next located =>
      cases result
      exact .inr (absent located)

theorem Added.entry {added : Entry} (new : Added path added before after) :
    after.entry path = some added := by
  have located := entry_subtree after path []
  rw [new.placed, List.append_nil] at located
  exact located.symm

theorem outside_of_vacant {above : List Name} (vacant : fs.entry path = none)
    (present : (fs.entry above).isSome) : ¬ path <+: above := by
  rintro ⟨rest, rfl⟩
  rw [entry_append_eq_none vacant] at present
  cases present

theorem wp_append {content bytes : List UInt8} (regular : fs.entry path = some (.file content))
    (crashes : ∀ progress after, E.allowed (append path bytes) (.crash progress) →
      Added path (.file (content ++ bytes.take progress)) fs after → E.stop after ∨ E.crash after)
    (success : ∀ after, Added path (.file (content ++ bytes)) fs after →
      E.stop after ∨ post (.ok ()) after)
    (failure : ¬ E.Reliable → ∀ error progress after,
      Added path (.file (content ++ bytes.take progress)) fs after →
      E.stop after ∨ post (.error error) after) : (append path bytes).program.wp E post fs := by
  have cut (progress : Nat) : Added path (.file (content ++ bytes.take progress)) fs
      (interrupted (append path bytes) progress fs) := by
    obtain ⟨after, result, torn⟩ := append_ok (bytes.take progress) regular
    simpa only [interrupted, result] using torn
  obtain ⟨whole, result, new⟩ := run_append bytes regular
  refine Program.wp_operation_ok result ?_ (success whole new) ?_
  · exact fun progress allowed => crashes progress _ allowed (cut progress)
  · exact fun unreliable error progress => failure unreliable error progress _ (cut progress)

theorem Added.overwritten {first second : Entry} {middle : FileSystem Name}
    (early : Added path first before middle) (late : Added path second middle after) :
    Added path second before after := by
  refine ⟨⟨?_, ?_⟩, late.placed⟩
  · intro other outside
    rw [late.same.entry other outside, early.same.entry other outside]
  · intro base outside
    rw [late.same.subtree base outside, early.same.subtree base outside]

theorem Removed.pruned (removed : Removed path before after) : Pruned path before after := by
  refine ⟨removed.same, ?_⟩
  intro rest found located
  rw [removed.gone rest] at located
  cases located

theorem Pruned.refl (path : List Name) (fs : FileSystem Name) : Pruned path fs fs :=
  ⟨SameOutside.refl [path] fs, fun _ _ located => located⟩

theorem wp_removeAll (present : fs.entry path = some .directory)
    (safe : ∀ after, Pruned path fs after → E.Safe (post ∘ .error) after)
    (success : ∀ after, Removed path fs after → post (.ok ()) after) :
    (removeAll path).program.wp E post fs := by
  have cut (progress : Nat) : Pruned path fs (interrupted (removeAll path) progress fs) := by
    simp only [interrupted, if_pos present]
    refine ⟨sameOutside_prune fs path _, ?_⟩
    intro rest found located
    exact entry_of_entry_prune located
  obtain ⟨whole, result, removed⟩ := run_removeAll present
  refine Program.wp_operation_ok result ?_ (.inr (success whole removed)) ?_
  · exact fun progress _ => .inr (safe _ (cut progress)).crash
  · exact fun unreliable error progress =>
      .inr ((safe _ (cut progress)).failure unreliable error)

end FileOp
end Offprint.Effect
