import Offprint.Artifact.Atomicity
import Offprint.Artifact.Contents

/-!
# Commit outcomes

What a commit says of itself.  A success names destinations that hold what is
recorded of them, and an error that claims a rollback leaves the output as it was.
Every fault point keeps to this.  An operation of the file system that fails may break
it in one place only, after the commit is recorded.
-/

namespace Offprint.Artifact

open Data Effect Model Action

section Delivered

variable [Sha256] {p : PreparedTransaction} {fs : Files} {entry : JournalEntry}

theorem PreparedTransaction.Delivered.payload (delivered : p.Delivered fs)
    (member : entry ∈ p.entries) : fs.subtree (p.destination entry) = p.payload entry := by
  cases mode : p.mode with
  | entries =>
    obtain ⟨index, slot⟩ := mem_slots_of_mem_entries member
    exact ((delivered_entries_iff mode).mp delivered).2.2 _ slot
  | directorySwap =>
    have whole := ((delivered_swap_iff mode).mp delivered).2
    have part := congrArg (FileSystem.subtree · [.utf8 entry.destinationName]) whole
    simp only [FileSystem.subtree_subtree] at part
    exact part

theorem PreparedTransaction.Delivered.measures (delivered : p.Delivered fs)
    (member : entry ∈ p.entries) :
    Measures fs (p.destination entry) entry.verification.bytes entry.verification.sha256 := by
  have accepted := p.accepted entry member
  rw [show p.files.subtree (p.staged entry) = p.payload entry from rfl,
    ← delivered.payload member] at accepted
  have output : fs.entry (parent (p.destination entry)) = some .directory := by
    rw [parent_destination]
    exact delivered.output
  exact measures_of_validateEntryPath (exec_validateEntryPath output accepted)

end Delivered

section Commit

variable [Sha256] {p : PreparedTransaction} {fs : Files} {injector : FaultInjector}
  {E : Environment (fileInterface OsString)} {space : TransactionNamespace}
  {conflict : ConflictPolicy} {prepared : List PreparedArtifact}
  {limits : ArtifactTransactionLimits} {drawn : String} {initial before : Files}
  {transaction : ArtifactTransaction}

theorem wp_commitWithInjector (truthful : E.Truthful) (crashes : ∀ state, E.crash state) :
    (p.transaction.commitWithInjector injector).run.wp E (fun result after =>
      match result with
      | .ok results => results = p.results ∧ p.Delivered after
      | .error error => ClaimsRollback error →
          p.Restored after ∨ ¬ E.Reliable ∧ p.Delivered after) p.files := by
  refine wp_bind (wp_recordCommit truthful (fun after _ => crashes after) ?_ ?_)
  · intro after journaled delivered
    refine .inr ⟨crashes after, ?_, fun _ error unclaimed claims => absurd claims unclaimed⟩
    refine wp_finishCommit journaled delivered (fun state _ => crashes state) ?_ ?_
    · exact fun final _ delivered => ⟨rfl, delivered⟩
    · intro error final settled unclaimed claims
      exact .inr ⟨fun reliable => unclaimed reliable claims, settled.1⟩
  · intro error after _ honest claims
    exact .inl (honest claims)

/-- What a commit says of its destinations is true. -/
def HonestOutcome (transaction : ArtifactTransaction) (before : Files) :
    Except OffprintError (List ExportedArtifact) × Files → Prop
  | (.ok results, after) => List.Forall₂ (fun artifact exported =>
    exported.path = transaction.space.display artifact.destination ∧
      Measures after artifact.destination exported.bytes exported.sha256)
    transaction.artifacts results
  | (.error error, after) => ClaimsRollback error → SameOutput transaction.space before after

theorem PreparedTransaction.Delivered.honest (delivered : p.Delivered fs) :
    HonestOutcome p.transaction p.files (.ok p.results, fs) := by
  refine List.forall₂_map_right_iff.mpr (List.forall₂_same.mpr fun artifact membership => ?_)
  obtain ⟨entry, member, rfl⟩ := List.mem_map.mp membership
  exact ⟨rfl, delivered.measures member⟩

/-- Operations of the file system may fail, with errors that do not deny a path. -/
def failing : Environment (fileInterface OsString) where
  allowed _ event := ∃ error progress, event = .fail error progress ∧ error ≠ .notFound
  stop _ := False
  crash _ := True

end Commit

section Sample

attribute [local instance] sampleSha256

end Sample
end Offprint.Artifact
