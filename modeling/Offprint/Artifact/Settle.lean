import Offprint.Artifact.Restart

/-!
# Recorded commits

Once the committed phase is recorded the replacements stay: recovery only removes the
transaction directory.  The last section is about a caller who finds no output
directory and makes an empty one before recovering.
-/

namespace Offprint.Artifact

open Data Effect Model PreparedTransaction List

variable {E : Environment (fileInterface OsString)} {fs after : Files} [Sha256]
  {p : PreparedTransaction} {pages : Pages}

section Committed

variable {post : Post Unit} {phase : JournalPhase} {sequence : UInt32}

theorem delivered_entries_iff (entries : p.mode = .entries) :
    p.Delivered fs ↔ p.Outside fs ∧ p.Rest fs ∧
      ∀ slot ∈ p.slots, fs.subtree (p.destination slot.1) = p.payload slot.1 := by
  unfold Delivered Outputs
  rw [entries]

theorem delivered_swap_iff (swap : p.mode = .directorySwap) :
    p.Delivered fs ↔ p.Outside fs ∧ fs.subtree p.output = p.files.subtree p.stagedOutput := by
  unfold Delivered Outputs
  rw [swap]

theorem PreparedTransaction.Delivered.output (delivered : p.Delivered fs) :
    fs.entry p.output = some .directory := by
  cases mode : p.mode with
  | entries =>
    obtain ⟨_, rest, _⟩ := (delivered_entries_iff mode).mp delivered
    rw [rest p.output (prefix_refl _) fun _ _ => not_child_reaches_self, p.output_eq]
  | directorySwap =>
    obtain ⟨_, same⟩ := (delivered_swap_iff mode).mp delivered
    exact (entry_of_subtree same).trans p.stagedOutput_eq

theorem Kept.delivered (kept : Kept p fs after) (delivered : p.Delivered fs) :
    p.Delivered after := by
  cases mode : p.mode with
  | entries =>
    obtain ⟨outside, rest, payloads⟩ := (delivered_entries_iff mode).mp delivered
    refine (delivered_entries_iff mode).mpr ⟨kept.outside outside, kept.rest rest, ?_⟩
    intro slot member
    exact (kept.output _ (prefix_append _ _)).trans (payloads slot member)
  | directorySwap =>
    obtain ⟨outside, same⟩ := (delivered_swap_iff mode).mp delivered
    exact (delivered_swap_iff mode).mpr ⟨kept.outside outside,
      (kept.output _ (prefix_refl _)).trans same⟩

theorem PreparedTransaction.Delivered.accepted {entry : JournalEntry} (entries : p.mode = .entries)
    (delivered : p.Delivered fs) (member : entry ∈ p.entries) :
    matchesEntry p.limits entry (fs.subtree (p.destination entry)) = true := by
  obtain ⟨_, _, payloads⟩ := (delivered_entries_iff entries).mp delivered
  obtain ⟨index, located⟩ := mem_iff_getElem?.mp member
  have same := payloads (entry, index) (mk_mem_zipIdx_iff_getElem?.mpr located)
  exact (congrArg _ same).trans (p.accepted entry member)

theorem wp_allMatch
    {entries : List JournalEntry} {limits : ArtifactTransactionLimits}
    {space : TransactionNamespace}
    {post : Post Bool}
    (directory : fs.entry space.outputDirectory = some .directory)
    (accepted : ∀ entry ∈ entries, matchesEntry limits entry
      (fs.subtree (space.outputDirectory ++ [.utf8 entry.destinationName])) = true)
    (crashes : E.crash fs)
    (success : ∀ complete, (E.Reliable → complete = true) → post (.ok complete) fs) :
    (allMatch space limits entries).run.wp E post fs := by
  induction entries with
  | nil => exact success true fun _ => rfl
  | cons entry rest ih =>
    unfold allMatch
    refine Action.wp_bind (wp_pathMatchesEntry ?_ crashes ?_)
    · rw [parent, dropLast_concat, directory]
    · intro matched truth
      rw [accepted entry mem_cons_self] at truth
      cases matched with
      | true =>
        exact ih fun other later =>
          accepted other (mem_cons_of_mem _ later)
      | false => exact success false fun reliable => truth reliable

theorem PreparedTransaction.Delivered.wp_outputsComplete {post : Post Bool}
    (delivered : p.Delivered fs) (crashes : E.crash fs)
    (success : ∀ complete, (E.Reliable → complete = true) → post (.ok complete) fs) :
    (outputsComplete p.space p.limits (p.snapshot phase sequence)).run.wp E post fs := by
  unfold outputsComplete TransactionPlan.snapshot
  dsimp only
  cases mode : p.mode with
  | entries =>
    exact wp_allMatch delivered.output (fun entry member => delivered.accepted mode member)
      crashes success
  | directorySwap =>
    obtain ⟨_, same⟩ := (delivered_swap_iff mode).mp delivered
    refine wp_outputMatchesCompleteSet crashes fun complete truth => success complete ?_
    exact fun reliable => truth reliable (complete_staged.transfer same)

theorem Journaled.wp_finalizeCommitted
    (journaled : Journaled p.toTransactionPlan pages fs) (delivered : p.Delivered fs)
    (safe : ∀ after, Cleaning p.root fs after → E.Safe (post ∘ .error) after)
    (success : ∀ after, Cleaning p.root fs after → after.entry p.root = none →
      post (.ok ()) after) :
    (finalizeCommitted p.space p.root p.limits (p.snapshot phase sequence)).run.wp E post fs := by
  have here := safe fs (Cleaning.refl p.root fs)
  unfold finalizeCommitted
  refine Action.wp_bind (delivered.wp_outputsComplete here.crash ?_)
  intro complete truth
  refine Action.wp_bind (wp_rejectFailures here.crash ?_ ?_)
  · intro _
    exact wp_orRecoveryError (journaled.wp_cleanup
      (fun after clean => safe_report (safe after clean)) success)
  · intro some paths
    refine here.failure (fun reliable => some ?_) _
    rw [if_pos (truth reliable)]

/-- The pages of a transaction whose commit is recorded. -/
def committedPages : Pages := fun sequence =>
  if sequence = 0 then .full .staging else if sequence = 1 then .full .prepared
  else if sequence = 2 then .full .mutating else if sequence = 3 then .full .committed
  else .absent

omit [Sha256] in
theorem intact_of_part_committedPages (within : pages.Part committedPages) : pages.Intact := by
  have whole : ∀ sequence ∈ sequences, committedPages sequence ≠ .torn := by
    apply forall_sequences <;> decide
  intro sequence small
  rcases within sequence with absent | same
  · rw [absent]
    nofun
  · rw [same]
    exact whole sequence small

omit [Sha256] in
theorem latest_eq_committed_iff (within : pages.Part committedPages) :
    pages.latest = some (.committed, 3) ↔ pages 3 = .full .committed := by
  have zero : pages 0 = .absent ∨ pages 0 = .full .staging := within 0
  have one : pages 1 = .absent ∨ pages 1 = .full .prepared := within 1
  have two : pages 2 = .absent ∨ pages 2 = .full .mutating := within 2
  have three : pages 3 = .absent ∨ pages 3 = .full .committed := within 3
  unfold Pages.latest
  rcases zero with zero | zero <;> rcases one with one | one <;> rcases two with two | two <;>
    rcases three with three | three <;> simp [zero, one, two, three, Page.orElse]

omit [Sha256] in
theorem Journaled.latest_of_bare {plan : TransactionPlan} (journaled : Journaled plan pages fs)
    (bare : ∀ child, fs.entry (plan.root ++ [child]) = none) : pages.latest = none := by
  have absent : ∀ sequence ∈ sequences, pages sequence = .absent := by
    intro sequence small
    by_contra present
    have found := (journaled.page sequence small).isSome_iff.mpr present
    rw [bare] at found
    cases found
  simp [Pages.latest, absent 0 (by decide), absent 1 (by decide), absent 2 (by decide),
    absent 3 (by decide), Page.orElse]

/-- A transaction whose commit is recorded, or that is gone after one. -/
def Settled (p : PreparedTransaction) (fs : Files) : Prop :=
  p.Delivered fs ∧ (fs.entry p.root = none ∨
    ∃ pages, Journaled p.toTransactionPlan pages fs ∧ pages.Part committedPages ∧
      (pages 3 = .full .committed ∨ ∀ child, fs.entry (p.root ++ [child]) = none))

theorem settled_of_cleaning
    (journaled : Journaled p.toTransactionPlan pages fs) (within : pages.Part committedPages)
    (top : pages 3 = .full .committed ∨ ∀ child, fs.entry (p.root ++ [child]) = none)
    (delivered : p.Delivered fs) (cleaning : Cleaning p.root fs after) : Settled p after := by
  refine ⟨cleaning.kept.delivered delivered, ?_⟩
  by_cases gone : after.entry p.root = none
  · exact .inl gone
  · obtain ⟨part, journaledAfter, partWithin, kept⟩ := journaled.cleaned cleaning gone
    have partCommitted : part.Part committedPages := by
      intro sequence
      rcases partWithin sequence with absent | same
      · exact .inl absent
      · rw [same]
        exact within sequence
    refine .inr ⟨part, journaledAfter, partCommitted, ?_⟩
    rcases top with recorded | bare
    · refine (kept (intact_of_part_committedPages within)).imp_left fun same => ?_
      rwa [← latest_eq_committed_iff partCommitted, same, latest_eq_committed_iff within]
    · exact .inr fun child => pruned_none cleaning.pruned (bare child)

theorem Settled.wp_recover (settled : Settled p fs)
    (safe : ∀ after, Settled p after → E.Safe (post ∘ .error) after)
    (success : ∀ after, after.entry p.root = none → p.Delivered after → post (.ok ()) after) :
    (recoverPendingTransactions p.space p.limits).run.wp E post fs := by
  have here := safe fs settled
  obtain ⟨delivered, gone | ⟨pages, journaled, within, top⟩⟩ := settled
  · exact wp_recover_gone gone delivered.1 here (success fs gone delivered)
  · have clean : ∀ after, Cleaning p.root fs after → Settled p after := fun after cleaning =>
      settled_of_cleaning journaled within top delivered cleaning
    have finish : ∀ after, Cleaning p.root fs after → after.entry p.root = none →
        post (.ok ()) after := fun after cleaning gone =>
      success after gone (cleaning.kept.delivered delivered)
    refine delivered.1.housed.wp_recover_root journaled.directory here ?_
    unfold recoverRoot
    refine Action.wp_bind (wp_orRecoveryError (journaled.wp_load (safe_report here) ?_))
    rcases top with recorded | bare
    · rw [(latest_eq_committed_iff within).mpr recorded]
      exact journaled.wp_finalizeCommitted delivered
        (fun after cleaning => safe after (clean after cleaning)) finish
    · rw [journaled.latest_of_bare bare]
      refine journaled.wp_recoverUnknown
        (fun after cleaning => (safe after (clean after cleaning)).crash) ?_ ?_
      · exact fun after cleaning gone _ => finish after cleaning gone
      · intro error after cleaning occupied
        exact (safe after (clean after cleaning)).failure (fun reliable => occupied reliable bare)
          error

end Committed

section Recreate

/-- What a caller does who finds no output directory. -/
def recreateOutput (space : TransactionNamespace) (fs : Files) : Files :=
  match (FileOp.createDirectory space.outputDirectory).run fs with
  | .ok (_, after) => after
  | .error _ => fs

variable {space : TransactionNamespace}

omit [Sha256] in
theorem recreateOutput_of_isSome (present : (fs.entry space.outputDirectory).isSome) :
    recreateOutput space fs = fs := by
  unfold recreateOutput
  simp only [FileOp.run, FileSystem.add]
  rw [dif_neg (Option.ne_none_iff_isSome.mpr present)]
  rfl

omit [Sha256] in
theorem recreateOutput_added (absent : fs.entry space.outputDirectory = none)
    (directory : fs.entry (parent space.outputDirectory) = some .directory) :
    FileOp.Added space.outputDirectory .directory fs (recreateOutput space fs) := by
  obtain ⟨after, result, new⟩ := FileOp.run_createDirectory absent directory
  unfold recreateOutput
  rwa [result]

theorem Settled.recreate (settled : Settled p fs) : Settled p (recreateOutput p.space fs) := by
  have output : fs.entry p.space.outputDirectory = some .directory := settled.1.output
  rw [recreateOutput_of_isSome (by rw [output]; rfl)]
  exact settled

theorem PreparedTransaction.Restored.recreate (restored : p.Restored fs) :
    recreateOutput p.space fs = fs := by
  apply recreateOutput_of_isSome
  rw [show p.space.outputDirectory = p.output from rfl, restored.output]
  rfl

theorem Unfinished.moved (unfinished : Unfinished p pages fs) (absent : fs.entry p.output = none) :
    p.mode = .directorySwap ∧ p.SwapIs fs .moved := by
  obtain ⟨journaled, _, working, _⟩ := unfinished
  cases mode : p.mode with
  | entries =>
    have output := ((mid_iff mode).mpr ⟨journaled, working⟩).output
    rw [output] at absent
    cases absent
  | directorySwap =>
    obtain ⟨_, swap⟩ := (working_swap_iff mode).mp working
    refine ⟨rfl, swap_of_output_absent swap ?_⟩
    rw [absent]
    exact Bool.false_ne_true

theorem Unfinished.recreate (unfinished : Unfinished p pages fs) :
    Unfinished p pages (recreateOutput p.space fs) := by
  by_cases present : (fs.entry p.output).isSome = true
  · rw [recreateOutput_of_isSome present]
    exact unfinished
  · have absent : fs.entry p.output = none := by simpa using present
    obtain ⟨swap, vacant, kept⟩ := unfinished.moved absent
    obtain ⟨journaled, uncommitted, working, idle⟩ := unfinished
    have new : FileOp.Added p.output .directory fs (recreateOutput p.space fs) :=
      recreateOutput_added absent (swapPlace_output.directory_above journaled)
    have unchanged : ∀ path, ¬ p.output <+: path →
        (recreateOutput p.space fs).entry path = fs.entry path :=
      fun path => new.same.entry_one
    refine ⟨journaled.congr ?_ ?_ ?_, uncommitted, (working_swap_iff swap).mpr ⟨?_, ?_⟩, ?_⟩
    · exact unchanged _ swapPlace_output.not_reaches_root
    · exact unchanged _ fun reaches =>
        swapPlace_output.not_reaches_root (reaches.trans (prefix_append _ _))
    · intro child
      have apart := @TransactionPlan.apart_output_root p.toTransactionPlan [] [child]
      rw [append_nil] at apart
      exact .inl (unchanged _ apart.1)
    · intro path outsideRoot outsideOutput
      rw [unchanged path outsideOutput, working.1 path outsideRoot outsideOutput]
    · refine ⟨.recreated, new.placed, ?_⟩
      rw [new.same.subtree_one (swapPlace_output.apart swapPlace_previous (output_ne_area _)), kept]
    · intro inert
      have output := (idle inert).output
      rw [output] at absent
      cases absent

theorem Open.recreate (pending : Open p fs) : Open p (recreateOutput p.space fs) := by
  rcases pending with ⟨gone, restored⟩ | ⟨pages, unfinished⟩
  · rw [restored.recreate]
    exact .inl ⟨gone, restored⟩
  · exact .inr ⟨pages, unfinished.recreate⟩

end Recreate
end Offprint.Artifact
