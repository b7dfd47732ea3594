import Mathlib.Data.List.Sigma
import Offprint.Artifact.Undo

/-!
# Rolling a transaction back

A rollback takes the entries one after the other, or swaps the whole output
directory back.  Both keep the outputs accounted for at every moment, and both fail
on their own account in exactly one situation: an original that cannot be told from
its replacement, or a directory that was retracted before.
-/

namespace Offprint.Artifact

open Data Effect Model Action TransactionPlan PreparedTransaction FileOp FileSystem List

variable {E : Environment (fileInterface OsString)} {fs : Files} [Sha256]
  {p : PreparedTransaction} {pages : Pages} {slot : JournalEntry × Nat}
  {post : Post (List String)} {after : Files}

section Entries

theorem SameSlot.stuck_iff (same : SameSlot p fs after slot) :
    Stuck p after slot ↔ Stuck p fs slot :=
  and_congr_left fun _ => ⟨same.symm.isOriginal, same.isOriginal⟩

/-- Outputs on their way back: what is original stays so. -/
def Unwound (p : PreparedTransaction) (pages : Pages) (fs after : Files) : Prop :=
  Mid p pages after ∧ ∀ slot ∈ p.slots, p.IsOriginal fs slot → p.IsOriginal after slot

/-- The slots still to be undone are as they were, and the failures speak of the others. -/
structure Unwinding (E : Environment (fileInterface OsString)) (p : PreparedTransaction)
    (pages : Pages) (fs : Files) (remaining : List (JournalEntry × Nat)) (failures : List String)
    (after : Files) : Prop where
  unwound : Unwound p pages fs after
  member : ∀ slot ∈ remaining, slot ∈ p.slots
  distinct : remaining.Nodup
  same : ∀ slot ∈ remaining, SameSlot p fs after slot
  undone : failures = [] → ∀ slot ∈ p.slots, slot ∉ remaining → p.IsOriginal after slot
  honest : E.Reliable → (failures = [] ↔ ∀ slot ∈ p.slots, slot ∉ remaining → ¬ Stuck p fs slot)

theorem Unwinding.advance {remaining : List (JournalEntry × Nat)} {gathered failures : List String}
    {middle after : Files} (unwinding : Unwinding E p pages fs (slot :: remaining) gathered middle)
    (undoing : Undoing p pages slot middle after) (undone : failures = [] → p.IsOriginal after slot)
    (honest : E.Reliable → (failures = [] ↔ ¬ Stuck p middle slot)) :
    Unwinding E p pages fs remaining (gathered ++ failures) after := by
  have fresh := (nodup_cons.mp unwinding.distinct).1
  have others : ∀ other ∈ p.slots, other ≠ slot → SameSlot p middle after other :=
    undoing.touched.2
  have apart : ∀ other ∈ remaining, other ≠ slot := by
    rintro other later rfl
    exact fresh later
  refine ⟨⟨undoing.touched.1, ?_⟩, ?_, (nodup_cons.mp unwinding.distinct).2, ?_, ?_, ?_⟩
  · intro other member original
    have before := unwinding.unwound.2 other member original
    by_cases this : other = slot
    · subst this
      exact undoing.kept before
    · exact (others other member this).isOriginal before
  · exact fun other later => unwinding.member other (mem_cons_of_mem _ later)
  · intro other later
    have membership := mem_cons_of_mem slot later
    exact (unwinding.same other membership).trans
      (others other (unwinding.member other membership) (apart other later))
  · intro none other member visited
    obtain ⟨before, now⟩ := append_eq_nil_iff.mp none
    by_cases this : other = slot
    · subst this
      exact undone now
    · exact (others other member this).isOriginal
        (unwinding.undone before other member (by simp [this, visited]))
  · intro reliable
    rw [append_eq_nil_iff, unwinding.honest reliable, honest reliable,
      (unwinding.same slot mem_cons_self).stuck_iff]
    constructor
    · rintro ⟨before, now⟩ other member visited
      by_cases this : other = slot
      · subst this
        exact now
      · exact before other member (by simp [this, visited])
    · intro free
      refine ⟨?_, free slot (unwinding.member slot mem_cons_self) fresh⟩
      intro other member visited
      exact free other member fun later => visited (mem_cons_of_mem _ later)

theorem Mid.wp_rollbackEntries (mid : Mid p pages fs) (truthful : E.Truthful)
    (crashes : ∀ after, Unwound p pages fs after → E.crash after)
    (done : ∀ failures after, Unwound p pages fs after →
      (failures = [] → ∀ slot ∈ p.slots, p.IsOriginal after slot) →
      (E.Reliable → (failures = [] ↔ ∀ slot ∈ p.slots, ¬ Stuck p fs slot)) →
      post (.ok failures) after) :
    (rollbackEntries p.space p.root p.limits p.entries).run.wp E post fs := by
  refine wp_foldlM (Unwinding E p pages fs) ?_ ?_ ?_
  · rintro ⟨entry, index⟩ remaining gathered state unwinding
    have member : (entry, index) ∈ p.slots := unwinding.member _ mem_cons_self
    apply wp_bind
    refine @Mid.wp_rollbackEntry _ _ _ _ _ (entry, index)
      _ unwinding.unwound.1 member truthful ?_ ?_
    · intro after undoing
      refine crashes after ⟨undoing.touched.1, ?_⟩
      intro other otherMember original
      have before := unwinding.unwound.2 other otherMember original
      by_cases this : other = (entry, index)
      · subst this
        exact undoing.kept before
      · exact (undoing.touched.2 other otherMember this).isOriginal before
    · intro failures after undoing undone honest
      exact unwinding.advance undoing undone honest
  · intro failures after unwinding
    refine done failures after unwinding.unwound ?_ ?_
    · exact fun none slot member => unwinding.undone none slot member not_mem_nil
    · intro reliable
      simpa using unwinding.honest reliable
  · refine ⟨⟨mid, fun _ _ => id⟩, ?_, ?_, ?_, ?_, ?_⟩
    · exact fun slot member => mem_reverse.mp member
    · rw [nodup_reverse]
      exact List.Nodup.of_map _ (nodup_zipIdx_map_snd _)
    · exact fun slot _ => SameSlot.refl slot
    · exact fun _ slot member visited => absurd (mem_reverse.mpr member) visited
    · intro _
      simp only [true_iff]
      exact fun slot member visited => absurd (mem_reverse.mpr member) visited

end Entries

section Swap

variable {path place : Path} {child : OsString} {source destination : Path}

omit [Sha256] in
theorem wp_directoryIsEmpty {space : TransactionNamespace}
    {post : Post Bool}
    (directory : fs.entry path = some .directory) (safe : E.Safe (post ∘ .error) fs)
    (success : ∀ empty, (empty = true ↔ ∀ child, fs.entry (path ++ [child]) = none) →
      post (.ok empty) fs) : (directoryIsEmpty space path).run.wp E post fs := by
  have looked := run_metadata directory
  have enumerated := run_readDirectory directory
  refine wp_bind (wp_perform_ok looked (fun _ _ => rfl) safe ?_)
  refine wp_bind (wp_failIf (fun differs => absurd rfl differs) fun _ => ?_)
  refine wp_bind (wp_perform_ok enumerated (fun _ _ => rfl) safe ?_)
  exact success (fs.children path).isEmpty (isEmpty_iff.trans children_eq_nil_iff)

theorem wp_outputMatchesCompleteSet {entries : List JournalEntry}
    {limits : ArtifactTransactionLimits} {post : Post Bool}
    (crashes : E.crash fs)
    (success : ∀ complete, (E.Reliable → Complete limits entries fs path → complete = true) →
      post (.ok complete) fs) :
    (outputMatchesCompleteSet path entries limits).run.wp E post fs := by
  refine wp_attempt_bind ?_
  refine Program.wp_of_observing (reading_validateCompleteOutputSet path).observing crashes ?_
  intro result truth
  refine success result.isOk ?_
  intro reliable complete
  rw [truth reliable, complete.exec_validate]
  rfl

def SwapPlace (p : PreparedTransaction) (path : Path) : Prop :=
  path = p.output ∨ ∃ area ∈ areaNames, path = p.root ++ [area]

theorem SwapPlace.outside (swapped : SwapPlace p place) (outsideRoot : ¬ p.root <+: path)
    (outsideOutput : ¬ p.output <+: path) : ¬ place <+: path := by
  rcases swapped with rfl | ⟨area, _, rfl⟩
  · exact outsideOutput
  · exact fun reaches => outsideRoot ((prefix_append _ _).trans reaches)

theorem SwapPlace.area (swapped : SwapPlace p (p.root ++ [child])) : child ∈ areaNames := by
  rcases swapped with same | ⟨area, member, same⟩
  · have apart := @apart_output_root p.toTransactionPlan [] [child]
    rw [append_nil, same] at apart
    exact absurd (prefix_refl _) apart.1
  · have named := append_cancel_left same
    rw [List.cons.injEq] at named
    exact named.1 ▸ member

theorem SwapPlace.not_reaches_child (swapped : SwapPlace p place)
    (differs : place ≠ p.root ++ [child]) : ¬ place <+: p.root ++ [child] := by
  rcases swapped with rfl | ⟨area, _, rfl⟩
  · have apart := @apart_output_root p.toTransactionPlan [] [child]
    exact apart.1
  · refine not_child_reaches ?_
    rintro rfl
    exact differs rfl

theorem SwapPlace.not_reaches_root (swapped : SwapPlace p place) : ¬ place <+: p.root := by
  rcases swapped with rfl | ⟨area, _, rfl⟩
  · have apart := @apart_output_root p.toTransactionPlan [] []
    exact apart.1
  · exact not_child_reaches_self

theorem Journaled.swapped (journaled : Journaled p.toTransactionPlan pages fs)
    (outside : p.Outside fs) (start : SwapPlace p source) (goal : SwapPlace p destination)
    (directory : fs.entry source = some .directory) (renamed : Renamed source destination fs after)
    :
    Journaled p.toTransactionPlan pages after ∧ p.Outside after := by
  have unchanged : ∀ path, ¬ source <+: path → ¬ destination <+: path →
      after.entry path = fs.entry path := fun path => renamed.same.entry_two
  constructor
  · refine journaled.congr ?_ ?_ ?_
    · exact unchanged _ start.not_reaches_root goal.not_reaches_root
    · have above : p.space.path <+: p.root := prefix_append _ _
      exact unchanged _ (fun reaches => start.not_reaches_root (reaches.trans above))
        fun reaches => goal.not_reaches_root (reaches.trans above)
    · intro child
      by_cases left : source = p.root ++ [child]
      · subst left
        refine .inr ⟨start.area, .inl ?_⟩
        simpa using renamed.left []
      · by_cases arrived : destination = p.root ++ [child]
        · subst arrived
          refine .inr ⟨goal.area, .inr ?_⟩
          rw [entry_of_subtree renamed.moved, directory]
        · exact .inl (unchanged _ (start.not_reaches_child left) (goal.not_reaches_child arrived))
  · intro path outsideRoot outsideOutput
    rw [unchanged path (start.outside outsideRoot outsideOutput)
      (goal.outside outsideRoot outsideOutput), outside path outsideRoot outsideOutput]

theorem swapPlace_output : SwapPlace p p.output :=
  .inl rfl

theorem swapPlace_previous : SwapPlace p p.previous :=
  .inr ⟨_, by decide, rfl⟩

theorem swapPlace_discardOutput : SwapPlace p p.discardOutput :=
  .inr ⟨_, by decide, rfl⟩

theorem swapPlace_stagedOutput : SwapPlace p p.stagedOutput :=
  .inr ⟨_, by decide, rfl⟩

theorem SwapPlace.apart {first second : Path} (one : SwapPlace p first) (other : SwapPlace p second)
    (differs : first ≠ second) : Apart first second := by
  rcases one with rfl | ⟨area, _, rfl⟩
  · rcases other with rfl | ⟨area, _, rfl⟩
    · exact absurd rfl differs
    · simpa using @apart_output_root p.toTransactionPlan [] [area]
  · rcases other with rfl | ⟨second, _, rfl⟩
    · simpa using (@apart_output_root p.toTransactionPlan [] [area]).symm
    · refine apart_of_diverging p.root ?_ [] []
      rintro rfl
      exact differs rfl

theorem SwapPlace.kept (start : SwapPlace p source) (goal : SwapPlace p destination)
    (renamed : Renamed source destination fs after) (other : SwapPlace p path)
    (notSource : path ≠ source) (notDestination : path ≠ destination) :
    after.subtree path = fs.subtree path :=
  renamed.same.subtree_two (start.apart other notSource.symm)
    (goal.apart other notDestination.symm)

section

variable (swapped : SwapPlace p place) (journaled : Journaled p.toTransactionPlan pages fs)
include swapped journaled

theorem SwapPlace.directory_above : fs.entry (parent place) = some .directory := by
  rcases swapped with rfl | ⟨area, _, rfl⟩
  · have inside : (fs.entry ([] ++ p.space.path)).isSome := by
      rw [nil_append, journaled.above]
      rfl
    exact entry_parent inside
  · rw [parent_child]
    exact journaled.directory

theorem SwapPlace.clear : fs.entry place = none → fs.missing place = .notFound := by
  have directory := swapped.directory_above journaled
  rcases swapped with rfl | ⟨area, _, rfl⟩
  · intro absent
    exact @missing_eq_notFound _ _ _ [] _ directory absent []
  · exact (missing_eq_notFound journaled.directory · [])

end

theorem SwapPlace.ne_nil (swapped : SwapPlace p place) : place ≠ [] := by
  rcases swapped with rfl | ⟨area, _, rfl⟩
  · exact cons_ne_nil _ _
  · simp

theorem SwapPlace.wp_rename
    {post : Post DurabilityOutcome}
    (start : SwapPlace p source) (goal : SwapPlace p destination)
    (journaled : Journaled p.toTransactionPlan pages fs) (outside : p.Outside fs)
    (differs : source ≠ destination) (directory : fs.entry source = some .directory)
    (vacant : fs.entry destination = none) (safe : E.Safe (post ∘ .error) fs)
    (renamed : ∀ after, Renamed source destination fs after →
      Journaled p.toTransactionPlan pages after → p.Outside after →
      E.crash after ∧ ∀ outcome, post (.ok outcome) after) :
    (durableRename source destination).run.wp E post fs := by
  refine wp_durableRename (by rw [directory]; rfl) (start.directory_above journaled) vacant
    (goal.directory_above journaled) (start.apart goal differs).1 start.ne_nil safe ?_
  intro after move
  obtain ⟨journaledAfter, outsideAfter⟩ := journaled.swapped outside start goal directory move
  exact renamed after move journaledAfter outsideAfter

/-- A swap on its way back: what is restored stays so. -/
structure Unswapping (p : PreparedTransaction) (pages : Pages) (fs after : Files) : Prop where
  journaled : Journaled p.toTransactionPlan pages after
  outside : p.Outside after
  swap : ∃ swap, p.SwapIs after swap
  kept : p.SwapIs fs .untouched → p.SwapIs after .untouched

/-- The output directory stands between its predecessor and one that was retracted before. -/
def Crowded (p : PreparedTransaction) (fs : Files) : Prop :=
  (fs.entry p.previous).isSome ∧ (fs.entry p.output).isSome ∧ (fs.entry p.discardOutput).isSome

theorem output_ne_area (area : OsString) : p.output ≠ p.root ++ [area] := by
  intro same
  have apart := @apart_output_root p.toTransactionPlan [] [area]
  rw [append_nil, same] at apart
  exact apart.1 (prefix_refl _)

theorem previous_ne_discardOutput : p.previous ≠ p.discardOutput := by
  simp [TransactionPlan.previous, discardOutput]

theorem wp_restorePrevious
    (journaled : Journaled p.toTransactionPlan pages fs) (outside : p.Outside fs)
    (moved : p.SwapIs fs .moved) (reports : Reports E post fs)
    (restored : ∀ after, Journaled p.toTransactionPlan pages after → p.Outside after →
      p.SwapIs after .untouched → E.crash after ∧ post (.ok []) after) :
    (restorePrevious p.space p.root).run.wp E post fs := by
  obtain ⟨vacant, kept⟩ := moved
  refine wp_attempt_bind ?_
  refine swapPlace_previous.wp_rename swapPlace_output journaled outside (output_ne_area _).symm
    ?_ vacant reports.safe ?_
  · exact entry_of_leaf kept
  · intro after renamed journaledAfter outsideAfter
    have untouched : p.SwapIs after .untouched := by
      refine ⟨renamed.moved.trans kept, ?_⟩
      simpa using renamed.left []
    obtain ⟨crashesAfter, success⟩ := restored after journaledAfter outsideAfter untouched
    exact ⟨crashesAfter, fun _ => success⟩

theorem PreparedTransaction.complete_staged : Complete p.limits p.entries p.files p.stagedOutput :=
  ⟨p.stagedOutput_eq, p.stagedNames, p.accepted⟩

section

variable (swap : ∃ swap, p.SwapIs fs swap)
include swap

theorem swap_both (output : (fs.entry p.output).isSome) (previous : (fs.entry p.previous).isSome) :
    p.SwapIs fs .recreated ∨ p.SwapIs fs .replaced := by
  obtain ⟨swap, is⟩ := swap
  cases swap with
  | untouched =>
    rw [is.2] at previous
    cases previous
  | moved =>
    rw [is.1] at output
    cases output
  | recreated => exact .inl is
  | replaced => exact .inr is

theorem swap_of_output_absent (output : ¬ (fs.entry p.output).isSome = true) :
    p.SwapIs fs .moved := by
  have standing : ¬ fs.entry p.output = some .directory := by
    intro located
    rw [located] at output
    exact output rfl
  obtain ⟨swap, is⟩ := swap
  cases swap with
  | untouched => exact absurd (entry_of_leaf is.1) standing
  | moved => exact is
  | recreated => exact absurd (entry_of_leaf is.1) standing
  | replaced => exact absurd ((entry_of_subtree is.1).trans p.stagedOutput_eq) standing

theorem swap_of_previous_absent (previous : ¬ (fs.entry p.previous).isSome = true) :
    p.SwapIs fs .untouched := by
  have kept : ¬ fs.subtree p.previous = leaf .directory := by
    intro only
    rw [entry_of_leaf only] at previous
    exact previous rfl
  obtain ⟨swap, is⟩ := swap
  cases swap with
  | untouched => exact is
  | moved | recreated => exact absurd is.2 kept
  | replaced => exact absurd is.2.1 kept

end

theorem swap_retracted (swap : p.SwapIs fs .recreated ∨ p.SwapIs fs .replaced)
    (renamed : Renamed p.output p.discardOutput fs after) : p.SwapIs after .moved := by
  have kept : fs.subtree p.previous = leaf .directory :=
    swap.elim (fun recreated => recreated.2) fun replaced => replaced.2.1
  refine ⟨?_, ?_⟩
  · simpa using renamed.left []
  · rw [swapPlace_output.kept swapPlace_discardOutput renamed swapPlace_previous
      (output_ne_area _).symm previous_ne_discardOutput, kept]

theorem wp_rollbackDirectorySwap (unswapping : Unswapping p pages fs fs) (truthful : E.Truthful)
    (crashes : ∀ after, Unswapping p pages fs after → E.crash after)
    (done : ∀ failures after, Unswapping p pages fs after →
      (failures = [] → p.SwapIs after .untouched) →
      (E.Reliable → (failures = [] ↔ ¬ Crowded p fs)) → post (.ok failures) after) :
    (rollbackDirectorySwap p.space p.root p.limits p.entries).run.wp E post fs := by
  have reports : ∀ after, Unswapping p pages fs after → Reports E post after := by
    refine fun after unswapping => ⟨crashes after unswapping, fun unreliable failures some => ?_⟩
    exact done failures after unswapping (fun none => absurd none some)
      fun reliable => absurd reliable unreliable
  have here := reports fs unswapping
  have journaled := unswapping.journaled
  have outside := unswapping.outside
  refine wp_attempt_bind (wp_directExists truthful
    here.safe (swapPlace_previous.clear journaled) ?_)
  refine wp_attempt_bind (wp_directExists truthful
    here.safe (swapPlace_output.clear journaled) ?_)
  dsimp only
  rw [show p.root ++ [.utf8 "previous-output"] = p.previous from rfl,
    show p.root ++ [.utf8 "discard-output"] = p.discardOutput from rfl,
    show p.space.outputDirectory = p.output from rfl]
  -- From the moved state on, what is left is to put the predecessor back.
  have restore : ∀ state, Unswapping p pages fs state → p.SwapIs state .moved →
      ¬ Crowded p fs → ¬ p.SwapIs fs .untouched →
      (restorePrevious p.space p.root).run.wp E post state := by
    intro state unswapping moved free touched
    refine wp_restorePrevious unswapping.journaled unswapping.outside moved
      (reports state unswapping) ?_
    intro after journaledAfter outsideAfter untouched
    have there : Unswapping p pages fs after :=
      ⟨journaledAfter, outsideAfter, ⟨_, untouched⟩, fun _ => untouched⟩
    exact ⟨crashes after there, done [] after there (fun _ => untouched)
      fun _ => iff_of_true rfl free⟩
  by_cases previous : (fs.entry p.previous).isSome = true
  · have touched : ¬ p.SwapIs fs .untouched := by
      intro untouched
      rw [untouched.2] at previous
      cases previous
    rw [if_pos previous]
    by_cases output : (fs.entry p.output).isSome = true
    · rw [if_pos output]
      have both := swap_both unswapping.swap output previous
      have directory : fs.entry p.output = some .directory := by
        rcases both with recreated | replaced
        · exact entry_of_leaf recreated.1
        · exact (entry_of_subtree replaced.1).trans p.stagedOutput_eq
      refine wp_bind (wp_outputMatchesCompleteSet here.crash ?_)
      intro complete truth
      refine wp_attempt_bind (wp_directoryIsEmpty directory here.safe ?_)
      intro empty vacant
      dsimp only
      by_cases accepted : (complete || empty) = true
      · rw [if_pos accepted]
        refine wp_attempt_bind (wp_directExists truthful
          here.safe (swapPlace_discardOutput.clear journaled) ?_)
        cases crowded : (fs.entry p.discardOutput).isSome with
        | true =>
          refine done _ fs unswapping (fun none => absurd none (cons_ne_nil _ _)) fun _ => ?_
          exact iff_of_false (cons_ne_nil _ _) (not_not.mpr ⟨previous, output, crowded⟩)
        | false =>
          have free : ¬ Crowded p fs := by
            intro both
            rw [both.2.2] at crowded
            cases crowded
          refine wp_attempt_bind ?_
          refine swapPlace_output.wp_rename swapPlace_discardOutput journaled outside
            (output_ne_area _) directory ?_ here.safe ?_
          · exact Option.not_isSome_iff_eq_none.mp (by rw [crowded]; exact Bool.false_ne_true)
          · intro after renamed journaledAfter outsideAfter
            have moved := swap_retracted both renamed
            have there : Unswapping p pages fs after :=
              ⟨journaledAfter, outsideAfter, ⟨_, moved⟩, fun untouched => absurd untouched touched⟩
            exact ⟨crashes after there, fun _ => restore after there moved free touched⟩
      · rw [if_neg accepted]
        rw [Bool.or_eq_true, not_or] at accepted
        refine here.failure ?_ _ (cons_ne_nil _ _)
        intro reliable
        rcases both with recreated | replaced
        · exact accepted.2 (vacant.mpr (entry_below_leaf recreated.1))
        · exact accepted.1
            (truth reliable (complete_staged.transfer replaced.1))
    · rw [if_neg output]
      refine restore fs unswapping (swap_of_output_absent unswapping.swap output) ?_ touched
      exact fun crowded => output crowded.2.1
  · have untouched := swap_of_previous_absent unswapping.swap previous
    have directory := entry_of_leaf untouched.1
    rw [if_neg previous, directory, if_neg (by simp)]
    refine wp_attempt_bind (wp_directoryIsEmpty directory here.safe ?_)
    intro empty vacant
    obtain rfl : empty = true := vacant.mpr (entry_below_leaf untouched.1)
    refine done [] fs unswapping (fun _ => untouched) fun _ => iff_of_true rfl ?_
    exact fun crowded => previous crowded.1

end Swap

section Outputs

theorem working_entries_iff (entries : p.mode = .entries) :
    p.Working fs ↔ p.Outside fs ∧ p.Rest fs ∧ ∀ slot ∈ p.slots, p.IsKnown fs slot := by
  unfold Working PreparedTransaction.Outputs
  rw [entries]

theorem mid_iff (entries : p.mode = .entries) :
    Mid p pages fs ↔ Journaled p.toTransactionPlan pages fs ∧ p.Working fs := by
  rw [working_entries_iff entries]
  constructor
  · intro mid
    exact ⟨mid.journaled, mid.outside, mid.rest, mid.slot⟩
  · rintro ⟨journaled, outside, rest, slot⟩
    exact ⟨journaled, outside, rest, slot⟩

theorem restored_entries_iff (entries : p.mode = .entries) :
    p.Restored fs ↔ p.Outside fs ∧ p.Rest fs ∧ ∀ slot ∈ p.slots, p.IsOriginal fs slot := by
  unfold Restored PreparedTransaction.Outputs
  rw [entries]

theorem working_swap_iff (swap : p.mode = .directorySwap) :
    p.Working fs ↔ p.Outside fs ∧ ∃ swap, p.SwapIs fs swap := by
  unfold Working PreparedTransaction.Outputs
  rw [swap]

theorem restored_swap_iff (swap : p.mode = .directorySwap) :
    p.Restored fs ↔ p.Outside fs ∧ p.SwapIs fs .untouched := by
  unfold Restored PreparedTransaction.Outputs
  rw [swap]

/-- Outputs on their way back: what is restored stays so. -/
structure Reverting (p : PreparedTransaction) (pages : Pages) (fs after : Files) : Prop where
  journaled : Journaled p.toTransactionPlan pages after
  working : p.Working after
  kept : p.Restored fs → p.Restored after

/-- The outputs can be told apart well enough to be put back. -/
def Undoable (p : PreparedTransaction) (fs : Files) : Prop :=
  match p.mode with
  | .entries => ∀ slot ∈ p.slots, ¬ Stuck p fs slot
  | .directorySwap => ¬ Crowded p fs

theorem Unwound.reverting (entries : p.mode = .entries) (unwound : Unwound p pages fs after) :
    Reverting p pages fs after := by
  obtain ⟨mid, kept⟩ := unwound
  obtain ⟨journaled, working⟩ := (mid_iff entries).mp mid
  refine ⟨journaled, working, ?_⟩
  intro restored
  obtain ⟨_, _, originals⟩ := (restored_entries_iff entries).mp restored
  exact (restored_entries_iff entries).mpr ⟨mid.outside, mid.rest, fun slot member =>
    kept slot member (originals slot member)⟩

theorem Unswapping.reverting (swap : p.mode = .directorySwap)
    (unswapping : Unswapping p pages fs after) : Reverting p pages fs after := by
  refine ⟨unswapping.journaled, (working_swap_iff swap).mpr ⟨unswapping.outside, unswapping.swap⟩,
    ?_⟩
  intro restored
  obtain ⟨_, untouched⟩ := (restored_swap_iff swap).mp restored
  exact (restored_swap_iff swap).mpr ⟨unswapping.outside, unswapping.kept untouched⟩

theorem wp_rollbackOutputs {phase : JournalPhase} {sequence : UInt32}
    (journaled : Journaled p.toTransactionPlan pages fs) (working : p.Working fs)
    (truthful : E.Truthful) (crashes : ∀ after, Reverting p pages fs after → E.crash after)
    (done : ∀ failures after, Reverting p pages fs after → (failures = [] → p.Restored after) →
      (E.Reliable → (failures = [] ↔ Undoable p fs)) → post (.ok failures) after) :
    (rollbackOutputs p.space p.root p.limits (p.snapshot phase sequence)).run.wp E post fs := by
  unfold rollbackOutputs snapshot
  unfold Undoable at done
  cases mode : p.mode with
  | entries =>
    rw [mode] at done
    refine ((mid_iff mode).mpr ⟨journaled, working⟩).wp_rollbackEntries truthful ?_ ?_
    · exact fun after unwound => crashes after (unwound.reverting mode)
    · intro failures after unwound undone honest
      refine done failures after (unwound.reverting mode) ?_ honest
      intro none
      exact (restored_entries_iff mode).mpr
        ⟨unwound.1.outside, unwound.1.rest, undone none⟩
  | directorySwap =>
    rw [mode] at done
    obtain ⟨outside, swap⟩ := (working_swap_iff mode).mp working
    refine wp_rollbackDirectorySwap ⟨journaled, outside, swap, id⟩ truthful ?_ ?_
    · exact fun after unswapping => crashes after (unswapping.reverting mode)
    · intro failures after unswapping undone honest
      refine done failures after (unswapping.reverting mode) ?_ honest
      intro none
      exact (restored_swap_iff mode).mpr ⟨unswapping.outside, undone none⟩

end Outputs

section Report

omit [Sha256]

variable {space : TransactionNamespace} {root : Path} {phase : Option JournalPhase}
  {commitComplete outputsRecovered : Bool} {failures : List String}

theorem wp_existingPaths
    {relatives : List String} (crashes : E.crash fs) (found : ∀ paths, post (.ok paths) fs) :
    (existingPaths space root relatives).run.wp E post fs := by
  induction relatives generalizing post with
  | nil => exact found []
  | cons relative rest ih =>
    refine wp_attempt_bind ?_
    refine Program.wp_of_observing (reading_directExists space _).observing crashes ?_
    intro result _
    refine wp_bind (ih ?_)
    intro others
    exact found _

theorem wp_recoveryError {post : Post OffprintError}
    (crashes : E.crash fs) (reported : ∀ paths, post
      (.ok (recoveryReport space root phase commitComplete outputsRecovered failures paths)) fs) :
    (recoveryError space root phase commitComplete outputsRecovered failures).run.wp E post fs := by
  refine wp_bind (wp_bind (wp_existingPaths crashes ?_))
  intro paths
  exact reported _

theorem wp_orRecoveryError
    {α : Type} {action : Durable α} {post : Post α}
    (attempted : action.run.wp E (fun result after =>
      match result with
      | .ok value => post (.ok value) after
      | .error error => E.crash after ∧ ∀ paths, post (.error (recoveryReport space root phase
          commitComplete outputsRecovered [error.display] paths)) after) fs) :
    (orRecoveryError space root phase commitComplete outputsRecovered action).run.wp E post fs := by
  refine wp_attempt_bind (Program.wp_mono attempted ?_)
  intro result after settled
  cases result with
  | ok value => exact settled
  | error error => exact wp_bind (wp_recoveryError settled.1 settled.2)

theorem safe_report {α : Type} {post : Post α} (safe : E.Safe (post ∘ .error) fs) :
    E.Safe (fun error after => E.crash after ∧ ∀ paths, post (.error (recoveryReport space root
      phase commitComplete outputsRecovered [OffprintError.display error] paths)) after) fs :=
  ⟨safe.crash, fun unreliable _ => ⟨safe.crash, fun _ => safe.failure unreliable _⟩⟩

theorem wp_rejectFailures {post : Post Unit} (crashes : E.crash fs)
    (none : failures = [] → post (.ok ()) fs) (some : failures ≠ [] → ∀ paths, post
      (.error (recoveryReport space root phase commitComplete false failures paths)) fs) :
    (rejectFailures space root phase commitComplete failures).run.wp E post fs := by
  unfold rejectFailures
  by_cases clean : failures = []
  · rw [if_pos clean]
    exact none clean
  · rw [if_neg clean]
    exact wp_bind (wp_recoveryError crashes (some clean))

end Report

section Clean

variable {after : Files}

/-- The outputs stay, and nothing new stands in the areas. -/
structure Kept (p : PreparedTransaction) (fs after : Files) : Prop where
  entry : ∀ path, ¬ p.root <+: path → after.entry path = fs.entry path
  output : ∀ path, p.output <+: path → after.subtree path = fs.subtree path
  absent : ∀ area ∈ areaNames, ∀ rest, fs.entry (p.root ++ area :: rest) = none →
    after.entry (p.root ++ area :: rest) = none

theorem pruned_none (pruned : Pruned p.root fs after) {rest : Path}
    (absent : fs.entry (p.root ++ rest) = none) : after.entry (p.root ++ rest) = none := by
  cases found : after.entry (p.root ++ rest) with
  | none => rfl
  | some kept =>
    rw [pruned.kept rest kept found] at absent
    cases absent

theorem Cleaning.kept (cleaning : Cleaning p.root fs after) : Kept p fs after := by
  have pruned := cleaning.pruned
  refine ⟨fun path => pruned.same.entry_one, ?_, fun area _ rest => pruned_none pruned⟩
  intro path inside
  refine pruned.same.subtree_one ⟨not_root_reaches_output inside, ?_⟩
  intro reaches
  have apart := @apart_output_root p.toTransactionPlan [] []
  exact apart.1 (inside.trans reaches)

section

variable (kept : Kept p fs after)
include kept

theorem Kept.outside (outside : p.Outside fs) : p.Outside after := by
  intro path outsideRoot outsideOutput
  rw [kept.entry path outsideRoot, outside path outsideRoot outsideOutput]

theorem Kept.rest (rest : p.Rest fs) : p.Rest after := by
  intro path inside away
  rw [kept.entry path (not_root_reaches_output inside), rest path inside away]

theorem Kept.restored (restored : p.Restored fs) : p.Restored after := by
  cases mode : p.mode with
  | entries =>
    obtain ⟨outside, rest, originals⟩ := (restored_entries_iff mode).mp restored
    refine (restored_entries_iff mode).mpr ⟨kept.outside outside, kept.rest rest, ?_⟩
    intro slot member
    obtain ⟨same, absent⟩ := originals slot member
    exact ⟨(kept.output _ (prefix_append _ _)).trans same, kept.absent _ (by decide) _ absent⟩
  | directorySwap =>
    obtain ⟨outside, same, absent⟩ := (restored_swap_iff mode).mp restored
    exact (restored_swap_iff mode).mpr ⟨kept.outside outside,
      (kept.output _ (prefix_refl _)).trans same, kept.absent _ (by decide) [] absent⟩

end

/-- A state on the way back from recorded mutations. -/
def Unrolling (p : PreparedTransaction) (pages : Pages) (fs after : Files) : Prop :=
  Reverting p pages fs after ∨
    ∃ restored, Reverting p pages fs restored ∧ p.Restored restored ∧ Cleaning p.root restored after

theorem PreparedTransaction.Restored.output (restored : p.Restored fs) :
    fs.entry p.output = some .directory := by
  cases mode : p.mode with
  | entries =>
    obtain ⟨_, rest, _⟩ := (restored_entries_iff mode).mp restored
    rw [rest p.output (prefix_refl _) fun _ _ => not_child_reaches_self, p.output_eq]
  | directorySwap =>
    obtain ⟨_, same, _⟩ := (restored_swap_iff mode).mp restored
    exact entry_of_leaf same

theorem wp_rollbackTransaction
    {phase : JournalPhase} {sequence : UInt32} {post : Post Unit}
    (journaled : Journaled p.toTransactionPlan pages fs) (working : p.Working fs)
    (truthful : E.Truthful) (crashes : ∀ after, Unrolling p pages fs after → E.crash after)
    (success : ∀ after, Unrolling p pages fs after → p.Restored after →
      after.entry p.root = none → (E.Reliable → Undoable p fs) → post (.ok ()) after)
    (failure : ∀ recovered failures paths after, Unrolling p pages fs after →
      (recovered = true → p.Restored after) → (E.Reliable → ¬ Undoable p fs) →
      post (.error (recoveryReport p.space p.root (some .rollingBack) false recovered failures
        paths)) after) :
    (rollbackTransaction p.space p.root p.limits (p.snapshot phase sequence)).run.wp E post fs := by
  refine wp_bind (wp_rollbackOutputs journaled working truthful ?_ ?_)
  · exact fun after reverting => crashes after (.inl reverting)
  intro failures middle reverting undone honest
  refine wp_bind (wp_rejectFailures (crashes middle (.inl reverting)) ?_ ?_)
  · intro none
    have restored := undone none
    have undoable : E.Reliable → Undoable p fs := fun reliable => (honest reliable).mp none
    have cleaning : ∀ after, Cleaning p.root middle after → Unrolling p pages fs after :=
      fun after cleaning => .inr ⟨middle, reverting, restored, cleaning⟩
    -- An interrupted cleanup is reported, and the outputs stay restored.
    have report : ∀ after, Unrolling p pages fs after → p.Restored after →
        E.Safe (fun error state => E.crash state ∧ ∀ paths, post (.error (recoveryReport p.space
          p.root (some .rollingBack) false true [OffprintError.display error] paths)) state)
          after := by
      intro after unrolling whole
      have here := crashes after unrolling
      exact ⟨here, fun unreliable error => ⟨here, fun paths => failure true _ paths after unrolling
        (fun _ => whole) fun reliable => absurd reliable unreliable⟩⟩
    refine wp_bind (wp_orRecoveryError (wp_syncDirectory ?_
      (report middle (.inl reverting) restored) ?_))
    · rw [show p.space.outputDirectory = p.output from rfl, restored.output]
      rfl
    · refine wp_orRecoveryError (reverting.journaled.wp_cleanup ?_ ?_)
      · exact fun after clean => report after (cleaning after clean) (clean.kept.restored restored)
      · exact fun after clean gone =>
          success after (cleaning after clean) (clean.kept.restored restored) gone undoable
  · intro some paths
    refine failure false _ paths middle (.inl reverting) (fun recovered => by cases recovered) ?_
    exact fun reliable undoable => some ((honest reliable).mpr undoable)

end Clean
end Offprint.Artifact
