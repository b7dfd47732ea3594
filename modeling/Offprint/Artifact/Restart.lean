import Offprint.Artifact.Rollback

/-!
# Restarting

What recovery makes of a transaction that was interrupted before its commit was
recorded.  The states a recovery passes through are described once; everything an
interruption may leave is read off that description.
-/

namespace Offprint.Artifact

open Data Effect Model Action PreparedTransaction JournalStore

variable {E : Environment (fileInterface OsString)} {fs after : Files} [Sha256]
  {p : PreparedTransaction} {pages : Pages} {sequence : UInt32}

section Alike

/-- Two file systems with the same outputs and the same areas. -/
structure Alike (p : PreparedTransaction) (fs after : Files) : Prop where
  entry : ∀ path, ¬ p.root <+: path → after.entry path = fs.entry path
  output : ∀ path, p.output <+: path → after.subtree path = fs.subtree path
  area : ∀ area ∈ areaNames, ∀ rest,
    after.subtree (p.root ++ area :: rest) = fs.subtree (p.root ++ area :: rest)

theorem alike_of_page (small : sequence ∈ sequences)
    (same : FileSystem.SameOutside [p.root ++ [fileName sequence]] fs after) :
    Alike p fs after := by
  have inside : p.root <+: p.root ++ [fileName sequence] := List.prefix_append _ _
  refine ⟨?_, ?_, ?_⟩
  · intro path outside
    exact same.entry_one fun reaches => outside (inside.trans reaches)
  · rintro path ⟨rest, rfl⟩
    exact same.subtree_one (TransactionPlan.apart_output_root rest _).symm
  · intro area member rest
    refine same.subtree_one (apart_of_diverging p.root ?_ [] rest)
    rintro rfl
    exact not_journal_of_area _ member (List.mem_map_of_mem small)

section

variable (alike : Alike p fs after)
include alike

theorem Alike.backup (index : Nat) :
    after.subtree (backupPath p.root index) = fs.subtree (backupPath p.root index) :=
  alike.area _ (by decide) _

theorem Alike.sameSlot (slot : JournalEntry × Nat) : SameSlot p fs after slot :=
  ⟨alike.output _ (List.prefix_append _ _), alike.backup slot.2,
    entry_of_subtree (alike.area _ (by decide) _),
    TransactionPlan.staged_eq slot.1 ▸ alike.area _ (by decide) _⟩

theorem Alike.swapIs {swap : Swap} (is : p.SwapIs fs swap) : p.SwapIs after swap := by
  have output := alike.output p.output (List.prefix_refl _)
  have previous : after.subtree p.previous = fs.subtree p.previous := alike.area _ (by decide) []
  have discard : after.subtree p.discardOutput = fs.subtree p.discardOutput :=
    alike.area _ (by decide) []
  cases swap with
  | untouched => exact ⟨output.trans is.1, (entry_of_subtree previous).trans is.2⟩
  | moved => exact ⟨(entry_of_subtree output).trans is.1, previous.trans is.2⟩
  | recreated => exact ⟨output.trans is.1, previous.trans is.2⟩
  | replaced =>
    exact ⟨output.trans is.1, previous.trans is.2.1, (entry_of_subtree discard).trans is.2.2⟩

theorem Alike.kept : Kept p fs after :=
  ⟨alike.entry, alike.output, fun area member rest absent =>
    (entry_of_subtree (alike.area area member rest)).trans absent⟩

theorem Alike.working (working : p.Working fs) : p.Working after := by
  refine ⟨alike.kept.outside working.1, ?_⟩
  have outputs := working.2
  unfold Outputs at outputs ⊢
  cases mode : p.mode with
  | entries =>
    rw [mode] at outputs
    exact ⟨alike.kept.rest outputs.1, fun slot member =>
      (alike.sameSlot slot).isKnown (outputs.2 slot member)⟩
  | directorySwap =>
    rw [mode] at outputs
    obtain ⟨swap, is⟩ := outputs
    exact ⟨swap, alike.swapIs is⟩

theorem Alike.undoable_iff : Undoable p after ↔ Undoable p fs := by
  unfold Undoable
  cases p.mode with
  | entries =>
    exact forall₂_congr fun slot _ => not_congr (alike.sameSlot slot).stuck_iff
  | directorySwap =>
    have previous : after.entry p.previous = fs.entry p.previous :=
      entry_of_subtree (alike.area _ (by decide) [])
    have discard : after.entry p.discardOutput = fs.entry p.discardOutput :=
      entry_of_subtree (alike.area _ (by decide) [])
    have output := entry_of_subtree (alike.output p.output (List.prefix_refl _))
    simp only [Crowded, previous, discard, output]

end

end Alike

section Drop

variable {plan : TransactionPlan} {post : Post Unit}

omit [Sha256] in
theorem Journaled.wp_recoverUnknown (journaled : Journaled plan pages fs)
    (crashes : ∀ after, Cleaning plan.root fs after → E.crash after)
    (success : ∀ after, Cleaning plan.root fs after → after.entry plan.root = none →
      (∀ child, fs.entry (plan.root ++ [child]) = none) → post (.ok ()) after)
    (failure : ∀ error after, Cleaning plan.root fs after →
      (E.Reliable → ¬ ∀ child, fs.entry (plan.root ++ [child]) = none) →
      post (.error error) after) : (recoverUnknown plan.space plan.root).run.wp E post fs := by
  have here := Cleaning.refl plan.root fs
  have safe : ∀ after, Cleaning plan.root fs after → E.Safe (post ∘ .error) after :=
    fun after clean => ⟨crashes after clean, fun unreliable error =>
      failure error after clean fun reliable => absurd reliable unreliable⟩
  refine wp_bind (wp_orRecoveryError (wp_directoryIsEmpty journaled.directory
    (safe_report (safe fs here)) ?_))
  intro empty vacant
  refine wp_bind (wp_rejectFailures (crashes fs here) ?_ ?_)
  · intro none
    have bare : empty = true := by
      by_contra occupied
      rw [if_neg occupied] at none
      cases none
    exact journaled.wp_cleanup safe fun after clean gone =>
      success after clean gone (vacant.mp bare)
  · intro some paths
    refine failure _ fs here fun _ bare => some ?_
    rw [if_pos (vacant.mpr bare)]

end Drop

section Uncommitted

/-- The pages of a transaction whose commit is not recorded. -/
structure Pages.Uncommitted (pages : Pages) : Prop where
  staging : pages 0 = .absent ∨ pages 0 = .full .staging
  prepared : pages 1 = .absent ∨ pages 1 = .full .prepared
  mutating : pages 2 = .absent ∨ pages 2 = .torn ∨ pages 2 = .full .mutating
  rollingBack : pages 3 = .absent ∨ pages 3 = .torn ∨ pages 3 = .full .rollingBack

def Pages.Mutated (pages : Pages) : Prop :=
  pages 2 = .full .mutating ∨ pages 3 = .full .rollingBack

omit [Sha256] in
theorem Pages.Uncommitted.latest_of_not_mutated
    (uncommitted : pages.Uncommitted) (idle : ¬ pages.Mutated) :
    pages.latest = none ∨ ∃ sequence, pages.latest = some (.staging, sequence) ∨
      pages.latest = some (.prepared, sequence) := by
  obtain ⟨zero, one, two, three⟩ := uncommitted
  unfold Pages.Mutated at idle
  unfold Pages.latest
  rcases zero with zero | zero <;> rcases one with one | one <;>
    rcases two with two | two | two <;> rcases three with three | three | three <;>
    simp_all [Page.orElse]

omit [Sha256] in
theorem Pages.Uncommitted.latest_of_rollingBack (recorded : pages 3 = .full .rollingBack) :
    pages.latest = some (.rollingBack, 3) := by
  simp [Pages.latest, recorded, Page.orElse]

omit [Sha256] in
theorem Pages.Uncommitted.latest_of_mutating
    (uncommitted : pages.Uncommitted) (recorded : pages 2 = .full .mutating)
    (unfinished : pages 3 ≠ .full .rollingBack) : pages.latest = some (.mutating, 2) := by
  rcases uncommitted.rollingBack with three | three | three
  · simp [Pages.latest, recorded, three, Page.orElse]
  · simp [Pages.latest, recorded, three, Page.orElse]
  · exact absurd three unfinished

end Uncommitted

section Recover

inductive RollingBack (p : PreparedTransaction) (pages : Pages) (fs : Files) :
    Pages → Files → Prop where
  | already (recorded : pages 3 = .full .rollingBack) : RollingBack p pages fs pages fs
  | now {begun : Files} (mutating : pages 2 = .full .mutating) (absent : pages 3 = .absent)
      (fits : p.fits .rollingBack 3) (alike : Alike p fs begun) :
      RollingBack p pages fs (Function.update pages 3 (.full .rollingBack)) begun

/-- The states a recovery passes through before the commit is recorded. -/
inductive Restarting (p : PreparedTransaction) (pages : Pages) (fs : Files) : Files → Prop where
  | dropping {after : Files} (idle : ¬ pages.Mutated) (cleaning : Cleaning p.root fs after) :
      Restarting p pages fs after
  | reading (mutated : pages.Mutated) : Restarting p pages fs fs
  | unrolling {later : Pages} {begun after : Files} (recorded : RollingBack p pages fs later begun)
      (journaled : Journaled p.toTransactionPlan later begun)
      (unrolling : Unrolling p later begun after) : Restarting p pages fs after

theorem Restarting.start : Restarting p pages fs fs := by
  by_cases mutated : pages.Mutated
  · exact .reading mutated
  · exact .dropping mutated (Cleaning.refl p.root fs)

/-- What lets an undisturbed recovery succeed. -/
structure Live (p : PreparedTransaction) (pages : Pages) (fs : Files) : Prop where
  bare : pages.latest = none → ∀ child, fs.entry (p.root ++ [child]) = none
  room : pages 2 = .full .mutating →
    pages 3 = .full .rollingBack ∨ pages 3 = .absent ∧ p.fits .rollingBack 3
  undoable : pages.Mutated → Undoable p fs

variable {later : Pages} {begun : Files} {post : Post Unit}

theorem RollingBack.alike (recorded : RollingBack p pages fs later begun) : Alike p fs begun := by
  cases recorded with
  | already => exact ⟨fun _ _ => rfl, fun _ _ => rfl, fun _ _ _ => rfl⟩
  | now _ _ _ alike => exact alike

theorem RollingBack.live
    (recorded : RollingBack p pages fs later begun) (undoable : Undoable p begun) :
    Live p pages fs := by
  have undoableBefore := recorded.alike.undoable_iff.mp undoable
  cases recorded with
  | already rollingBack =>
    refine ⟨?_, fun _ => .inl rollingBack, fun _ => undoableBefore⟩
    intro nothing
    rw [Pages.Uncommitted.latest_of_rollingBack rollingBack] at nothing
    cases nothing
  | now mutating absent fits _ =>
    refine ⟨?_, fun _ => .inr ⟨absent, fits⟩, fun _ => undoableBefore⟩
    intro nothing
    simp [Pages.latest, mutating, absent, Page.orElse] at nothing

/-- What the caller of a recovery has to know of every way it may end. -/
structure Expects (E : Environment (fileInterface OsString)) (p : PreparedTransaction)
    (pages : Pages) (fs : Files) (post : Except OffprintError Unit → Files → Prop) : Prop where
  crashes : ∀ after, Restarting p pages fs after → E.crash after
  torn : ∀ after, pages 2 = .full .mutating → pages 3 = .absent →
    Journaled p.toTransactionPlan (Function.update pages 3 .torn) after → Alike p fs after →
    (E.Tears ∨ ¬ E.Reliable → E.crash after) ∧
      (¬ E.Reliable → ∀ error, post (.error error) after)
  success : ∀ after, Restarting p pages fs after → after.entry p.root = none →
    p.Restored after → (E.Reliable → Live p pages fs) → post (.ok ()) after
  failure : ∀ error after, Restarting p pages fs after → (E.Reliable → ¬ Live p pages fs) →
    post (.error error) after

theorem Expects.safe (expects : Expects E p pages fs post)
    (restarting : Restarting p pages fs after) : E.Safe (post ∘ .error) after :=
  ⟨expects.crashes after restarting, fun unreliable error =>
    expects.failure error after restarting fun reliable => absurd reliable unreliable⟩

/-- A transaction whose commit is not recorded. -/
structure Unfinished (p : PreparedTransaction) (pages : Pages) (fs : Files) : Prop where
  journaled : Journaled p.toTransactionPlan pages fs
  uncommitted : pages.Uncommitted
  working : p.Working fs
  idle : ¬ pages.Mutated → p.Restored fs

theorem RollingBack.wp_rollback {phase : JournalPhase}
    (recorded : RollingBack p pages fs later begun)
    (journaled : Journaled p.toTransactionPlan later begun) (working : p.Working fs)
    (truthful : E.Truthful) (expects : Expects E p pages fs post) :
    (rollbackTransaction p.space p.root p.limits (p.snapshot phase sequence)).run.wp E post
      begun := by
  have on : ∀ after, Unrolling p later begun after → Restarting p pages fs after :=
    fun after unrolling => .unrolling recorded journaled unrolling
  have mutated : pages.Mutated := by
    cases recorded with
    | already rollingBack => exact .inr rollingBack
    | now mutating _ _ _ => exact .inl mutating
  refine wp_rollbackTransaction journaled (recorded.alike.working working) truthful ?_ ?_ ?_
  · exact fun after unrolling => expects.crashes after (on after unrolling)
  · intro after unrolling restored gone undoable
    exact expects.success after (on after unrolling) gone restored fun reliable =>
      recorded.live (undoable reliable)
  · intro recovered failures paths after unrolling _ stuck
    refine expects.failure _ after (on after unrolling) fun reliable live => ?_
    exact stuck reliable (recorded.alike.undoable_iff.mpr (live.undoable mutated))

theorem Unfinished.wp_recoverRoot (unfinished : Unfinished p pages fs) (truthful : E.Truthful)
    (expects : Expects E p pages fs post) :
    (recoverRoot p.space p.limits p.root).run.wp E post fs := by
  obtain ⟨journaled, uncommitted, working, idle⟩ := unfinished
  have ⟨crashes, torn, success, failure⟩ := expects
  have here := expects.safe Restarting.start
  refine wp_bind (wp_orRecoveryError (journaled.wp_load (safe_report here) ?_))
  · by_cases mutated : pages.Mutated
    · by_cases rollingBack : pages 3 = .full .rollingBack
      · rw [Pages.Uncommitted.latest_of_rollingBack rollingBack]
        exact (RollingBack.already rollingBack).wp_rollback journaled working truthful expects
      · have mutating := mutated.resolve_right rollingBack
        rw [uncommitted.latest_of_mutating mutating rollingBack]
        have stored : fromSnapshot p.root (p.snapshot .mutating 2) =
            ⟨p.root, p.snapshot .mutating 2, 3⟩ := rfl
        refine wp_bind (wp_orRecoveryError ?_)
        rcases uncommitted.rollingBack with absent | cut | recorded
        · refine journaled.wp_persist stored (by decide) absent (safe_report here) ?_ ?_ ?_
          · intro long error
            refine ⟨here.crash, fun paths => failure _ fs Restarting.start fun _ live => ?_⟩
            exact (live.room mutating).elim rollingBack fun room => long room.2
          · intro fits begun written same
            have recorded : RollingBack p pages fs _ begun :=
              .now mutating absent fits (alike_of_page (by decide) same)
            have visited : Restarting p pages fs begun :=
              .unrolling recorded written
                (.inl ⟨written, recorded.alike.working working, id⟩)
            exact .inr ⟨safe_report (expects.safe visited),
              recorded.wp_rollback written working truthful expects⟩
          · intro after cut same
            obtain ⟨tears, fails⟩ := torn after mutating absent cut (alike_of_page (by decide) same)
            exact ⟨fun tear => .inr (tears (.inl tear)), fun unreliable error =>
              .inr ⟨tears (.inr unreliable), fun paths => fails unreliable _⟩⟩
        · refine journaled.wp_persist_occupied stored (by decide) (by rw [cut]; nofun) here.crash ?_
          intro error
          refine ⟨here.crash, fun paths => failure _ fs Restarting.start fun _ live => ?_⟩
          refine (live.room mutating).elim rollingBack fun room => ?_
          rw [cut] at room
          cases room.1
        · exact absurd recorded rollingBack
    · have drop : ∀ after, Cleaning p.root fs after → Restarting p pages fs after :=
        fun after cleaning => .dropping mutated cleaning
      have live : pages.latest ≠ none → Live p pages fs := by
        intro readable
        exact ⟨fun none => absurd none readable, fun mutating => absurd (.inl mutating) mutated,
          fun either => absurd either mutated⟩
      have dropped : pages.latest ≠ none → ∀ phase, (orRecoveryError p.space p.root phase false true
          (cleanupTransactionRoot p.root)).run.wp E post fs := by
        intro readable phase
        refine wp_orRecoveryError (journaled.wp_cleanup
          (fun after clean => safe_report (expects.safe (drop after clean))) ?_)
        exact fun after clean gone => success after (drop after clean) gone
          (clean.kept.restored (idle mutated)) fun _ => live readable
      rcases uncommitted.latest_of_not_mutated mutated with none | ⟨sequence, staging | prepared⟩
      · rw [none]
        refine journaled.wp_recoverUnknown (fun after clean => crashes after (drop after clean))
          ?_ ?_
        · intro after clean gone bare
          refine success after (drop after clean) gone
            (clean.kept.restored (idle mutated)) fun _ => ?_
          exact ⟨fun _ => bare, fun mutating => absurd (.inl mutating) mutated,
            fun either => absurd either mutated⟩
        · intro error after clean occupied
          exact failure error after (drop after clean) fun reliable live =>
            occupied reliable (live.bare none)
      · rw [staging]
        exact dropped (by rw [staging]; nofun) _
      · rw [prepared]
        exact dropped (by rw [prepared]; nofun) _

end Recover

section Pending

variable {post : Post Unit}

theorem PreparedTransaction.Outside.housed (outside : p.Outside fs) :
    Housed p.toTransactionPlan fs := by
  have away : ∀ rest, ¬ p.output <+: p.space.path ++ rest := fun rest =>
    (apart_of_diverging [] (fun same => p.space.apart (OsString.utf8.inj same)) [] rest).1
  refine ⟨?_, ?_⟩
  · rw [outside p.space.path not_child_reaches_self]
    · exact p.housed.directory
    · simpa using away []
  · intro child present
    by_cases own : child = .utf8 p.name
    · exact .inr own
    · rw [outside _ (not_child_reaches own) (away [child])] at present
      exact p.housed.alone child present

theorem wp_recover_gone (gone : fs.entry p.root = none) (outside : p.Outside fs)
    (safe : E.Safe (post ∘ .error) fs) (success : post (.ok ()) fs) :
    (recoverPendingTransactions p.space p.limits).run.wp E post fs := by
  refine wp_bind (outside.housed.wp_transactionRoots ?_ safe ?_)
  · intro present
    rw [gone] at present
    cases present
  · rw [gone]
    exact success

theorem Housed.wp_recover_root {plan : TransactionPlan} {limits : ArtifactTransactionLimits}
    (housed : Housed plan fs) (directory : fs.entry plan.root = some .directory)
    (safe : E.Safe (post ∘ .error) fs)
    (recovered : (recoverRoot plan.space limits plan.root).run.wp E post fs) :
    (recoverPendingTransactions plan.space limits).run.wp E post fs := by
  refine wp_bind (housed.wp_transactionRoots (fun _ => directory) safe ?_)
  rw [directory]
  refine wp_bind (Program.wp_mono recovered ?_)
  intro result after settled
  cases result with
  | ok value | error error => exact settled

theorem Unfinished.wp_recover (unfinished : Unfinished p pages fs) (truthful : E.Truthful)
    (expects : Expects E p pages fs post) :
    (recoverPendingTransactions p.space p.limits).run.wp E post fs :=
  unfinished.working.1.housed.wp_recover_root unfinished.journaled.directory
    (expects.safe Restarting.start) (unfinished.wp_recoverRoot truthful expects)

omit [Sha256] in
theorem Pages.Part.uncommitted
    {part : Pages} (within : part.Part pages) (uncommitted : pages.Uncommitted) :
    part.Uncommitted := by
  obtain ⟨zero, one, two, three⟩ := uncommitted
  refine ⟨?_, ?_, ?_, ?_⟩
  · exact (within 0).elim .inl fun same => same ▸ zero
  · exact (within 1).elim .inl fun same => same ▸ one
  · exact (within 2).elim .inl fun same => same ▸ two
  · exact (within 3).elim .inl fun same => same ▸ three

theorem PreparedTransaction.Restored.working (restored : p.Restored fs) : p.Working fs := by
  refine ⟨restored.1, ?_⟩
  have outputs := restored.2
  unfold Outputs at outputs ⊢
  cases mode : p.mode with
  | entries =>
    rw [mode] at outputs
    exact ⟨outputs.1, fun slot member => .inl (outputs.2 slot member)⟩
  | directorySwap =>
    rw [mode] at outputs
    exact ⟨.untouched, outputs⟩

/-- A transaction whose commit is not recorded, or that is gone without a trace. -/
def Open (p : PreparedTransaction) (fs : Files) : Prop :=
  fs.entry p.root = none ∧ p.Restored fs ∨ ∃ pages, Unfinished p pages fs

theorem open_of_cleaning
    (journaled : Journaled p.toTransactionPlan pages fs) (uncommitted : pages.Uncommitted)
    (restored : p.Restored fs) (cleaning : Cleaning p.root fs after) : Open p after := by
  have restoredAfter := cleaning.kept.restored restored
  by_cases gone : after.entry p.root = none
  · exact .inl ⟨gone, restoredAfter⟩
  · obtain ⟨part, journaledAfter, within, _⟩ := journaled.cleaned cleaning gone
    exact .inr ⟨part, journaledAfter, within.uncommitted uncommitted, restoredAfter.working,
      fun _ => restoredAfter⟩

theorem RollingBack.uncommitted
    {later : Pages} {begun : Files} (recorded : RollingBack p pages fs later begun)
    (uncommitted : pages.Uncommitted) : later.Uncommitted ∧ later 3 = .full .rollingBack := by
  cases recorded with
  | already rollingBack => exact ⟨uncommitted, rollingBack⟩
  | now _ _ _ _ =>
    exact ⟨⟨uncommitted.staging, uncommitted.prepared, uncommitted.mutating,
      .inr (.inr rfl)⟩, rfl⟩

theorem Unfinished.restarting
    (unfinished : Unfinished p pages fs) (restarting : Restarting p pages fs after) :
    Open p after := by
  obtain ⟨journaled, uncommitted, working, idle⟩ := unfinished
  cases restarting with
  | dropping inert cleaning => exact open_of_cleaning journaled uncommitted (idle inert) cleaning
  | reading _ => exact .inr ⟨pages, journaled, uncommitted, working, idle⟩
  | unrolling recorded begunJournaled unrolling =>
    obtain ⟨laterUncommitted, rollingBack⟩ := recorded.uncommitted uncommitted
    rcases unrolling with reverting | ⟨restored, reverting, whole, cleaning⟩
    · exact .inr ⟨_, reverting.journaled, laterUncommitted, reverting.working,
        fun inert => absurd (.inr rollingBack) inert⟩
    · exact open_of_cleaning reverting.journaled laterUncommitted whole cleaning

theorem Unfinished.torn (unfinished : Unfinished p pages fs) (mutating : pages 2 = .full .mutating)
    (journaled : Journaled p.toTransactionPlan (Function.update pages 3 .torn) after)
    (alike : Alike p fs after) : Unfinished p (Function.update pages 3 .torn) after := by
  obtain ⟨_, uncommitted, working, _⟩ := unfinished
  refine ⟨journaled, ⟨uncommitted.staging, uncommitted.prepared, uncommitted.mutating,
    .inr (.inl rfl)⟩, alike.working working, ?_⟩
  exact fun inert => absurd (.inl mutating) inert

theorem Open.wp_recover (pending : Open p fs) (truthful : E.Truthful)
    (crashes : ∀ after, Open p after → E.crash after)
    (success : ∀ after, after.entry p.root = none → p.Restored after → post (.ok ()) after)
    (failure : ∀ error after, Open p after → post (.error error) after) :
    (recoverPendingTransactions p.space p.limits).run.wp E post fs := by
  rcases pending with ⟨gone, restored⟩ | ⟨pages, unfinished⟩
  · have here : Open p fs := .inl ⟨gone, restored⟩
    exact wp_recover_gone gone restored.1 ⟨crashes fs here, fun _ error => failure error fs here⟩
      (success fs gone restored)
  · refine unfinished.wp_recover truthful ⟨?_, ?_, ?_, ?_⟩
    · exact fun after restarting => crashes after (unfinished.restarting restarting)
    · intro after mutating _ journaled alike
      have pending : Open p after := .inr ⟨_, unfinished.torn mutating journaled alike⟩
      exact ⟨fun _ => crashes after pending, fun _ error => failure error after pending⟩
    · exact fun after _ gone restored _ => success after gone restored
    · exact fun error after restarting _ => failure error after (unfinished.restarting restarting)

end Pending

end Offprint.Artifact
