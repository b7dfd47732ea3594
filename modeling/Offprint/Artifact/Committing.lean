import Offprint.Artifact.Install

/-!
# Committing

The whole of a commit: from the prepared journal to the recorded commit, with every
way it may fail, and from there to the end.
-/

namespace Offprint.Artifact

open Data Effect Model Action

variable {E : Environment (fileInterface OsString)} {fs after : Files} [Sha256]
  {p : PreparedTransaction} {injector : FaultInjector} {pages : Pages}

section States

/-- Something other than a crash between two operations may happen. -/
def Disturbed (E : Environment (fileInterface OsString)) (injector : FaultInjector) : Prop :=
  ¬ E.Reliable ∨ E.Tears ∨ ∃ point, injector point ≠ none

omit [Sha256] in
theorem Cause.disturbed {error : OffprintError × FaultAction} (cause : Cause E injector error) :
    Disturbed E injector := by
  rcases cause with ⟨unreliable, _⟩ | ⟨point, action, found, _⟩
  · exact .inl unreliable
  · refine .inr (.inr ⟨point, ?_⟩)
    rw [found]
    nofun

theorem Mutating.unfinished (mutating : Mutating p fs) : Unfinished p mutatingPages fs :=
  ⟨mutating.journaled, ⟨.inr rfl, .inr rfl, .inr (.inr rfl), .inl rfl⟩,
    mutating.working, fun idle => absurd (.inl rfl) idle⟩

/-- The states a commit passes through before it is recorded. -/
def Committing (p : PreparedTransaction) (disturbed : Prop) (fs : Files) : Prop :=
  Cleaning p.root p.files fs ∨ Mutating p fs ∨ disturbed ∧ Open p fs

omit [Sha256] in
theorem uncommitted_preparedPages : preparedPages.Uncommitted :=
  ⟨.inr rfl, .inr rfl, .inl rfl, .inl rfl⟩

theorem Committing.pending {disturbed : Prop} (committing : Committing p disturbed fs) :
    Open p fs := by
  rcases committing with cleaning | mutating | ⟨_, pending⟩
  · exact open_of_cleaning p.journaled uncommitted_preparedPages PreparedTransaction.restored_files
      cleaning
  · exact .inr ⟨_, mutating.unfinished⟩
  · exact pending

/-- An error that says the outputs are as they were. -/
def ClaimsRollback (error : OffprintError) : Prop :=
  error.detail? "rollbackComplete" = some (.bool true)

omit [Sha256] in
theorem claimsRollback_recoveryReport {space : TransactionNamespace} {root : Path}
    {phase : Option JournalPhase} {commitComplete recovered : Bool} {failures paths : List String} :
    ClaimsRollback (recoveryReport space root phase commitComplete recovered failures paths) ↔
      recovered = true := by
  unfold ClaimsRollback
  simp [recoveryReport]

end States

section Validate

omit [Sha256] in
theorem reading_directMetadata (path : Path) : (directMetadata path).run.Reading := by
  unfold directMetadata
  refine each_bind (reading_performIo rfl) fun result => ?_
  split
  · exact each_bind (each_failIf _ _) fun _ => each_pure _
  · exact each_pure _
  · exact each_throw _

omit [Sha256] in
theorem reading_recheckDestination (space : TransactionNamespace) (conflict : ConflictPolicy)
    (artifact : StagedArtifact) : (recheckDestination space conflict artifact).run.Reading := by
  unfold recheckDestination
  refine each_bind (reading_directMetadata _) fun current => ?_
  split
  · exact each_failIf _ _
  · exact each_failIf _ _
  · split
    · exact each_pure _
    · exact each_throw _
    · split
      · exact each_throw _
      · exact each_failIf _ _
    · exact each_throw _

omit [Sha256] in
theorem reading_ensureEmpty (path : Path) (message : String) :
    (ensureEmpty path message).run.Reading := by
  unfold ensureEmpty outputDirectoryIsEmpty directDirectory
  refine each_bind (each_bind (each_bind (reading_perform rfl _)
    fun _ => each_pure _) fun _ => ?_) fun _ => each_failIf _ _
  exact each_bind (each_failIf _ _) fun _ =>
    each_bind (reading_perform rfl _) fun _ => each_pure _

theorem reading_validateBeforeMutation (request : CommitRequest) :
    (validateBeforeMutation request).run.Reading := by
  unfold validateBeforeMutation validateStagedArtifacts recheckDestinations
  refine each_bind (each_forM fun artifact _ =>
    reading_validateEntryPath _ _ _) fun _ => ?_
  refine each_bind (each_forM fun artifact _ =>
    reading_recheckDestination _ _ artifact) fun _ => ?_
  cases request.mode with
  | entries => exact each_pure _
  | directorySwap => exact reading_ensureEmpty _ _

end Validate

section Fail

variable {journal : JournalStore}

theorem wp_cleanPreparedFailure {source : OffprintError} {post : Post JournalStore}
    (journaled : Journaled p.toTransactionPlan pages fs)
    (crashes : ∀ after, Cleaning p.root fs after → E.crash after)
    (failure : ∀ error after, Cleaning p.root fs after → post (.error error) after) :
    (cleanPreparedFailure (p.request journal) source : Durable JournalStore).run.wp E post fs := by
  unfold cleanPreparedFailure
  refine wp_attempt_bind (journaled.wp_cleanup ?_ ?_)
  · exact fun after cleaning => ⟨crashes after cleaning, fun _ _ => failure _ after cleaning⟩
  · exact fun after cleaning _ => failure _ after cleaning

theorem Mutating.wp_handleMutatingFailure
    {error : OffprintError × FaultAction} {post : Post JournalStore}
    (mutating : Mutating p fs) (cause : Cause E injector error) (truthful : E.Truthful)
    (crashes : ∀ after, Open p after → E.crash after)
    (failure : ∀ error after, Open p after → (ClaimsRollback error → p.Restored after) →
      post (.error error) after) :
    (handleMutatingFailure (p.request p.mutatingStore) error.1 error.2 :
      Durable JournalStore).run.wp E post fs := by
  have unfinished := mutating.unfinished
  have here : Open p fs := .inr ⟨_, unfinished⟩
  unfold handleMutatingFailure
  cases action : error.2 with
  | crash =>
    refine failure _ fs here fun claims => ?_
    obtain ⟨point, found⟩ : ∃ point, error = (injectedFault point .crash, .crash) := by
      rcases cause with ⟨_, ordinary⟩ | ⟨point, chosen, _, rfl⟩
      · rw [action] at ordinary
        cases ordinary
      · obtain rfl : chosen = .crash := action
        exact ⟨point, rfl⟩
    subst found
    simp [ClaimsRollback, injectedFault] at claims
  | error =>
    have pending : ∀ source state, Open p state →
        post (.error (recoveryPendingError p.space p.root source)) state := by
      intro source state there
      refine failure _ state there fun claims => ?_
      simp [ClaimsRollback, recoveryPendingError, transactionError] at claims
    refine wp_attempt_bind ?_
    refine mutating.journaled.wp_persist rfl (by decide) rfl
      ⟨crashes fs here, fun _ _ => pending _ fs here⟩ ?_ ?_ ?_
    · exact fun _ _ => pending _ fs here
    · intro fits begun written same
      have recorded : RollingBack p mutatingPages fs _ begun :=
        .now rfl rfl fits (alike_of_page (by decide) same)
      have working := recorded.alike.working mutating.working
      have on : ∀ after, Unrolling p _ begun after → Open p after := fun after unrolling =>
        unfinished.restarting (.unrolling recorded written unrolling)
      have started := on begun (.inl ⟨written, working, id⟩)
      refine .inr ⟨⟨crashes begun started, fun _ _ => pending _ begun started⟩, ?_⟩
      refine wp_attempt_bind (wp_rollbackTransaction written working truthful ?_ ?_ ?_)
      · exact fun after unrolling => crashes after (on after unrolling)
      · exact fun after unrolling restored _ _ => failure _ after (on after unrolling)
          fun _ => restored
      · intro recovered failures paths after unrolling restored _
        refine failure _ after (on after unrolling) fun claims => restored ?_
        rw [ClaimsRollback, OffprintError.detail?_withSource] at claims
        exact claimsRollback_recoveryReport.mp claims
    · intro after torn same
      have there : Open p after :=
        .inr ⟨_, unfinished.torn rfl torn (alike_of_page (by decide) same)⟩
      exact ⟨fun _ => .inr (crashes after there), fun _ _ => .inr (pending _ after there)⟩

end Fail

section Record

namespace PreparedTransaction

variable (p : PreparedTransaction)

def preparedStore : JournalStore :=
  ⟨p.root, p.snapshot .prepared 1, 2⟩

def committedStore : JournalStore :=
  ⟨p.root, p.snapshot .committed 3, 4⟩

end PreparedTransaction

omit [Sha256] in
theorem update_preparedPages : Function.update preparedPages 2 (.full .mutating) =
    mutatingPages := by
  funext sequence
  by_cases two : sequence = 2 <;> simp [preparedPages, mutatingPages, two]

omit [Sha256] in
theorem update_mutatingPages :
    Function.update mutatingPages 3 (.full .committed) = committedPages := by
  funext sequence
  by_cases three : sequence = 3 <;> simp [mutatingPages, committedPages, three]

variable {post : Post JournalStore}

theorem Mutating.wp_confirmCommit (mutating : Mutating p fs) (delivered : p.Delivered fs)
    (crashes : ∀ after, Mutating p after → E.crash after)
    (torn : E.Tears ∨ ¬ E.Reliable → ∀ after, Open p after →
      E.crash after ∧ ∀ error, post (.error error) after)
    (recorded : ∀ after, Journaled p.toTransactionPlan committedPages after → p.Delivered after →
      E.stop after ∨ E.Safe (post ∘ .error) after ∧ post (.ok p.committedStore) after)
    (failure : ∀ error after, Mutating p after → post (.error error) after) :
    (confirmCommit (p.request p.mutatingStore)).run.wp E post fs := by
  have safe : E.Safe (post ∘ .error) fs :=
    ⟨crashes fs mutating, fun _ error => failure error fs mutating⟩
  unfold confirmCommit
  refine wp_bind (wp_syncDirectory ?_ safe ?_)
  · rw [show (p.request p.mutatingStore).space.outputDirectory = p.output from rfl,
      delivered.output]
    rfl
  refine mutating.journaled.wp_persist rfl (by decide) rfl safe ?_ ?_ ?_
  · exact fun _ error => failure error fs mutating
  · intro _ after written same
    rw [update_mutatingPages] at written
    exact recorded after written ((alike_of_page (by decide) same).kept.delivered delivered)
  · intro after cut same
    have there : Open p after :=
      .inr ⟨_, mutating.unfinished.torn rfl cut (alike_of_page (by decide) same)⟩
    exact ⟨fun tears => .inr (torn (.inl tears) after there).1, fun unreliable error =>
      .inr ((torn (.inr unreliable) after there).2 error)⟩

section

variable (truthful : E.Truthful)
  (crashes : ∀ after, Committing p (Disturbed E injector) after → E.crash after)
  (recorded : ∀ after, Journaled p.toTransactionPlan committedPages after → p.Delivered after →
    E.stop after ∨ E.crash after ∧ post (.ok p.committedStore) after ∧
      (¬ E.Reliable → ∀ error, ¬ ClaimsRollback error → post (.error error) after))
  (failure : ∀ error after, Committing p (Disturbed E injector) after →
    (ClaimsRollback error → p.Restored after) → post (.error error) after)
include truthful crashes recorded failure

theorem wp_mutate (journaled : Journaled p.toTransactionPlan mutatingPages fs)
    (alike : Alike p p.files fs) :
    (mutate (p.request p.mutatingStore) injector).run.wp E post fs := by
  have under : ∀ after, Mutating p after → Committing p (Disturbed E injector) after :=
    fun after mutating => .inr (.inl mutating)
  have unclaimed : ∀ source, ¬ ClaimsRollback (commitConfirmationError p.space p.root source) := by
    intro source claims
    simp [ClaimsRollback, commitConfirmationError, transactionError] at claims
  unfold mutate
  refine wp_bind (wp_run_lift.mpr (wp_mutateOutputs journaled alike
    ⟨fun after mutating => crashes after (under after mutating), ?_⟩ ?_))
  rotate_left
  · intro after mutating delivered
    refine wp_attempt_bind (mutating.wp_confirmCommit delivered
      (fun after mutating => crashes after (under after mutating)) ?_ ?_ ?_)
    · intro cause torn pending
      have disturbed : Disturbed E injector :=
        cause.elim (fun tears => .inr (.inl tears)) .inl
      have there : Committing p (Disturbed E injector) torn := .inr (.inr ⟨disturbed, pending⟩)
      exact ⟨crashes torn there, fun error => failure _ torn there fun claims =>
        absurd claims (unclaimed error)⟩
    · intro final written delivered
      refine (recorded final written delivered).imp_right fun settled => ?_
      exact ⟨⟨settled.1, fun unreliable error => settled.2.2 unreliable _ (unclaimed error)⟩,
        settled.2.1⟩
    · exact fun error after mutating => failure _ after (under after mutating) fun claims =>
        absurd claims (unclaimed error)
  · intro error after mutating cause
    have pending : ∀ state, Open p state → Committing p (Disturbed E injector) state :=
      fun state pending => .inr (.inr ⟨cause.disturbed, pending⟩)
    exact mutating.wp_handleMutatingFailure cause truthful
      (fun state there => crashes state (pending state there))
      fun error state there honest => failure error state (pending state there) honest

theorem wp_recordCommit :
    (recordCommit (p.request p.preparedStore) injector).run.wp E post p.files := by
  have restored := @PreparedTransaction.restored_files _ p
  have here : E.crash p.files := crashes _ (.inl (Cleaning.refl p.root p.files))
  have giveUp : ∀ source, (cleanPreparedFailure (p.request p.preparedStore) source :
      Durable JournalStore).run.wp E post p.files := by
    intro source
    refine wp_cleanPreparedFailure p.journaled (fun after cleaning =>
      crashes after (.inl cleaning))
      ?_
    exact fun error after cleaning => failure error after (.inl cleaning) fun _ =>
      cleaning.kept.restored restored
  have abandon : ∀ {pages marked}, Journaled p.toTransactionPlan pages marked →
      pages.Uncommitted → p.Restored marked → Disturbed E injector →
      ∀ source, (cleanPreparedFailure (p.request p.preparedStore) source :
        Durable JournalStore).run.wp E post marked := by
    intro pages marked journaled uncommitted whole disturbed source
    have there : ∀ after, Cleaning p.root marked after →
      Committing p (Disturbed E injector) after :=
      fun after cleaning => .inr (.inr
        ⟨disturbed, open_of_cleaning journaled uncommitted whole cleaning⟩)
    refine wp_cleanPreparedFailure journaled (fun after cleaning =>
      crashes after (there after cleaning))
      ?_
    exact fun error after cleaning => failure error after (there after cleaning) fun _ =>
      cleaning.kept.restored whole
  unfold recordCommit
  refine wp_attempt_bind
    (Program.wp_of_observing (reading_validateBeforeMutation _).observing here ?_)
  intro result _
  cases result with
  | error error => exact giveUp error
  | ok value =>
    refine wp_attempt_bind ?_
    refine p.journaled.wp_persist rfl (by decide) rfl ⟨here, fun _ error => giveUp error⟩ ?_ ?_ ?_
    · exact fun _ error => giveUp error
    · intro _ marked written same
      have alike : Alike p p.files marked := alike_of_page (by decide) same
      rw [update_preparedPages] at written
      have mutating : Mutating p marked :=
        ⟨written, (alike.kept.restored restored).working, alike.bare (by decide) (by decide)⟩
      refine .inr ⟨⟨crashes marked (.inr (.inl mutating)), fun unreliable error => ?_⟩,
        wp_mutate truthful crashes recorded failure written alike⟩
      exact abandon mutating.unfinished.journaled mutating.unfinished.uncommitted
        (alike.kept.restored restored) (.inl unreliable) error
    · intro marked cut same
      have alike : Alike p p.files marked := alike_of_page (by decide) same
      have uncommitted : Pages.Uncommitted (Function.update preparedPages 2 .torn) :=
        ⟨.inr rfl, .inr rfl, .inr (.inl rfl), .inl rfl⟩
      have there : Open p marked :=
        open_of_cleaning cut uncommitted (alike.kept.restored restored)
          (Cleaning.refl p.root marked)
      refine ⟨fun tears => .inr (crashes marked (.inr (.inr ⟨.inr (.inl tears), there⟩))),
        fun unreliable error => .inr ?_⟩
      exact abandon cut uncommitted (alike.kept.restored restored) (.inl unreliable) error

end

end Record

section Finish

def PreparedTransaction.results (p : PreparedTransaction) : List ExportedArtifact :=
  p.artifacts.map (buildResult (p.request p.preparedStore))

theorem settled_of_journaled
    (journaled : Journaled p.toTransactionPlan committedPages fs) (delivered : p.Delivered fs) :
    Settled p fs :=
  ⟨delivered, .inr ⟨committedPages, journaled, fun _ => .inr rfl, .inl rfl⟩⟩

variable {post : Post (List ExportedArtifact)}

theorem wp_finishCommit
    (journaled : Journaled p.toTransactionPlan committedPages fs) (delivered : p.Delivered fs)
    (crashes : ∀ after, Settled p after → E.crash after)
    (success : ∀ after, after.entry p.root = none → p.Delivered after → post (.ok p.results) after)
    (failure : ∀ error after, Settled p after → (E.Reliable → ¬ ClaimsRollback error) →
      post (.error error) after) :
    (finishCommit (p.request p.preparedStore) injector p.committedStore).run.wp E post fs := by
  have there : ∀ after, Cleaning p.root fs after → Settled p after := fun after cleaning =>
    settled_of_cleaning journaled (fun _ => .inr rfl) (.inl rfl) delivered cleaning
  have here := settled_of_journaled journaled delivered
  have pass : ∀ {point} {next : Post Unit}, next (.ok ()) fs →
      (∀ error, ¬ ClaimsRollback error → next (.error error) fs) →
      (passCommitted (p.request p.preparedStore) injector point).run.wp E next fs := by
    intro point next passed stopped
    unfold passCommitted
    cases injector point with
    | none => exact passed
    | some action =>
      refine stopped _ fun claims => ?_
      simp [ClaimsRollback, committedRecoveryError, transactionError] at claims
  have stopped : ∀ error, ¬ ClaimsRollback error → post (.error error) fs :=
    fun error unclaimed => failure error fs here fun _ => unclaimed
  unfold finishCommit
  refine wp_bind (pass (wp_bind (pass ?_ stopped)) stopped)
  refine wp_bind (journaled.wp_finalizeCommitted delivered ?_ ?_)
  · exact fun after cleaning => ⟨crashes after (there after cleaning), fun unreliable error =>
      failure error after (there after cleaning) fun reliable => absurd reliable unreliable⟩
  · exact fun after cleaning gone => success after gone (cleaning.kept.delivered delivered)

end Finish
end Offprint.Artifact
