import Offprint.Capture.Decision

/-!
# One terminal decision per capture

`Sound` says what the task's position owes to the decision; every action keeps
it, so it holds behind every interleaving.  The threads outside the task never
change its course (`SameCourse`), only the decision and the token, and behind a
successful claim not even the decision.

What fails is the cancellation that comes after the pipeline's own failure was
judged: nothing takes the decision for a failure, so the request still wins it
while the capture ends with `captureFailed`.
-/

namespace Offprint.Capture

open Model CaptureStatus JobControl List

variable {Receipt : Type} (attach : CaptureStatus → OffprintError → OffprintError)

/-! ## Who acts -/

/-- The actions of callers, of the deadline and of the closing runtime. -/
def JobAction.disturbs : JobAction Receipt → Bool
  | .cancel | .wake | .cancelJobs | .cancelOperations | .observeCancellation | .expire => true
  | .pipeline _ | .conclude | .unregister => false

def JobAction.concludes : JobAction Receipt → Bool
  | .conclude => true
  | _ => false

namespace Position

/-- The steps the task still has to take behind its pipeline. -/
def remaining : Position Receipt → Option Nat
  | .ended _ => some 4
  | .failing _ => some 3
  | .announcing _ => some 2
  | .publishing _ => some 1
  | .done _ => some 0
  | _ => none

/-- The terminal event of a capture that was judged. -/
def heading : Position Receipt → Option CaptureEventKind
  | .failing _ => some .captureFailed
  | .announcing verdict | .publishing verdict | .done verdict => some verdict.event.kind
  | _ => none

end Position

namespace JobControl

theorem takeCancellation_decision (control : JobControl) :
    control.takeCancellation.1.terminalDecision = control.terminalDecision ∨
      control.terminalDecision = .undecided ∧
        control.takeCancellation.1.terminalDecision = .cancellation := by
  unfold takeCancellation
  split <;> simp_all

theorem requestCancel_decision (control : JobControl) :
    control.requestCancel.1.terminalDecision = control.takeCancellation.1.terminalDecision := by
  unfold requestCancel
  split <;> simp_all [cancel]

theorem probe_decision (control : JobControl) :
    control.probe.terminalDecision = control.terminalDecision ∨
      control.terminalDecision = .undecided ∧ control.probe.terminalDecision = .cancellation := by
  unfold probe
  split
  · rw [requestCancel_decision]
    exact control.takeCancellation_decision
  · exact .inl rfl

end JobControl

namespace CaptureTask

/-- Two tasks at the same position with the same record of their past. -/
structure SameCourse (left right : CaptureTask Receipt) : Prop where
  position : left.position = right.position
  lifecycle : left.lifecycle = right.lifecycle
  events : left.events = right.events
  results : left.results = right.results
  claimed : left.claimed = right.claimed
  commitStarted : left.commitStarted = right.commitStarted

/-- The decision stayed, or a cancellation request won it. -/
def DecisionKept (before after : CaptureTask Receipt) : Prop :=
  after.control.terminalDecision = before.control.terminalDecision ∨
    before.control.terminalDecision = .undecided ∧
      after.control.terminalDecision = .cancellation

variable {action : JobAction Receipt} (task : CaptureTask Receipt)
  (actions : List (JobAction Receipt))

theorem disturbed_step (disturbs : action.disturbs = true) :
    SameCourse (task.step attach action) task ∧ DecisionKept task (task.step attach action) := by
  have requested := task.control.takeCancellation_decision
  unfold DecisionKept
  cases action with
  | cancel => exact ⟨⟨rfl, rfl, rfl, rfl, rfl, rfl⟩, requested⟩
  | cancelJobs =>
    simp only [step]
    split
    · split
      · exact ⟨⟨rfl, rfl, rfl, rfl, rfl, rfl⟩, requested⟩
      · exact ⟨⟨rfl, rfl, rfl, rfl, rfl, rfl⟩, .inl rfl⟩
    · exact ⟨⟨rfl, rfl, rfl, rfl, rfl, rfl⟩, .inl rfl⟩
  | expire =>
    simp only [step]
    split
    · simp only [JobControl.requestCancel_decision]
      exact ⟨⟨rfl, rfl, rfl, rfl, rfl, rfl⟩, requested⟩
    · exact ⟨⟨rfl, rfl, rfl, rfl, rfl, rfl⟩, .inl rfl⟩
  | wake | cancelOperations | observeCancellation =>
    simp only [step]
    split <;> exact ⟨⟨rfl, rfl, rfl, rfl, rfl, rfl⟩, .inl rfl⟩
  | pipeline | conclude | unregister => cases disturbs

/-! ## The invariant -/

/-- Nothing terminal was announced or published yet. -/
def Silent : Prop :=
  (∀ event ∈ task.events, event.isTerminal = false) ∧ task.results = []

/-- The last event is the verdict's, and the only terminal one. -/
def Announced (verdict : Verdict Receipt) : Prop :=
  ∃ body, task.events = body ++ [verdict.event] ∧ ∀ event ∈ body, event.isTerminal = false

/-- What a verdict says about the decision and the commit. -/
def Fits : Verdict Receipt → Prop
  | .succeeded _ => task.claimed = true ∧ task.commitStarted = true
  | .cancelled _ => task.control.terminalDecision = .cancellation
  | .failed _ => True

/-- What the position says about everything else. -/
def PositionSound : Position Receipt → Prop
  | .running | .entered => task.claimed = false ∧ task.Silent ∧ task.lifecycle.Pending
  | .entering next => task.claimed = false ∧ task.Silent ∧ task.lifecycle.following = some next ∧
      task.lifecycle.Pending
  | .claiming | .exchanging => task.claimed = false ∧ task.Silent ∧ task.lifecycle = .committing
  | .committing => task.claimed = true ∧ task.Silent ∧ task.lifecycle = .committing
  | .ended (.ok _) => task.claimed = true ∧ task.commitStarted = true ∧ task.Silent ∧
      task.lifecycle = .committing
  | .ended (.error _) => task.Silent ∧ task.lifecycle.Pending
  | .failing _ => task.Silent
  | .announcing verdict => task.Fits verdict ∧ task.Silent
  | .publishing verdict => task.Fits verdict ∧ task.Announced verdict ∧ task.results = []
  | .done verdict => task.Fits verdict ∧ task.Announced verdict ∧ task.results = [verdict.result]

structure Sound (task : CaptureTask Receipt) : Prop where
  claimed : task.claimed = true ↔ task.control.terminalDecision = .commit
  committed : task.commitStarted = true → task.claimed = true
  position : task.PositionSound task.position

theorem sound_start : (start : CaptureTask Receipt).Sound := by
  constructor
  · simp [start, JobControl.new]
  · simp [start]
  · exact ⟨rfl, ⟨by simp [start], rfl⟩, rfl, nofun⟩

variable {task other : CaptureTask Receipt} {verdict : Verdict Receipt}
  {position : Position Receipt} {result : Except OffprintError Receipt} {count : Nat}
  {kind : CaptureEventKind}

theorem Silent.of_sameCourse (same : SameCourse other task) (silent : task.Silent) : other.Silent :=
  ⟨same.events ▸ silent.1, same.results ▸ silent.2⟩

theorem Fits.of_sameCourse (same : SameCourse other task) (kept : DecisionKept task other)
    (fits : task.Fits verdict) : other.Fits verdict := by
  cases verdict with
  | succeeded receipt =>
    unfold Fits at fits ⊢
    rw [same.claimed, same.commitStarted]
    exact fits
  | cancelled error =>
    unfold Fits at fits ⊢
    rcases kept with kept | ⟨undecided, -⟩
    · rw [kept]
      exact fits
    · rw [fits] at undecided
      cases undecided
  | failed error => trivial

theorem Announced.of_sameCourse (same : SameCourse other task)
    (announced : task.Announced verdict) : other.Announced verdict := by
  unfold Announced
  rw [same.events]
  exact announced

theorem PositionSound.of_sameCourse (same : SameCourse other task)
    (kept : DecisionKept task other) (sound : task.PositionSound position) :
    other.PositionSound position := by
  have silent : task.Silent → other.Silent := Silent.of_sameCourse same
  have fits : ∀ verdict, task.Fits verdict → other.Fits verdict :=
    fun _ => Fits.of_sameCourse same kept
  have announced : ∀ verdict, task.Announced verdict → other.Announced verdict :=
    fun _ => Announced.of_sameCourse same
  have claimed := same.claimed
  have started := same.commitStarted
  have lifecycle := same.lifecycle
  have results := same.results
  cases position with
  | ended result => cases result <;> simp_all [PositionSound]
  | _ => simp_all [PositionSound]

theorem Sound.disturbed (sound : task.Sound) (disturbs : action.disturbs = true) :
    (task.step attach action).Sound := by
  obtain ⟨same, kept⟩ := task.disturbed_step attach disturbs
  constructor
  · rw [same.claimed, sound.claimed]
    rcases kept with kept | ⟨undecided, cancelled⟩
    · rw [kept]
    · rw [undecided, cancelled]
      decide
  · rw [same.claimed, same.commitStarted]
    exact sound.committed
  · rw [same.position]
    exact sound.position.of_sameCourse same kept

theorem Sound.moved (sound : task.Sound) (fits : task.PositionSound position) :
    { task with position := position }.Sound :=
  ⟨sound.claimed, sound.committed, fits⟩

theorem Sound.checked (sound : task.Sound) (silent : task.Silent)
    (pending : task.lifecycle.Pending) (fits : task.PositionSound position) :
    (task.checkCancelled position).Sound := by
  have stopped : task.PositionSound (.ended (.error cancellationError)) := ⟨silent, pending⟩
  unfold checkCancelled
  split
  · exact sound.moved stopped
  · exact sound.moved fits

theorem silent_report (silent : task.Silent) {event : JobEvent Receipt}
    (progress : event.isTerminal = false) :
    { task with events := task.events ++ [event] }.Silent := by
  refine ⟨?_, silent.2⟩
  intro other member
  rcases mem_append.mp member with earlier | new
  · exact silent.1 other earlier
  · rw [mem_singleton.mp new]
    exact progress

theorem pending_committing : CaptureStatus.committing.Pending := by
  decide

theorem Sound.advanced (sound : task.Sound) (action : PipelineAction Receipt) :
    (task.advance action).Sound := by
  have fits := sound.position
  unfold advance
  split
  · next kind position =>
    rw [position] at fits
    obtain ⟨unclaimed, silent, pending⟩ := fits
    split
    · exact sound
    · next progress =>
      refine ⟨sound.claimed, sound.committed, ?_⟩
      simp only [position]
      exact ⟨unclaimed, silent_report silent (by simpa using progress), pending⟩
  · next error position =>
    rw [position] at fits
    exact sound.moved ⟨fits.2.1, fits.2.2⟩
  · next position =>
    rw [position] at fits
    exact sound.checked fits.2.1 fits.2.2 fits
  · next position =>
    rw [position] at fits
    obtain ⟨unclaimed, silent, pending⟩ := fits
    split
    · next follows => exact sound.checked silent pending ⟨unclaimed, silent, follows, pending⟩
    · exact sound
  · next next position =>
    rw [position] at fits
    obtain ⟨unclaimed, silent, follows, pending⟩ := fits
    rw [transition, canTransition_following follows]
    have entered := pending_following follows
    refine ⟨sound.claimed, sound.committed, ?_⟩
    simp only [if_true]
    split <;> exact ⟨unclaimed, silent, entered⟩
  · next position =>
    rw [position] at fits
    obtain ⟨unclaimed, silent, pending⟩ := fits
    apply sound.checked silent pending
    split
    · next committing => exact ⟨unclaimed, silent, committing⟩
    · exact ⟨unclaimed, silent, pending⟩
  · next position =>
    rw [position] at fits
    refine ⟨?_, sound.committed, fits⟩
    have kept := task.control.probe_decision
    have claimed := sound.claimed
    rw [claimed]
    rcases kept with kept | ⟨undecided, cancelled⟩
    · rw [kept]
    · rw [undecided, cancelled]
      decide
  · next position =>
    rw [position] at fits
    obtain ⟨unclaimed, silent, committing⟩ := fits
    have stopped (error : OffprintError) : task.PositionSound (.ended (.error error)) :=
      ⟨silent, committing ▸ pending_committing⟩
    unfold takeCommit
    cases decision : task.control.terminalDecision with
    | undecided =>
      exact ⟨by simp, fun _ => rfl, rfl, silent, committing⟩
    | cancellation | commit => exact sound.moved (stopped _)
  · next result position =>
    rw [position] at fits
    obtain ⟨claimed, silent, committing⟩ := fits
    refine ⟨sound.claimed, fun _ => claimed, ?_⟩
    cases result with
    | ok receipt => exact ⟨claimed, rfl, silent, committing⟩
    | error error => exact ⟨silent, committing ▸ pending_committing⟩
  · exact sound

theorem judge_cases (sound : task.Sound) (position : task.position = .ended result) :
    (∃ receipt, task.claimed = true ∧ task.commitStarted = true ∧ task.judge attach result =
          { task with lifecycle := .succeeded, position := .announcing (.succeeded receipt) }) ∨
      (∃ error, task.control.terminalDecision = .cancellation ∧ task.judge attach result =
          { task with lifecycle := .cancelled, position := .announcing (.cancelled error) }) ∨
      ∃ error, task.control.terminalDecision ≠ .cancellation ∧
        task.judge attach result = { task with position := .failing error } := by
  have fits := sound.position
  rw [position] at fits
  cases result with
  | ok receipt =>
    obtain ⟨claimed, started, -, committing⟩ := fits
    left
    refine ⟨receipt, claimed, started, ?_⟩
    have moves : task.lifecycle.transition .succeeded = .ok .succeeded := by
      rw [committing]
      rfl
    simp [judge, moves]
  | error error =>
    obtain ⟨-, pending⟩ := fits
    right
    by_cases won : task.control.terminalDecision = .cancellation
    · left
      have moves : task.lifecycle.transition .cancelling >>= (·.transition .cancelled) =
          .ok .cancelled := by
        rw [transition_cancelling pending]
        rfl
      refine ⟨attach .cancelled (task.cancelledResult error), won, ?_⟩
      simp [judge, cancellationWon, won, moves]
    · right
      exact ⟨error, won, by simp [judge, cancellationWon, won]⟩

theorem fail_cases (task : CaptureTask Receipt) (error : OffprintError) :
    ∃ lifecycle published, task.fail attach error =
      { task with lifecycle := lifecycle, position := .announcing (.failed published) } := by
  unfold fail
  split
  · exact ⟨_, _, rfl⟩
  · exact ⟨_, _, rfl⟩

theorem Sound.concluded (sound : task.Sound) : (task.conclude attach).Sound := by
  have fits := sound.position
  unfold conclude
  split
  · next result position =>
    rw [position] at fits
    have silent : task.Silent := by
      cases result with
      | ok receipt => exact fits.2.2.1
      | error error => exact fits.1
    rcases judge_cases attach sound position with
      ⟨receipt, claimed, started, judged⟩ | ⟨error, won, judged⟩ | ⟨error, -, judged⟩
    · rw [judged]
      exact ⟨sound.claimed, sound.committed, ⟨claimed, started⟩, silent⟩
    · rw [judged]
      exact ⟨sound.claimed, sound.committed, won, silent⟩
    · rw [judged]
      exact ⟨sound.claimed, sound.committed, silent⟩
  · next error position =>
    rw [position] at fits
    obtain ⟨lifecycle, published, failed⟩ := task.fail_cases attach error
    rw [failed]
    exact ⟨sound.claimed, sound.committed, trivial, fits⟩
  · next verdict position =>
    rw [position] at fits
    obtain ⟨agrees, silent⟩ := fits
    refine ⟨sound.claimed, sound.committed, ?_, ⟨_, rfl, silent.1⟩, silent.2⟩
    cases verdict <;> exact agrees
  · next verdict position =>
    rw [position] at fits
    obtain ⟨agrees, announced, unpublished⟩ := fits
    refine ⟨sound.claimed, sound.committed, ?_, announced, ?_⟩
    · cases verdict <;> exact agrees
    · simp [unpublished]
  · exact sound

theorem Sound.step (sound : task.Sound) (action : JobAction Receipt) :
    (task.step attach action).Sound := by
  cases action with
  | pipeline action => exact sound.advanced action
  | conclude => exact sound.concluded attach
  | unregister =>
    simp only [CaptureTask.step]
    split
    · exact ⟨sound.claimed, sound.committed, sound.position⟩
    · exact sound
  | _ => exact sound.disturbed attach rfl

theorem sound_foldl (sound : task.Sound) (actions : List (JobAction Receipt)) :
    (actions.foldl (CaptureTask.step attach) task).Sound := by
  induction actions generalizing task with
  | nil => exact sound
  | cons action rest ih => exact ih (sound.step attach action)

theorem sound_run : (run attach actions).Sound :=
  sound_foldl attach sound_start actions

theorem run_append (actions more : List (JobAction Receipt)) :
    run attach (actions ++ more) = more.foldl (CaptureTask.step attach) (run attach actions) :=
  foldl_append ..

/-! ## The way to the end -/

theorem position_step (ended : task.position.remaining = some count)
    (other : action.concludes = false) : (task.step attach action).position = task.position := by
  cases action with
  | conclude => simp [JobAction.concludes] at other
  | pipeline action =>
    simp only [CaptureTask.step, advance]
    split <;> simp_all [Position.remaining]
  | unregister =>
    simp only [CaptureTask.step]
    split <;> rfl
  | _ => exact (task.disturbed_step attach rfl).1.position

theorem conclude_spec (sound : task.Sound) :
    (task.conclude attach).control = task.control ∧
      (∀ kind, task.position.heading = some kind →
        (task.conclude attach).position.heading = some kind) ∧
      ∀ count, task.position.remaining = some (count + 1) →
        ∃ less ≤ count, (task.conclude attach).position.remaining = some less := by
  unfold conclude
  split
  · next result position =>
    rcases judge_cases attach sound position with
      ⟨_, -, -, judged⟩ | ⟨_, -, judged⟩ | ⟨_, -, judged⟩ <;> rw [judged] <;>
      simp [position, Position.heading, Position.remaining]
  · next error position =>
    obtain ⟨_, _, failed⟩ := task.fail_cases attach error
    rw [failed]
    simp [position, Position.heading, Position.remaining, Verdict.event]
  · next position => simp [position, Position.heading, Position.remaining]
  · next position => simp [position, Position.heading, Position.remaining]
  · cases position : task.position <;> simp_all [Position.heading, Position.remaining]

theorem exists_done_of_remaining (none : task.position.remaining = some 0) :
    ∃ verdict, task.position = .done verdict := by
  unfold Position.remaining at none
  split at none <;> simp_all

/-- Four steps of its own bring the task from the pipeline's result to its end,
whatever happens between them. -/
theorem done_of_concludes (sound : task.Sound) (ended : task.position.remaining = some count)
    {more : List (JobAction Receipt)} (enough : count ≤ more.countP JobAction.concludes) :
    ∃ verdict, (more.foldl (CaptureTask.step attach) task).position = .done verdict := by
  induction more generalizing task count with
  | nil =>
    obtain rfl : count = 0 := by simpa using enough
    exact exists_done_of_remaining ended
  | cons action rest ih =>
    have sound' := sound.step attach action
    by_cases concludes : action.concludes = true
    · obtain rfl : action = .conclude := by cases action <;> simp_all [JobAction.concludes]
      rw [countP_cons_of_pos concludes] at enough
      cases count with
      | zero =>
        obtain ⟨verdict, done⟩ := exists_done_of_remaining ended
        have still : (task.step attach .conclude).position.remaining = some 0 := by
          simp [CaptureTask.step, conclude, done, Position.remaining]
        exact ih sound' still (Nat.zero_le _)
      | succ count =>
        obtain ⟨less, fewer, remaining⟩ := (conclude_spec attach sound).2.2 count ended
        exact ih sound' remaining (by omega)
    · rw [countP_cons_of_neg concludes] at enough
      apply ih sound' _ enough
      rw [position_step attach ended (by simpa using concludes)]
      exact ended

/-! ## The judgement -/

/-- The decision and the terminal event of a judged capture agree, but for the
failure that a later cancellation overtakes. -/
theorem Sound.heading (sound : task.Sound) (judged : task.position.heading = some kind) :
    (kind = .captureCancelled ↔ task.control.terminalDecision = .cancellation) ↔
      ¬ (kind = .captureFailed ∧ task.control.terminalDecision = .cancellation) := by
  have agrees (verdict : Verdict Receipt) (fits : task.Fits verdict) :
      (verdict.event.kind = .captureCancelled ↔ task.control.terminalDecision = .cancellation) ↔
      ¬ (verdict.event.kind = .captureFailed ∧ task.control.terminalDecision = .cancellation) := by
    cases verdict with
    | succeeded receipt =>
      have commit := sound.claimed.mp fits.1
      simp [Verdict.event, commit]
    | cancelled error =>
      have won : task.control.terminalDecision = .cancellation := fits
      simp [Verdict.event, won]
    | failed error => simp [Verdict.event]
  have fits := sound.position
  cases position : task.position with
  | failing error =>
    obtain rfl : .captureFailed = kind := by simpa [position, Position.heading] using judged
    simp
  | announcing verdict | publishing verdict | done verdict =>
    obtain rfl : verdict.event.kind = kind := by simpa [position, Position.heading] using judged
    rw [position] at fits
    exact agrees verdict fits.1
  | _ => simp [position, Position.heading] at judged

theorem heading_judge (sound : task.Sound) (position : task.position = .ended result) :
    ∃ kind, (task.conclude attach).position.heading = some kind ∧
      ¬ (kind = .captureFailed ∧ task.control.terminalDecision = .cancellation) := by
  have judges : task.conclude attach = task.judge attach result := by
    simp [conclude, position]
  rw [judges]
  rcases judge_cases attach sound position with
    ⟨_, -, -, judged⟩ | ⟨_, -, judged⟩ | ⟨_, lost, judged⟩
  · exact ⟨.captureSucceeded, by rw [judged]; rfl, by simp⟩
  · exact ⟨.captureCancelled, by rw [judged]; rfl, by simp⟩
  · exact ⟨.captureFailed, by rw [judged]; rfl, fun overtaken => lost overtaken.2⟩

/-- The task's own way from the pipeline's result to the end. -/
def concluded (task : CaptureTask Receipt) : CaptureTask Receipt :=
  (List.replicate 4 JobAction.conclude).foldl (CaptureTask.step attach) task

theorem conclude_repeated (sound : task.Sound) (count : Nat) :
    ((List.replicate count .conclude).foldl (CaptureTask.step attach) task).control =
      task.control ∧ ∀ kind, task.position.heading = some kind →
        ((List.replicate count .conclude).foldl (CaptureTask.step attach) task).position.heading =
          some kind := by
  induction count generalizing task with
  | zero => exact ⟨rfl, fun _ => id⟩
  | succ count ih =>
    obtain ⟨control, heading, -⟩ := conclude_spec attach sound
    obtain ⟨lastControl, lastHeading⟩ := ih (sound.concluded attach)
    exact ⟨lastControl.trans control, fun kind judged => lastHeading kind (heading kind judged)⟩

theorem done_concluded (sound : task.Sound) (ended : task.position.remaining.isSome = true) :
    ∃ verdict, (task.concluded attach).position = .done verdict := by
  obtain ⟨count, remaining⟩ := Option.isSome_iff_exists.mp ended
  apply done_of_concludes attach sound remaining
  have few : count ≤ 4 := by
    cases position : task.position <;> simp_all [Position.remaining] <;> omega
  exact few

theorem Announced.filter_isTerminal (announced : task.Announced verdict) :
    task.events.filter CaptureEvent.isTerminal = [verdict.event] := by
  obtain ⟨body, events, progress⟩ := announced
  have nothing : body.filter CaptureEvent.isTerminal = [] := by
    simpa [filter_eq_nil_iff] using progress
  rw [events, filter_append, nothing]
  simp

theorem Sound.terminal_events (sound : task.Sound) (done : task.position = .done verdict) :
    task.events.filter CaptureEvent.isTerminal = [verdict.event] := by
  have fits := sound.position
  rw [done] at fits
  exact fits.2.1.filter_isTerminal

theorem Sound.cancelled_mem (sound : task.Sound) (done : task.position = .done verdict) :
    (∃ event ∈ task.events, event.kind = .captureCancelled) ↔
      verdict.event.kind = .captureCancelled := by
  have terminal := sound.terminal_events done
  constructor
  · rintro ⟨event, member, kind⟩
    have isTerminal : event.isTerminal = true := by simp [CaptureEvent.isTerminal, kind]
    have mem : event ∈ task.events.filter CaptureEvent.isTerminal :=
      mem_filter.mpr ⟨member, isTerminal⟩
    rw [terminal, mem_singleton] at mem
    rw [← mem]
    exact kind
  · intro kind
    have mem : verdict.event ∈ task.events.filter CaptureEvent.isTerminal := by simp [terminal]
    exact ⟨verdict.event, (mem_filter.mp mem).1, kind⟩

/-- A capture whose pipeline has returned ends with `captureCancelled` exactly
when a cancellation won, unless that happened behind a failure. -/
theorem Sound.cancelled_concluded (sound : task.Sound)
    (ended : task.position.remaining.isSome = true) :
    ((∃ event ∈ (task.concluded attach).events, event.kind = .captureCancelled) ↔
        task.control.terminalDecision = .cancellation) ↔
      ¬ (task.position.heading = some .captureFailed ∧
        task.control.terminalDecision = .cancellation) := by
  have finalSound : (task.concluded attach).Sound := sound_foldl attach sound _
  obtain ⟨verdict, done⟩ := done_concluded attach sound ended
  have final : (task.concluded attach).position.heading = some verdict.event.kind := by
    simp [done, Position.heading]
  have agrees := finalSound.heading final
  obtain ⟨control, keeps⟩ := conclude_repeated attach sound 4
  change (task.concluded attach).control = _ at control
  rw [finalSound.cancelled_mem done, ← control, agrees, control]
  -- The judgement fixes the terminal event, so the end has the event it headed for.
  cases heading : task.position.heading with
  | some kind =>
    have same := (keeps kind heading).symm.trans final
    rw [← Option.some.inj same, Option.some_inj]
  | none =>
    obtain ⟨result, position⟩ : ∃ result, task.position = .ended result := by
      cases position : task.position <;> simp_all [Position.heading, Position.remaining]
    obtain ⟨kind, judged, lost⟩ := heading_judge attach sound position
    have same :=
      ((conclude_repeated attach (sound.concluded attach) 3).2 kind judged).symm.trans final
    rw [← Option.some.inj same]
    simpa using lost

/-! ## Requests that come too late -/

/-- No decision is changed, and nothing is judged. -/
structure Steady (before after : CaptureTask Receipt) : Prop where
  decision : before.control.terminalDecision ≠ .undecided →
    after.control.terminalDecision = before.control.terminalDecision
  heading : before.position.heading = none → after.position.heading = none

theorem steady_checkCancelled (unjudged : position.heading = none) :
    Steady task (task.checkCancelled position) := by
  unfold checkCancelled
  split
  · exact ⟨fun _ => rfl, fun _ => rfl⟩
  · exact ⟨fun _ => rfl, fun _ => unjudged⟩

theorem steady_advance (task : CaptureTask Receipt) (action : PipelineAction Receipt) :
    Steady task (task.advance action) := by
  unfold advance
  split
  · split <;> exact ⟨fun _ => rfl, id⟩
  · exact ⟨fun _ => rfl, fun _ => rfl⟩
  · exact steady_checkCancelled rfl
  · split
    · exact steady_checkCancelled rfl
    · exact ⟨fun _ => rfl, id⟩
  · split
    · refine ⟨fun _ => rfl, fun _ => ?_⟩
      simp only
      split <;> rfl
    · exact ⟨fun _ => rfl, fun _ => rfl⟩
  · apply steady_checkCancelled
    split <;> rfl
  · have kept := task.control.probe_decision
    exact ⟨fun decided => kept.resolve_right fun won => decided won.1, fun _ => rfl⟩
  · refine ⟨fun decided => ?_, fun _ => by split <;> rfl⟩
    unfold takeCommit
    cases decision : task.control.terminalDecision with
    | undecided => exact absurd decision decided
    | cancellation | commit => simpa using decision
  · exact ⟨fun _ => rfl, fun _ => rfl⟩
  · exact ⟨fun _ => rfl, id⟩

theorem decision_step (sound : task.Sound) (action : JobAction Receipt)
    (decided : task.control.terminalDecision ≠ .undecided) :
    (task.step attach action).control.terminalDecision = task.control.terminalDecision := by
  by_cases disturbs : action.disturbs = true
  · exact (task.disturbed_step attach disturbs).2.resolve_right fun kept => decided kept.1
  · cases action with
    | pipeline action => exact (task.steady_advance action).decision decided
    | conclude => simp [CaptureTask.step, (conclude_spec attach sound).1]
    | unregister =>
      simp only [CaptureTask.step]
      split <;> rfl
    | _ => simp [JobAction.disturbs] at disturbs

theorem remaining_of_heading (judged : position.heading = some kind) :
    ∃ count, position.remaining = some count := by
  cases position <;> simp_all [Position.heading, Position.remaining]

theorem heading_step (sound : task.Sound) (action : JobAction Receipt)
    (judged : task.position.heading = some kind) :
    (task.step attach action).position.heading = some kind := by
  obtain ⟨count, ended⟩ := remaining_of_heading judged
  by_cases concludes : action.concludes = true
  · obtain rfl : action = .conclude := by cases action <;> simp_all [JobAction.concludes]
    exact (conclude_spec attach sound).2.1 kind judged
  · rw [position_step attach ended (by simpa using concludes)]
    exact judged

theorem decision_of_judged (sound : task.Sound) (action : JobAction Receipt)
    (unjudged : task.position.heading = none)
    (failed : (task.step attach action).position.heading = some .captureFailed) :
    (task.step attach action).control.terminalDecision ≠ .cancellation := by
  cases action with
  | conclude =>
    cases position : task.position with
    | ended result =>
      obtain ⟨kind, judged, lost⟩ := heading_judge attach sound position
      obtain rfl : .captureFailed = kind := Option.some.inj (failed.symm.trans judged)
      intro won
      apply lost
      rw [← (conclude_spec attach sound).1]
      exact ⟨rfl, won⟩
    | _ => simp_all [CaptureTask.step, conclude, Position.heading]
  | pipeline action =>
    simp [CaptureTask.step, (task.steady_advance action).heading unjudged] at failed
  | unregister =>
    simp only [CaptureTask.step] at failed
    split at failed <;> simp_all
  | _ =>
    rw [(task.disturbed_step attach rfl).1.position, unjudged] at failed
    simp at failed

/-- The action lets a cancellation win over a failure that was judged before. -/
def Overtakes (task : CaptureTask Receipt) (action : JobAction Receipt) : Prop :=
  task.position.heading = some .captureFailed ∧ task.control.terminalDecision = .undecided ∧
    (task.step attach action).control.terminalDecision = .cancellation

/-- No cancellation wins over a failure that was judged before. -/
def Punctual (actions : List (JobAction Receipt)) : Prop :=
  ∀ earlier action later, actions = earlier ++ action :: later →
    ¬ (run attach earlier).Overtakes attach action

theorem punctual_concat (action : JobAction Receipt) :
    Punctual attach (actions ++ [action]) ↔
      Punctual attach actions ∧ ¬ (run attach actions).Overtakes attach action := by
  constructor
  · intro punctual
    constructor
    · intro earlier early later split
      exact punctual earlier early (later ++ [action]) (by simp [split])
    · exact punctual actions action [] rfl
  · rintro ⟨before, last⟩ earlier early later split
    rcases eq_nil_or_concat' later with rfl | ⟨rest, final, rfl⟩
    · obtain ⟨rfl, same⟩ := append_inj' split rfl
      obtain rfl : action = early := by simpa using same
      exact last
    · have regrouped : actions ++ [action] = (earlier ++ early :: rest) ++ [final] := by
        simp [split]
      obtain ⟨rfl, -⟩ := append_inj' regrouped rfl
      exact before earlier early rest rfl

theorem punctual_iff :
    Punctual attach actions ↔
      ¬ ((run attach actions).position.heading = some .captureFailed ∧
        (run attach actions).control.terminalDecision = .cancellation) := by
  induction actions using List.reverseRecOn with
  | nil =>
    constructor
    · rintro - ⟨failed, -⟩
      simp [run, start, Position.heading] at failed
    · rintro - earlier action later split
      simp at split
  | append_singleton actions action ih =>
    have sound := sound_run attach actions
    have stays := decision_step attach sound action
    have last : run attach (actions ++ [action]) = (run attach actions).step attach action := by
      simp [run_append]
    rw [punctual_concat, ih, last]
    constructor
    · rintro ⟨before, inTime⟩ ⟨failed, won⟩
      cases heading : (run attach actions).position.heading with
      | none => exact decision_of_judged attach sound action heading failed won
      | some kind =>
        have kept := heading_step attach sound action heading
        obtain rfl : kind = .captureFailed := Option.some.inj (kept.symm.trans failed)
        by_cases undecided : (run attach actions).control.terminalDecision = .undecided
        · exact inTime ⟨heading, undecided, won⟩
        · exact before ⟨heading, (stays undecided).symm.trans won⟩
    · intro after
      constructor
      · rintro ⟨failed, won⟩
        apply after
        refine ⟨heading_step attach sound action failed, ?_⟩
        rw [stays (by simp [won])]
        exact won
      · rintro ⟨failed, -, won⟩
        exact after ⟨heading_step attach sound action failed, won⟩

/-! ## Behind the claim -/

theorem advance_of_claimed (sound : task.Sound) (claimed : task.claimed = true)
    (action : PipelineAction Receipt) :
    task.advance action =
      match task.position, action with
      | .committing, .commit result =>
        { task with commitStarted := true, position := .ended result }
      | _, _ => task := by
  have fits := sound.position
  cases position : task.position <;> cases action <;> simp_all [advance, PositionSound]

theorem sameCourse_step (sound : task.Sound) (otherSound : other.Sound)
    (claimed : task.claimed = true) (same : SameCourse task other) (own : action.disturbs = false) :
    SameCourse (task.step attach action) (other.step attach action) := by
  have decision := sound.claimed.mp claimed
  have otherDecision := otherSound.claimed.mp (same.claimed ▸ claimed)
  obtain ⟨position, lifecycle, events, results, claims, started⟩ := same
  cases action with
  | pipeline action =>
    simp only [CaptureTask.step]
    rw [advance_of_claimed sound claimed, advance_of_claimed otherSound (claims ▸ claimed),
      ← position]
    split
    · constructor <;> simp_all
    · exact ⟨position, lifecycle, events, results, claims, started⟩
  | conclude =>
    have lost : task.control.cancellationWon = false := by
      simp [cancellationWon, decision]
    have otherLost : other.control.cancellationWon = false := by
      simp [cancellationWon, otherDecision]
    simp only [CaptureTask.step, conclude, ← position]
    split
    · next result _ =>
      cases result with
      | ok receipt =>
        simp only [judge, ← lifecycle]
        split <;> constructor <;> simp_all
      | error error =>
        simp only [judge, lost, otherLost]
        constructor <;> simp_all
    · simp only [fail, ← lifecycle]
      split <;> constructor <;> simp_all
    · constructor <;> simp_all
    · constructor <;> simp_all
    · constructor <;> simp_all
  | unregister =>
    simp only [CaptureTask.step, ← position]
    split <;> constructor <;> simp_all
  | _ => simp [JobAction.disturbs] at own

theorem claimed_step (sound : task.Sound) (claimed : task.claimed = true)
    (action : JobAction Receipt) : (task.step attach action).claimed = true := by
  have decision := sound.claimed.mp claimed
  rw [(sound.step attach action).claimed, decision_step attach sound action (by simp [decision])]
  exact decision

theorem sameCourse_filter (sound : task.Sound) (otherSound : other.Sound)
    (claimed : task.claimed = true) (same : SameCourse task other)
    (more : List (JobAction Receipt)) : SameCourse (more.foldl (CaptureTask.step attach) task)
      ((more.filter fun action => !action.disturbs).foldl (CaptureTask.step attach) other) := by
  induction more generalizing task other with
  | nil => exact same
  | cons action rest ih =>
    have sound' := sound.step attach action
    have claimed' := claimed_step attach sound claimed action
    by_cases disturbs : action.disturbs = true
    · rw [filter_cons_of_neg (by simpa using disturbs)]
      apply ih sound' otherSound claimed'
      have kept := (task.disturbed_step attach disturbs).1
      exact ⟨kept.1.trans same.1, kept.2.trans same.2, kept.3.trans same.3,
        kept.4.trans same.4, kept.5.trans same.5, kept.6.trans same.6⟩
    · have own : action.disturbs = false := by simpa using disturbs
      rw [filter_cons_of_pos (by simp [own])]
      exact ih sound' (otherSound.step attach action) claimed'
        (sameCourse_step attach sound otherSound claimed same own)

/-! ## The result -/

/-- One terminal decision per capture, behind an interleaving. -/
structure OneTerminalDecision (actions : List (JobAction Receipt)) : Prop where
  atMostOne : ((run attach actions).events.filter CaptureEvent.isTerminal).length ≤ 1 ∧
    (run attach actions).results.length ≤ 1
  exactlyOne : ∀ verdict, (run attach actions).position = .done verdict →
    ((run attach actions).events.filter CaptureEvent.isTerminal).length = 1 ∧
      (run attach actions).results.length = 1
  ends : (run attach actions).position.remaining.isSome = true →
    ∀ more : List (JobAction Receipt), 4 ≤ more.countP JobAction.concludes →
      ∃ verdict, (run attach (actions ++ more)).position = .done verdict
  committed : (run attach actions).commitStarted = true → (run attach actions).claimed = true
  successful : ∀ receipt, .ok receipt ∈ (run attach actions).results →
    (run attach actions).claimed = true
  cancelled : (run attach actions).position.remaining.isSome = true →
    ((∃ event ∈ ((run attach actions).concluded attach).events, event.kind = .captureCancelled) ↔
      (run attach actions).control.terminalDecision = .cancellation)
  final : (run attach actions).claimed = true → ∀ more : List (JobAction Receipt),
    SameCourse (run attach (actions ++ more))
      (run attach (actions ++ more.filter fun action => !action.disturbs))

theorem Sound.silent_or_announced (sound : task.Sound) :
    task.Silent ∨ ∃ verdict, task.Fits verdict ∧ task.Announced verdict ∧
      (task.results = [] ∨ task.results = [verdict.result]) := by
  have fits := sound.position
  cases position : task.position with
  | publishing verdict =>
    rw [position] at fits
    exact .inr ⟨verdict, fits.1, fits.2.1, .inl fits.2.2⟩
  | done verdict =>
    rw [position] at fits
    exact .inr ⟨verdict, fits.1, fits.2.1, .inr fits.2.2⟩
  | ended result =>
    rw [position] at fits
    cases result with
    | ok receipt => exact .inl fits.2.2.1
    | error error => exact .inl fits.1
  | _ =>
    simp_all [PositionSound]

theorem Sound.atMostOne (sound : task.Sound) :
    (task.events.filter CaptureEvent.isTerminal).length ≤ 1 ∧ task.results.length ≤ 1 := by
  rcases sound.silent_or_announced with ⟨progress, none⟩ | ⟨verdict, -, announced, published⟩
  · have nothing : task.events.filter CaptureEvent.isTerminal = [] := by
      simpa [filter_eq_nil_iff] using progress
    simp [nothing, none]
  · rw [announced.filter_isTerminal]
    rcases published with none | one
    · simp [none]
    · simp [one]

theorem Sound.claimed_of_ok (sound : task.Sound) {receipt : Receipt}
    (published : .ok receipt ∈ task.results) : task.claimed = true := by
  rcases sound.silent_or_announced with ⟨-, none⟩ | ⟨verdict, fits, -, none | one⟩
  · simp [none] at published
  · simp [none] at published
  · rw [one, mem_singleton] at published
    cases verdict with
    | succeeded receipt => exact fits.1
    | cancelled error | failed error => simp [Verdict.result] at published

/-- The pipeline fails, the failure is judged, and only then does a caller
cancel. -/
def lateCancel : List (JobAction Unit) :=
  [.pipeline .beginTransition, .pipeline .transition, .pipeline .endTransition,
    .pipeline (.report .captureStarted),
    .pipeline (.fail (.new "offprint.navigation.dns" .navigation "name resolution failed")),
    .conclude, .cancel, .conclude, .conclude, .conclude]

end CaptureTask
end Offprint.Capture
