import Offprint.Capture.Streams
import Offprint.Model.Error

/-!
# The terminal decision of a capture

One capture task with everybody who may end it: callers that cancel, the
deadline, the runtime that closes, and its own pipeline.  They meet at
`terminalDecision`, which a cancellation request and the commit each try to
take by a compare-exchange, and at the cancellation token, which the pipeline
reads.

An action is what one thread does between two moments at which another one can
act.  The compare-exchange of a request and the cancelling of the token are
therefore two actions of the threads outside; for the task itself, the only
reader of the token, they are one.  An action that its thread cannot take now
changes nothing, so every list of actions is an interleaving.
-/

namespace Offprint.Capture

open Model

/-! ## The lifecycle -/

inductive CaptureStatus where
  | created
  | validating
  | waitingForBrowser
  | navigating
  | waitingForReadiness
  | collecting
  | resolvingResources
  | transforming
  | encoding
  | verifying
  | committing
  | cancelling
  | succeeded
  | cancelled
  | failed
  deriving Repr, DecidableEq

namespace CaptureStatus

def isTerminal : CaptureStatus → Bool
  | .succeeded | .cancelled | .failed => true
  | _ => false

def name : CaptureStatus → String
  | .created => "Created"
  | .validating => "Validating"
  | .waitingForBrowser => "WaitingForBrowser"
  | .navigating => "Navigating"
  | .waitingForReadiness => "WaitingForReadiness"
  | .collecting => "Collecting"
  | .resolvingResources => "ResolvingResources"
  | .transforming => "Transforming"
  | .encoding => "Encoding"
  | .verifying => "Verifying"
  | .committing => "Committing"
  | .cancelling => "Cancelling"
  | .succeeded => "Succeeded"
  | .cancelled => "Cancelled"
  | .failed => "Failed"

/-- The status that the pipeline enters next. -/
def following : CaptureStatus → Option CaptureStatus
  | .created => some .validating
  | .validating => some .waitingForBrowser
  | .waitingForBrowser => some .navigating
  | .navigating => some .waitingForReadiness
  | .waitingForReadiness => some .collecting
  | .collecting => some .resolvingResources
  | .resolvingResources => some .transforming
  | .transforming => some .encoding
  | .encoding => some .verifying
  | .verifying => some .committing
  | _ => none

def canTransition (current next : CaptureStatus) : Bool :=
  match current, next with
  | .created, .validating
  | .validating, .waitingForBrowser
  | .waitingForBrowser, .navigating
  | .navigating, .waitingForReadiness
  | .waitingForReadiness, .collecting
  | .collecting, .resolvingResources
  | .resolvingResources, .transforming
  | .transforming, .encoding
  | .encoding, .verifying
  | .verifying, .committing
  | .committing, .succeeded
  | .cancelling, .cancelled
  | .cancelling, .failed => true
  | current, next =>
    !current.isTerminal && current != .cancelling && (next == .cancelling || next == .failed)

def transition (current next : CaptureStatus) : Except OffprintError CaptureStatus :=
  if canTransition current next then
    .ok next
  else
    .error (.new "offprint.runtime.state_transition" .internal
      ("capture cannot transition from " ++ current.name ++ " to " ++ next.name))

def Pending (status : CaptureStatus) : Prop :=
  status.isTerminal = false ∧ status ≠ .cancelling

instance (status : CaptureStatus) : Decidable status.Pending :=
  inferInstanceAs (Decidable (_ ∧ _))

variable {current next : CaptureStatus}

theorem canTransition_following (follows : current.following = some next) :
    canTransition current next = true := by
  cases current <;> simp_all [following] <;> subst follows <;> rfl

theorem pending_following (follows : current.following = some next) : next.Pending := by
  cases current <;> simp_all [following] <;> subst follows <;> decide

theorem transition_cancelling {status : CaptureStatus} (pending : status.Pending) :
    status.transition .cancelling = .ok .cancelling := by
  have allowed : canTransition status .cancelling = true := by
    obtain ⟨open', notCancelling⟩ := pending
    cases status <;> simp_all [canTransition, isTerminal]
  simp [transition, allowed]

end CaptureStatus

/-! ## Job control -/

inductive TerminalDecision where
  | undecided
  | cancellation
  | commit
  deriving Repr, DecidableEq

/-- `cancelled` is the state of the job's token, a child of the token that
cancels every operation of the runtime. -/
structure JobControl where
  cancelled : Bool
  terminalDecision : TerminalDecision
  deriving Repr, DecidableEq

def cancellationError : OffprintError :=
  .new "offprint.runtime.cancelled" .shutdown "capture cancellation requested"

namespace JobControl

def new : JobControl :=
  ⟨false, .undecided⟩

variable (control : JobControl)

/-- The compare-exchange of `requestCancel`: whether it won, if the token is to
be cancelled next. -/
def takeCancellation : JobControl × Option Bool :=
  match control.terminalDecision with
  | .undecided => ({ control with terminalDecision := .cancellation }, some true)
  | .cancellation => (control, some false)
  | .commit => (control, none)

def cancel : JobControl :=
  { control with cancelled := true }

def requestCancel : JobControl × Bool :=
  match control.takeCancellation with
  | (control, some won) => (control.cancel, won)
  | (control, none) => (control, false)

/-- What `claimCommit` does first. -/
def probe : JobControl :=
  if control.cancelled then control.requestCancel.1 else control

/-- The compare-exchange of `claimCommit`. -/
def takeCommit : JobControl × Except OffprintError Unit :=
  match control.terminalDecision with
  | .undecided => ({ control with terminalDecision := .commit }, .ok ())
  | .cancellation => (control, .error cancellationError)
  | .commit =>
    (control, .error (.new "offprint.runtime.job" .internal
      "capture commit decision was already claimed"))

def claimCommit : JobControl × Except OffprintError Unit :=
  control.probe.takeCommit

def cancellationWon : Bool :=
  control.terminalDecision == .cancellation

end JobControl

/-! ## The task -/

variable {Receipt : Type}

/-- An event with the receipt or the error it reports, if it reports one. -/
abbrev JobEvent (Receipt : Type) := CaptureEvent (Option (Except OffprintError Receipt))

/-- How a capture ends: what it announces and what it publishes. -/
inductive Verdict (Receipt : Type) where
  | succeeded (receipt : Receipt)
  | cancelled (error : OffprintError)
  | failed (error : OffprintError)

namespace Verdict

def event : Verdict Receipt → JobEvent Receipt
  | .succeeded receipt => ⟨.captureSucceeded, some (.ok receipt)⟩
  | .cancelled _ => ⟨.captureCancelled, none⟩
  | .failed error => ⟨.captureFailed, some (.error error)⟩

def result : Verdict Receipt → Except OffprintError Receipt
  | .succeeded receipt => .ok receipt
  | .cancelled error | .failed error => .error error

@[simp]
theorem isTerminal_event (verdict : Verdict Receipt) : verdict.event.isTerminal = true := by
  cases verdict <;> rfl

end Verdict

/-- Where the task stands: in its pipeline up to `committing`, with the
pipeline's result behind it from `ended` on. -/
inductive Position (Receipt : Type) where
  | running
  | entering (status : CaptureStatus)
  | entered
  | claiming
  | exchanging
  | committing
  | ended (result : Except OffprintError Receipt)
  | failing (error : OffprintError)
  | announcing (verdict : Verdict Receipt)
  | publishing (verdict : Verdict Receipt)
  | done (verdict : Verdict Receipt)

/-- The pipeline waits, so the task may look at its token and its deadline. -/
def Position.waits : Position Receipt → Bool
  | .running | .entered => true
  | _ => false

inductive Closing where
  | open
  | jobsCancelled
  | operationsCancelled
  deriving Repr, DecidableEq

/-- `waking` counts the requests that are about to cancel the token; `claimed`
says that `claimCommit` succeeded and `commitStarted` that the staged artifact
was told to commit. -/
structure CaptureTask (Receipt : Type) where
  lifecycle : CaptureStatus
  control : JobControl
  events : List (JobEvent Receipt)
  results : List (Except OffprintError Receipt)
  position : Position Receipt
  selecting : Bool
  timedOut : Bool
  waking : Nat
  closing : Closing
  registered : Bool
  claimed : Bool
  commitStarted : Bool

inductive PipelineAction (Receipt : Type) where
  | report (kind : CaptureEventKind)
  | fail (error : OffprintError)
  | check
  | beginTransition
  | transition
  | endTransition
  | probe
  | claim
  | commit (result : Except OffprintError Receipt)

inductive JobAction (Receipt : Type) where
  | cancel
  | wake
  | cancelJobs
  | cancelOperations
  | observeCancellation
  | expire
  | pipeline (action : PipelineAction Receipt)
  | conclude
  | unregister

namespace CaptureTask

def start : CaptureTask Receipt where
  lifecycle := .created
  control := .new
  events := []
  results := []
  position := .running
  selecting := true
  timedOut := false
  waking := 0
  closing := .open
  registered := true
  claimed := false
  commitStarted := false

variable (task : CaptureTask Receipt)

/-- A cancellation request of another thread. -/
def request : CaptureTask Receipt :=
  { task with
    control := task.control.takeCancellation.1
    waking := task.waking + if task.control.takeCancellation.2.isSome then 1 else 0 }

def checkCancelled (position : Position Receipt) : CaptureTask Receipt :=
  if task.control.cancelled then
    { task with position := .ended (.error cancellationError) }
  else
    { task with position := position }

/-- The pipeline goes on.  Everything it does before it claims the commit may
also fail; the status `encoding` is entered without a second check. -/
def advance (action : PipelineAction Receipt) : CaptureTask Receipt :=
  match task.position, action with
  | .running, .report kind =>
    if (⟨kind, none⟩ : JobEvent Receipt).isTerminal then
      task
    else
      { task with events := task.events ++ [⟨kind, none⟩] }
  | .running, .fail error => { task with position := .ended (.error error) }
  | .running, .check => task.checkCancelled .running
  | .running, .beginTransition =>
    match task.lifecycle.following with
    | some next => task.checkCancelled (.entering next)
    | none => task
  | .entering next, .transition =>
    match task.lifecycle.transition next with
    | .ok status =>
      { task with
        lifecycle := status
        position := if next = .encoding then .running else .entered }
    | .error error => { task with position := .ended (.error error) }
  | .entered, .endTransition =>
    task.checkCancelled (if task.lifecycle = .committing then .claiming else .running)
  | .claiming, .probe =>
    { task with control := task.control.probe, position := .exchanging }
  | .exchanging, .claim =>
    match task.control.takeCommit with
    | (control, .ok ()) =>
      { task with control := control, claimed := true, position := .committing }
    | (control, .error error) =>
      { task with control := control, position := .ended (.error error) }
  | .committing, .commit result =>
    { task with commitStarted := true, position := .ended result }
  | _, _ => task

section
variable (attach : CaptureStatus → OffprintError → OffprintError)

/-- The error that a cancelled capture publishes. -/
def cancelledResult (task : CaptureTask Receipt) (error : OffprintError) : OffprintError :=
  if task.timedOut then
    ((OffprintError.new "offprint.runtime.timeout" .shutdown
      "capture exceeded its total deadline").withRetryable true).withSource error
  else
    (OffprintError.new "offprint.runtime.cancelled" .shutdown
      "capture was cancelled").withSource error

/-- `runCaptureJob` looks at the pipeline's result and at the decision. -/
def judge (task : CaptureTask Receipt) : Except OffprintError Receipt → CaptureTask Receipt
  | .ok receipt =>
    match task.lifecycle.transition .succeeded with
    | .ok status =>
      { task with lifecycle := status, position := .announcing (.succeeded receipt) }
    | .error error => { task with position := .failing error }
  | .error error =>
    if task.control.cancellationWon then
      match task.lifecycle.transition .cancelling >>= (·.transition .cancelled) with
      | .ok status =>
        { task with
          lifecycle := status
          position := .announcing (.cancelled (attach status (task.cancelledResult error))) }
      | .error transitionError =>
        { task with position := .failing (transitionError.withSource error) }
    else
      { task with position := .failing error }

/-- `finishFailedJob` up to its event. -/
def fail (task : CaptureTask Receipt) (error : OffprintError) : CaptureTask Receipt :=
  match task.lifecycle.transition .failed with
  | .ok status =>
    { task with
      lifecycle := status
      position := .announcing (.failed (attach status error)) }
  | .error transitionError =>
    { task with
      position :=
        .announcing (.failed (attach task.lifecycle (transitionError.withSource error))) }

def conclude (task : CaptureTask Receipt) : CaptureTask Receipt :=
  match task.position with
  | .ended result => task.judge attach result
  | .failing error => task.fail attach error
  | .announcing verdict =>
    { task with events := task.events ++ [verdict.event], position := .publishing verdict }
  | .publishing verdict =>
    { task with results := task.results ++ [verdict.result], position := .done verdict }
  | _ => task

def step (task : CaptureTask Receipt) : JobAction Receipt → CaptureTask Receipt
  | .cancel => task.request
  | .wake =>
    if task.waking = 0 then
      task
    else
      { task with control := task.control.cancel, waking := task.waking - 1 }
  | .cancelJobs =>
    if task.closing = .open then
      if task.registered then
        { task.request with closing := .jobsCancelled }
      else
        { task with closing := .jobsCancelled }
    else
      task
  | .cancelOperations =>
    if task.closing = .jobsCancelled then
      { task with control := task.control.cancel, closing := .operationsCancelled }
    else
      task
  | .observeCancellation =>
    if task.selecting && task.position.waits && task.control.cancelled then
      { task with selecting := false }
    else
      task
  | .expire =>
    if task.selecting && task.position.waits then
      { task with
        selecting := false
        control := task.control.requestCancel.1
        timedOut := task.control.requestCancel.2 }
    else
      task
  | .pipeline action => task.advance action
  | .conclude => task.conclude attach
  | .unregister =>
    match task.position with
    | .done _ => { task with registered := false }
    | _ => task

def run (actions : List (JobAction Receipt)) : CaptureTask Receipt :=
  actions.foldl (step attach) start

end
end CaptureTask
end Offprint.Capture
