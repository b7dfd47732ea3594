import Offprint.Scheduler.Manifest

/-!
# Scheduled captures

One scheduled capture from its start to its outcome: where its artifact is
committed under each conflict policy, and what becomes of it when the runtime
is closed on the way.
-/

namespace Offprint.Scheduler

open Model Option

variable {Url : Type} {requested : OutputPath} {suffix : Nat} {taken : TakenPaths}
  {destination : OutputPath} {count : Nat}

/-! ## The committed artifact -/

/-- The paths that are taken when an artifact is committed. -/
abbrev TakenPaths : Type :=
  OutputPath → Bool

def uniqueCandidate (requested : OutputPath) (suffix : Nat) : OutputPath :=
  if suffix = 0 then requested else { requested with stem := s!"{requested.stem}-{suffix}" }

def maximumSuffixes : Nat := 4294967296

/-- Take the first free candidate among `count` suffixes from `suffix` on. -/
def persistUnique (taken : TakenPaths) (requested : OutputPath) :
    Nat → Nat → Except OffprintError OutputPath
  | 0, _ =>
    .error (.new "offprint.output.uniquify" .commit "portable filename suffixes are exhausted")
  | count + 1, suffix =>
    let destination := uniqueCandidate requested suffix
    if taken destination then persistUnique taken requested count (suffix + 1)
    else .ok destination

def persistNoclobber (taken : TakenPaths) (destination : OutputPath) :
    Except OffprintError OutputPath :=
  if taken destination then
    .error ((OffprintError.new "offprint.output.exists" .commit
      "failed to commit the verified artifact: File exists (os error 17)").withDetail
        "ioKind" (.string "AlreadyExists"))
  else
    .ok destination

def commitDestination (taken : TakenPaths) (requested : OutputPath) :
    ConflictPolicy → Except OffprintError OutputPath
  | .fail => persistNoclobber taken requested
  | .replace => .ok requested
  | .uniquify => persistUnique taken requested maximumSuffixes 0

theorem uniqueCandidate_eq_iff : uniqueCandidate requested suffix = requested ↔ suffix = 0 := by
  constructor
  · intro same
    by_contra positive
    rw [uniqueCandidate, if_neg positive] at same
    have stem := congrArg String.length (congrArg OutputPath.stem same)
    have dash : "-".length = 1 := rfl
    simp only [toString, String.length_append] at stem
    omega
  · intro zero
    rw [uniqueCandidate, if_pos zero]

theorem persistUnique_ok (committed : persistUnique taken requested count suffix = .ok destination)
    :
    ∃ chosen, chosen < suffix + count ∧ destination = uniqueCandidate requested chosen ∧
      taken destination = false := by
  induction count generalizing suffix with
  | zero => cases committed
  | succ count ih =>
    unfold persistUnique at committed
    cases free : taken (uniqueCandidate requested suffix) with
    | true =>
      simp only [free, ↓reduceIte] at committed
      obtain ⟨chosen, bound, isChosen⟩ := ih committed
      exact ⟨chosen, by omega, isChosen⟩
    | false =>
      simp only [free, Bool.false_eq_true, ↓reduceIte] at committed
      cases committed
      exact ⟨suffix, by omega, rfl, free⟩

theorem exists_persistUnique {chosen : Nat} (bounds : suffix ≤ chosen ∧ chosen < suffix + count)
    (free : taken (uniqueCandidate requested chosen) = false) :
    ∃ destination, persistUnique taken requested count suffix = .ok destination := by
  induction count generalizing suffix with
  | zero => omega
  | succ count ih =>
    unfold persistUnique
    cases occupied : taken (uniqueCandidate requested suffix) with
    | true =>
      have later : suffix ≠ chosen := by
        rintro rfl
        rw [occupied] at free
        cases free
      simpa [occupied] using ih (by omega)
    | false => simp [occupied]

theorem commitDestination_ne_iff {conflict : ConflictPolicy}
    (committed : commitDestination taken requested conflict = .ok destination) :
    destination ≠ requested ↔ conflict = .uniquify ∧ taken requested = true := by
  cases conflict with
  | fail =>
    unfold commitDestination persistNoclobber at committed
    split_ifs at committed
    cases committed
    simp
  | replace =>
    cases committed
    simp
  | uniquify =>
    obtain ⟨chosen, -, rfl, free⟩ := persistUnique_ok committed
    have isRequested := @uniqueCandidate_eq_iff requested chosen
    cases occupied : taken requested with
    | true =>
      have elsewhere : uniqueCandidate requested chosen ≠ requested := by
        intro same
        rw [same, occupied] at free
        cases free
      simp [elsewhere]
    | false =>
      -- The first candidate is the requested path.
      have first : persistUnique taken requested maximumSuffixes 0 = .ok requested := by
        change persistUnique taken requested (4294967295 + 1) 0 = _
        simp [persistUnique, uniqueCandidate, occupied]
      unfold commitDestination at committed
      rw [first, Except.ok.injEq] at committed
      simp [← committed]

/-- How a capture ends on its own: it fails, or it claims its commit at a moment
when certain paths are taken. -/
inductive CaptureEnd where
  | failed (error : OffprintError)
  | captured (captureId : String) (content : List UInt8) (taken : TakenPaths)

section Capture

variable [Sha256]

def commitArtifact (output : CaptureOutput) (content : List UInt8) (taken : TakenPaths) :
    Except OffprintError CaptureArtifact :=
  match output with
  | .file path conflict => do
      let destination ← commitDestination taken path conflict
      return .file destination content.length (Sha256.digest content)
  | .bytes => .ok (.bytes content (Sha256.digest content))

def captureResult (request : CaptureRequest Url) :
    CaptureEnd → Except OffprintError CaptureReceipt
  | .failed error => .error error
  | .captured captureId content taken => do
      let artifact ← commitArtifact request.output content taken
      return ⟨captureId, artifact⟩

end Capture

/-! ## Closing the runtime -/

/-- The moments of a shutdown: no more captures are admitted, the registered
captures are cancelled, the operations are woken. -/
structure Closing where
  begun : Nat
  cancelling : Nat
  woken : Nat
  ordered : begun ≤ cancelling ∧ cancelling ≤ woken

/-- A capture as its schedule runs it: when it is first polled, when it is
registered, when it claims its commit or fails, and how it ends if nothing
interferes. -/
structure JobCourse where
  polledAt : Nat
  registeredAt : Nat
  decidedAt : Nat
  ordered : polledAt ≤ registeredAt ∧ registeredAt ≤ decidedAt
  ending : CaptureEnd

def cancelledError (message : String) : OffprintError :=
  .new "offprint.runtime.cancelled" .shutdown message

def closedError : OffprintError :=
  .new "offprint.runtime.closed" .shutdown "Offprint has been closed"

/-- The error of a capture that a shutdown stops, if it comes in time. -/
def interruption (closing : Closing) (course : JobCourse) : Option OffprintError :=
  if closing.woken ≤ course.polledAt then
    some (cancelledError "scheduled capture was cancelled")
  else if closing.begun ≤ course.polledAt then
    some closedError
  else if closing.begun ≤ course.registeredAt then
    if closing.woken ≤ course.registeredAt then
      some (cancelledError "scheduled capture was cancelled")
    else
      some closedError
  else if closing.cancelling ≤ course.decidedAt then
    some ((cancelledError "capture was cancelled").withSource
      (cancelledError "capture cancellation requested"))
  else
    none

/-- A capture is cut off by a shutdown that comes before its own end is decided. -/
def CutOff (closing : Option Closing) (course : JobCourse) : Prop :=
  ∃ moments ∈ closing, (interruption moments course).isSome = true

theorem cutOff_iff {closing : Closing} {course : JobCourse} :
    CutOff (some closing) course ↔
      closing.begun ≤ course.registeredAt ∨ closing.cancelling ≤ course.decidedAt := by
  obtain ⟨begunFirst, wokenLast⟩ := closing.ordered
  obtain ⟨polledFirst, decidedLast⟩ := course.ordered
  simp only [CutOff, mem_some_iff, exists_eq_left', interruption]
  split_ifs
  all_goals
    simp only [isSome_some, isSome_none, true_iff, false_iff, Bool.false_eq_true]
    omega

section Run

variable [Sha256] (closing : Option Closing) (course : JobCourse) (id : String)
  (request : CaptureRequest Url)

def jobResult : Except OffprintError CaptureReceipt :=
  match closing.bind fun moments => interruption moments course with
  | some error => .error error
  | none => captureResult request course.ending

def runJob (id : String) (request : CaptureRequest Url) (requestSha256 : ContentDigest) :
    ScheduledCaptureOutcome Url :=
  match jobResult closing course request with
  | .ok result => .succeeded id requestSha256 result
  | .error error => .failed id requestSha256 error

@[simp]
theorem id_runJob (requestSha256 : ContentDigest) :
    (runJob closing course id request requestSha256).id = id := by
  unfold runJob
  cases jobResult closing course request <;> rfl

theorem runJob_of_cutOff {closing : Option Closing} {course : JobCourse}
    (cutOff : CutOff closing course) (id : String) (request : CaptureRequest Url)
    (requestSha256 : ContentDigest) :
    ∃ error, runJob closing course id request requestSha256 = .failed id requestSha256 error := by
  obtain ⟨moments, isClosing, stopped⟩ := cutOff
  obtain ⟨error, stopped⟩ := isSome_iff_exists.mp stopped
  refine ⟨error, ?_⟩
  rw [mem_def] at isClosing
  simp [runJob, jobResult, isClosing, stopped]

end Run

end Offprint.Scheduler
