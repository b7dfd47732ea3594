import Offprint.Data.Json

/-!
# Errors

The error record every fallible function returns, and the part of the error
registry that fixes the stage and the retry advice of the codes used here.
-/

namespace Offprint.Model

open Offprint.Data (Json)

inductive ErrorStage where
  | validation
  | browser
  | navigation
  | readiness
  | collection
  | resource
  | transform
  | encoding
  | verification
  | commit
  | shutdown
  | internal
  deriving Repr, DecidableEq

structure ErrorCodeDefinition where
  code : String
  stage : ErrorStage
  retryable : Bool
  deriving Repr, DecidableEq

/-- The registered codes that the modelled functions report. -/
def errorCodeRegistry : List ErrorCodeDefinition :=
  [⟨"offprint.artifact.digest", .commit, false⟩, ⟨"offprint.artifact.serialize", .encoding, false⟩,
   ⟨"offprint.collector.base_url", .collection, false⟩,
   ⟨"offprint.export.files", .encoding, false⟩,
   ⟨"offprint.export.output", .commit, false⟩,
   ⟨"offprint.export.size", .encoding, false⟩,
   ⟨"offprint.frame.depth", .collection, false⟩,
   ⟨"offprint.frame.limit", .collection, false⟩,
   ⟨"offprint.frame.owner", .collection, false⟩,
   ⟨"offprint.frame.topology", .collection, false⟩,
   ⟨"offprint.input.file_root", .validation, false⟩,
   ⟨"offprint.input.network_cidr", .validation, false⟩,
   ⟨"offprint.input.remote_file", .validation, false⟩,
   ⟨"offprint.navigation.address_blocked", .navigation, false⟩,
   ⟨"offprint.navigation.dns", .navigation, true⟩,
   ⟨"offprint.navigation.host", .navigation, false⟩,
   ⟨"offprint.navigation.scheme", .navigation, false⟩,
   ⟨"offprint.output.commit", .commit, true⟩,
   ⟨"offprint.output.exists", .validation, false⟩,
   ⟨"offprint.output.uniquify", .commit, false⟩,
   ⟨"offprint.resource.css_cycle", .resource, false⟩,
   ⟨"offprint.resource.css_depth", .resource, false⟩,
   ⟨"offprint.resource.css_encoding", .resource, false⟩,
   ⟨"offprint.resource.data_url", .resource, false⟩,
   ⟨"offprint.resource.html_cycle", .resource, false⟩,
   ⟨"offprint.resource.html_depth", .resource, false⟩,
   ⟨"offprint.resource.html_frame", .resource, false⟩,
   ⟨"offprint.resource.html_serialize", .resource, false⟩,
   ⟨"offprint.resource.limit", .resource, false⟩,
   ⟨"offprint.resource.rewrite", .resource, false⟩,
   ⟨"offprint.resource.scheme", .resource, false⟩,
   ⟨"offprint.resource.status", .resource, true⟩,
   ⟨"offprint.resource.store", .internal, false⟩,
   ⟨"offprint.resource.svg_cycle", .resource, false⟩,
   ⟨"offprint.resource.svg_depth", .resource, false⟩,
   ⟨"offprint.resource.svg_parse", .resource, false⟩,
   ⟨"offprint.resource.svg_serialize", .resource, false⟩,
   ⟨"offprint.resource.terminal", .resource, false⟩,
   ⟨"offprint.resource.url", .resource, false⟩,
   ⟨"offprint.runtime.cancelled", .shutdown, false⟩,
   ⟨"offprint.runtime.closed", .shutdown, false⟩,
   ⟨"offprint.runtime.job", .internal, false⟩,
   ⟨"offprint.runtime.state_transition", .internal, false⟩,
   ⟨"offprint.runtime.timeout", .shutdown, true⟩,
   ⟨"offprint.scheduler.artifact_read", .internal, true⟩,
   ⟨"offprint.scheduler.concurrency", .validation, false⟩,
   ⟨"offprint.scheduler.depth", .validation, false⟩,
   ⟨"offprint.scheduler.job_count", .validation, false⟩,
   ⟨"offprint.scheduler.job_id", .validation, false⟩,
   ⟨"offprint.scheduler.manifest_mismatch", .validation, false⟩,
   ⟨"offprint.scheduler.manifest_shape", .validation, false⟩,
   ⟨"offprint.scheduler.resume_target", .validation, false⟩,
   ⟨"offprint.scheduler.state", .internal, false⟩,
   ⟨"offprint.scheduler.url", .validation, false⟩]

def errorDefinition (code : String) : Option ErrorCodeDefinition :=
  errorCodeRegistry.find? fun definition => definition.code = code

structure OffprintError where
  code : String
  message : String
  stage : ErrorStage
  retryable : Bool
  details : List (String × Json)
  source : Option OffprintError

namespace OffprintError

/-- A registered code brings its own stage and retry advice. -/
def new (code : String) (stage : ErrorStage) (message : String) : OffprintError :=
  match errorDefinition code with
  | some definition => ⟨code, message, definition.stage, definition.retryable, [], none⟩
  | none => ⟨code, message, stage, false, [], none⟩

variable (error : OffprintError) (key : String) (code : String) (stage : ErrorStage)

def withRetryable (retryable : Bool) : OffprintError :=
  { error with retryable := retryable }

def withDetail (key : String) (value : Json) : OffprintError :=
  { error with details := (key, value) :: error.details.filter fun detail => detail.1 ≠ key }

def withSource (error source : OffprintError) : OffprintError :=
  { error with source := some source }

/-- The text of an error: its code and its message. -/
def display : String :=
  error.code ++ ": " ++ error.message

def detail? (key : String) : Option Json :=
  error.details.lookup key

@[simp]
theorem code_new (message : String) : (new code stage message).code = code := by
  unfold new
  split <;> rfl

@[simp]
theorem code_withDetail (value : Json) : (error.withDetail key value).code = error.code :=
  rfl

@[simp]
theorem detail?_new (message key : String) : (new code stage message).detail? key = none := by
  unfold new
  split <;> rfl

@[simp]
theorem detail?_withRetryable (retryable : Bool) (key : String) :
    (error.withRetryable retryable).detail? key = error.detail? key :=
  rfl

@[simp]
theorem detail?_withSource (error source : OffprintError) (key : String) :
    (error.withSource source).detail? key = error.detail? key :=
  rfl

theorem lookup_filter_ne {key other : String} (differs : key ≠ other)
    (details : List (String × Json)) :
    (details.filter fun detail => detail.1 ≠ other).lookup key = details.lookup key := by
  induction details with
  | nil => rfl
  | cons detail details ih =>
    obtain ⟨name, value⟩ := detail
    by_cases dropped : name = other
    · subst dropped
      have unequal : (key == name) = false := beq_eq_false_iff_ne.mpr differs
      simp only [ne_eq, not_true_eq_false, decide_false, Bool.false_eq_true, not_false_eq_true,
        List.filter_cons_of_neg, List.lookup_cons, unequal]
      exact ih
    · rw [List.filter_cons_of_pos (by simpa using dropped), List.lookup_cons, List.lookup_cons, ih]

@[simp]
theorem detail?_withDetail (other : String) (value : Json) (key : String) :
    (error.withDetail other value).detail? key =
      if key = other then some value else error.detail? key := by
  unfold withDetail detail?
  by_cases same : key = other
  · subst same
    simp
  · rw [if_neg same, List.lookup_cons, beq_eq_false_iff_ne.mpr same]
    exact lookup_filter_ne same error.details

end OffprintError
end Offprint.Model
