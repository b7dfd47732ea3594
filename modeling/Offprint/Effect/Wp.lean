import Offprint.Effect.Program

/-!
# Weakest preconditions under an adversarial environment

`wp` quantifies over every event the environment may choose at every operation.
A postcondition speaks of the runs that finish and a crash condition of the ones
that do not.  Obligations end once a state satisfying `stop` has been visited.
-/

namespace Offprint.Effect

open List

variable {σ ε : Type} {state : σ}

/-- What an adversary may do, and what a run owes when it dies. -/
structure Environment (I : Interface σ ε) where
  allowed : I.Op → Event ε → Prop
  stop : σ → Prop
  crash : σ → Prop

namespace Environment

variable {I : Interface σ ε}

/-- Operations never report an error of the environment's making. -/
def Reliable (E : Environment I) : Prop :=
  ∀ op error progress, ¬ E.allowed op (.fail error progress)

/-- A state in which a run may be stopped, and an operation may fail. -/
structure Safe {κ : Type} (E : Environment I) (failed : κ → σ → Prop) (state : σ) : Prop where
  crash : E.crash state
  failure : ¬ E.Reliable → ∀ error, failed error state

theorem Safe.wrap {κ : Type} {E : Environment I} {failed : κ → σ → Prop} {state : σ}
    (safe : E.Safe failed state) (wrap : ε → κ) : E.Safe (failed ∘ wrap) state :=
  ⟨safe.crash, fun unreliable error => safe.failure unreliable (wrap error)⟩

def faultFree (I : Interface σ ε) : Environment I where
  allowed _ _ := False
  stop _ := False
  crash _ := True

theorem faultFree_reliable : (faultFree I).Reliable := by
  intro op error progress allowed
  exact allowed

theorem safe_faultFree {κ : Type} {failed : κ → σ → Prop} : (faultFree I).Safe failed state :=
  ⟨trivial, fun unreliable => absurd faultFree_reliable unreliable⟩

end Environment

namespace Program

variable {I : Interface σ ε} {α β : Type} {E : Environment I} {program : Program I α}
  {post : α → σ → Prop} {state : σ} {op : I.Op}

/-- Every run admitted by the environment meets the postcondition, or dies in a
state that meets the crash condition. -/
def wp (E : Environment I) : Program I α → (α → σ → Prop) → σ → Prop
  | pure value, post, state => post value state
  | perform op next, post, state =>
    (∀ progress, E.allowed op (.crash progress) →
      E.stop (I.interrupted op progress state) ∨ E.crash (I.interrupted op progress state)) ∧
    (∀ error progress, E.allowed op (.fail error progress) →
      E.stop (I.interrupted op progress state) ∨
        (next (.error error)).wp E post (I.interrupted op progress state)) ∧
    (∀ response after, I.run op state = .ok (response, after) →
      E.stop after ∨ (next (.ok response)).wp E post after) ∧
    (∀ error, I.run op state = .error error → E.stop state ∨ (next (.error error)).wp E post state)

theorem wp_mono {weaker : α → σ → Prop} (holds : program.wp E post state)
    (implies : ∀ value after, post value after → weaker value after) :
    program.wp E weaker state := by
  induction program generalizing state with
  | pure value => exact implies value state holds
  | perform op next ih =>
    obtain ⟨crashes, failures, successes, errors⟩ := holds
    refine ⟨crashes, ?_, ?_, ?_⟩
    · intro error progress allowed
      exact (failures error progress allowed).imp_right (ih _)
    · intro response after result
      exact (successes response after result).imp_right (ih _)
    · intro error result
      exact (errors error result).imp_right (ih _)

theorem wp_bind {continuation : α → Program I β} {post : β → σ → Prop} :
    (program >>= continuation).wp E post state ↔
      program.wp E (fun value after => (continuation value).wp E post after) state := by
  induction program generalizing state with
  | pure value => exact Iff.rfl
  | perform op next ih =>
    rw [perform_bind]
    simp only [wp, ih]

section

variable (holds : program.wp E post state)
include holds

theorem wp_run (schedule : List (Event ε))
    (admitted : ∀ step ∈ program.trace schedule state,
      step.event ≠ .proceed → E.allowed step.op step.event) :
    (∃ step ∈ program.trace schedule state, E.stop step.after) ∨
      match program.run schedule state with
      | .finished value after _ => post value after
      | .crashed after => E.crash after := by
  induction program generalizing state schedule with
  | pure value => exact .inr holds
  | perform op next ih =>
    obtain ⟨crashes, failures, successes, errors⟩ := holds
    simp only [run, trace] at admitted ⊢
    revert admitted
    cases schedule.headD .proceed with
    | crash progress =>
      intro admitted
      have allowed := admitted _ mem_cons_self (by simp)
      refine (crashes progress allowed).imp_left ?_
      exact fun stopped => ⟨_, mem_cons_self, stopped⟩
    | fail error progress =>
      intro admitted
      have allowed := admitted _ mem_cons_self (by simp)
      exact continues (failures error progress allowed)
        (fun remaining => ih _ remaining _
          fun step member => admitted step (mem_cons_of_mem _ member))
    | proceed =>
      cases result : I.run op state with
      | ok pair =>
        intro admitted
        exact continues (successes pair.1 pair.2 result)
          (fun remaining => ih _ remaining _
            fun step member => admitted step (mem_cons_of_mem _ member))
      | error error =>
        intro admitted
        exact continues (errors error result)
          (fun remaining => ih _ remaining _
            fun step member => admitted step (mem_cons_of_mem _ member))
where
  continues {first : Step I} {rest : List (Step I)} {promise remaining : Prop}
      (now : E.stop first.after ∨ remaining)
      (later : remaining → (∃ step ∈ rest, E.stop step.after) ∨ promise) :
      (∃ step ∈ first :: rest, E.stop step.after) ∨ promise := by
    rcases now with stopped | remains
    · exact .inl ⟨first, List.mem_cons_self, stopped⟩
    · refine (later remains).imp_left ?_
      rintro ⟨step, member, stopped⟩
      exact ⟨step, List.mem_cons_of_mem _ member, stopped⟩

theorem wp_run_of_never_stops (never : ∀ state, ¬ E.stop state)
    (schedule : List (Event ε))
    (admitted : ∀ step ∈ program.trace schedule state,
      step.event ≠ .proceed → E.allowed step.op step.event) :
    match program.run schedule state with
    | .finished value after _ => post value after | .crashed after => E.crash after := by
  rcases wp_run holds schedule admitted with ⟨step, _, stopped⟩ | promised
  · exact absurd stopped (never step.after)
  · exact promised

theorem wp_exec (never : ∀ state, ¬ E.stop state) :
    post (program.exec state).1 (program.exec state).2 := by
  induction program generalizing state with
  | pure value => exact holds
  | perform op next ih =>
    obtain ⟨_, _, successes, errors⟩ := holds
    simp only [exec]
    cases result : I.run op state with
    | ok pair =>
      exact ih _
        ((successes pair.1 pair.2 result).resolve_left (never _))
    | error error =>
      exact ih _ ((errors error result).resolve_left (never _))

end

theorem wp_operation_ok {response : I.Response op} {post : Except ε (I.Response op) → σ → Prop}
    {after : σ} (result : I.run op state = .ok (response, after))
    (crashes : ∀ progress, E.allowed op (.crash progress) →
      E.stop (I.interrupted op progress state) ∨ E.crash (I.interrupted op progress state))
    (success : E.stop after ∨ post (.ok response) after)
    (failures : ¬ E.Reliable → ∀ error progress, E.stop (I.interrupted op progress state) ∨
      post (.error error) (I.interrupted op progress state)) : (operation op).wp E post state := by
  refine ⟨?_, ?_, ?_, ?_⟩
  · exact crashes
  · intro error progress allowed
    exact failures (fun reliable => reliable op error progress allowed) error progress
  · intro found foundAfter same
    rw [result, Except.ok.injEq, Prod.mk.injEq] at same
    obtain ⟨rfl, rfl⟩ := same
    exact success
  · intro error same
    rw [result] at same
    cases same

end Program

/-- An operation that reads the state and never changes it. -/
def Interface.Observes (I : Interface σ ε) (op : I.Op) : Prop :=
  ∀ state, (∀ progress, I.interrupted op progress state = state) ∧
    ∀ response after, I.run op state = .ok (response, after) → after = state

namespace Program

variable {I : Interface σ ε} {α β : Type} {E : Environment I}

/-- A program all of whose operations only read the state. -/
abbrev Observing : Program I α → Prop :=
  Each I.Observes

theorem exec_state_of_observing
    {program : Program I α} (observing : program.Observing) (state : σ) :
    (program.exec state).2 = state := by
  induction program generalizing state with
  | pure value => rfl
  | perform op next ih =>
    obtain ⟨observes, continues⟩ := observing
    simp only [exec]
    cases result : I.run op state with
    | ok pair =>
      have unchanged := (observes state).2 pair.1 pair.2 result
      rw [← unchanged]
      exact ih _ (continues _) _
    | error error => exact ih _ (continues _) _

theorem wp_of_observing {program : Program I α} {post : α → σ → Prop}
    (observing : program.Observing) (crashes : E.crash state)
    (holds : ∀ value, (E.Reliable → value = (program.exec state).1) → post value state) :
    program.wp E post state := by
  induction program with
  | pure value => exact holds value fun _ => rfl
  | perform op next ih =>
    obtain ⟨observes, continues⟩ := observing
    refine ⟨?_, ?_, ?_, ?_⟩
    · intro progress _
      rw [(observes state).1]
      exact .inr crashes
    · intro error progress allowed
      rw [(observes state).1]
      refine .inr (ih _ (continues _) ?_)
      intro value _
      exact holds value fun reliable => absurd allowed (reliable op error progress)
    · intro response after result
      obtain rfl := (observes state).2 response after result
      refine .inr (ih _ (continues _) ?_)
      intro value agrees
      refine holds value fun reliable => ?_
      rw [agrees reliable, exec, result]
    · intro error result
      refine .inr (ih _ (continues _) ?_)
      intro value agrees
      refine holds value fun reliable => ?_
      rw [agrees reliable, exec, result]

section Strict

variable {κ : Type}

/-- A reading program that gives up at the first operation that fails. -/
def Strict : Program I (Except κ α) → Prop
  | pure _ => True
  | perform op next =>
    I.Observes op ∧ (∀ error, ∃ reported, next (.error error) = Pure.pure (.error reported)) ∧
      ∀ response, (next (.ok response)).Strict

theorem wp_of_strict {program : Program I (Except κ α)} {post : Except κ α → σ → Prop}
    (strict : program.Strict) (safe : E.Safe (post ∘ .error) state)
    (truth : post (program.exec state).1 state) : program.wp E post state := by
  induction program with
  | pure value => exact truth
  | perform op next ih =>
    obtain ⟨observes, reports, continues⟩ := strict
    refine ⟨?_, ?_, ?_, ?_⟩
    · intro progress _
      rw [(observes state).1]
      exact .inr safe.crash
    · intro error progress allowed
      obtain ⟨reported, returned⟩ := reports error
      rw [(observes state).1, returned]
      exact .inr (safe.failure (fun reliable => reliable op error progress allowed) reported)
    · intro response after result
      obtain rfl := (observes state).2 response after result
      rw [exec, result] at truth
      exact .inr (ih _ (continues _) truth)
    · intro error result
      obtain ⟨reported, returned⟩ := reports error
      rw [exec_perform_error result] at truth
      rw [returned] at truth ⊢
      exact .inr truth

end Strict
end Program

/-- Programs that may return early with an error. -/
abbrev Action (I : Interface σ ε) (κ α : Type) : Type :=
  ExceptT κ (Program I) α

namespace Action

variable {I : Interface σ ε} {κ α β : Type} {E : Environment I} {action : Action I κ α}
  {continuation : α → Action I κ β} {post : Except κ β → σ → Prop} {state : σ}
  {step : α → Action I κ PUnit}

/-- Run to the end and hand the result, success or error, to the caller. -/
def attempt (action : Action I κ α) : Action I κ (Except κ α) :=
  ExceptT.lift action.run

theorem wp_bind (holds : action.run.wp E (fun result after =>
      match result with
      | .ok value => (continuation value).run.wp E post after
      | .error error => post (.error error) after) state) :
    (action >>= continuation).run.wp E post state := by
  rw [ExceptT.run_bind, Program.wp_bind]
  refine Program.wp_mono holds fun result after reached => ?_
  cases result <;> exact reached

theorem wp_run_lift {program : Program I α} {post : Except κ α → σ → Prop} :
    (ExceptT.lift program : Action I κ α).run.wp E post state ↔
      program.wp E (fun value after => post (.ok value) after) state := by
  rw [ExceptT.run_lift, ← bind_pure_comp, Program.wp_bind]
  exact Iff.rfl

theorem wp_attempt_bind {continuation : Except κ α → Action I κ β}
    (holds : action.run.wp E (fun result => (continuation result).run.wp E post) state) :
    (action.attempt >>= continuation).run.wp E post state :=
  wp_bind (wp_run_lift.mpr holds)

theorem exec_run_bind (action : Action I κ α) (continuation : α → Action I κ β) (state : σ) :
    (action >>= continuation).run.exec state =
      match (action.run.exec state).1 with
      | .ok value => (continuation value).run.exec (action.run.exec state).2
      | .error error => (.error error, (action.run.exec state).2) := by
  rw [ExceptT.run_bind, Program.exec_bind]
  cases (action.run.exec state).1 <;> rfl

theorem exec_run_bind_of_ok {after : σ} {value : α}
    (done : action.run.exec state = (.ok value, after)) :
    (action >>= continuation).run.exec state = (continuation value).run.exec after := by
  rw [exec_run_bind, done]

theorem of_exec_bind {after : σ} {value : β}
    (done : (action >>= continuation).run.exec state = (.ok value, after)) :
    ∃ first middle, action.run.exec state = (.ok first, middle) ∧
      (continuation first).run.exec middle = (.ok value, after) := by
  rw [exec_run_bind] at done
  rcases early : action.run.exec state with ⟨result, middle⟩
  rw [early] at done
  cases result with
  | ok first => exact ⟨first, middle, rfl, done⟩
  | error error => cases done

theorem exec_run_attempt (action : Action I κ α) (state : σ) :
    action.attempt.run.exec state = (.ok (action.run.exec state).1, (action.run.exec state).2) := by
  rw [attempt, ExceptT.run_lift, ← bind_pure_comp, Program.exec_bind]
  rfl

section Each

variable {kind : I.Op → Prop}

theorem each_pure (value : α) : (pure value : Action I κ α).run.Each kind :=
  trivial

theorem each_throw (error : κ) : (throw error : Action I κ α).run.Each kind :=
  trivial

theorem each_bind (first : action.run.Each kind)
    (second : ∀ value, (continuation value).run.Each kind) :
    (action >>= continuation).run.Each kind := by
  rw [ExceptT.run_bind]
  apply Program.each_bind first
  intro result
  cases result with
  | ok value => exact second value
  | error error => trivial

theorem each_attempt (each : action.run.Each kind) : action.attempt.run.Each kind := by
  rw [attempt, ExceptT.run_lift, ← bind_pure_comp]
  exact Program.each_bind each fun _ => trivial

theorem each_foldlM {step : β → α → Action I κ β}
    (each : ∀ gathered element, (step gathered element).run.Each kind)
    (elements : List α) (initial : β) : (elements.foldlM step initial).run.Each kind := by
  induction elements generalizing initial with
  | nil => exact each_pure initial
  | cons element elements ih =>
    rw [foldlM_cons]
    exact each_bind (each initial element) ih

theorem each_forM {elements : List α} (each : ∀ element ∈ elements, (step element).run.Each kind) :
    (elements.forM step).run.Each kind := by
  induction elements with
  | nil => exact each_pure _
  | cons element elements ih =>
    refine each_bind (each element mem_cons_self) fun _ => ?_
    exact ih fun other member => each other (mem_cons_of_mem _ member)

end Each

theorem wp_forM {post : Except κ PUnit → σ → Prop} (invariant : List α → σ → Prop)
    (advance : ∀ element rest state, invariant (element :: rest) state →
      (step element).run.wp E (fun result after =>
        match result with
        | .ok _ => invariant rest after
        | .error error => post (.error error) after) state)
    (finish : ∀ state, invariant [] state → post (.ok ⟨⟩) state) {elements : List α}
    (start : invariant elements state) : (elements.forM step).run.wp E post state := by
  induction elements generalizing state with
  | nil => exact finish state start
  | cons element rest ih =>
    refine wp_bind (Program.wp_mono (advance element rest state start) ?_)
    intro result after reached
    cases result with
    | ok value => exact ih reached
    | error error => exact reached

theorem wp_foldlM {step : β → α → Action I κ β} (invariant : List α → β → σ → Prop)
    (advance : ∀ element rest gathered state, invariant (element :: rest) gathered state →
      (step gathered element).run.wp E (fun result after =>
        match result with
        | .ok more => invariant rest more after
        | .error error => post (.error error) after) state)
    (finish : ∀ gathered state, invariant [] gathered state → post (.ok gathered) state)
    {elements : List α} {initial : β} (start : invariant elements initial state) :
    (elements.foldlM step initial).run.wp E post state := by
  induction elements generalizing initial state with
  | nil => exact finish initial state start
  | cons element rest ih =>
    rw [foldlM_cons]
    refine wp_bind (Program.wp_mono (advance element rest initial state start) ?_)
    intro result after reached
    cases result with
    | ok more => exact ih reached
    | error error => exact reached

theorem strict_pure (value : α) : (pure value : Action I κ α).run.Strict :=
  trivial

theorem strict_throw (error : κ) : (throw error : Action I κ α).run.Strict :=
  trivial

theorem strict_bind (first : action.run.Strict)
    (second : ∀ value, (continuation value).run.Strict) : (action >>= continuation).run.Strict := by
  rw [ExceptT.run_bind]
  revert first
  induction action.run with
  | pure result =>
    intro _
    cases result with
    | ok value => exact second value
    | error error => trivial
  | perform op next ih =>
    rintro ⟨observes, reports, continues⟩
    refine ⟨observes, ?_, fun response => ih _ (continues response)⟩
    intro error
    obtain ⟨reported, returned⟩ := reports error
    refine ⟨reported, ?_⟩
    simp only [returned]
    rfl

theorem strict_foldlM
    {step : β → α → Action I κ β} (strict : ∀ accumulated element,
    (step accumulated element).run.Strict)
    (elements : List α) (initial : β) : (elements.foldlM step initial).run.Strict := by
  induction elements generalizing initial with
  | nil => exact strict_pure initial
  | cons element elements ih =>
    rw [foldlM_cons]
    exact strict_bind (strict initial element) ih

theorem strict_forM (strict : ∀ element, (step element).run.Strict) (elements : List α) :
    (elements.forM step).run.Strict := by
  induction elements with
  | nil => exact strict_pure _
  | cons element elements ih =>
    exact strict_bind (strict element) fun _ => ih

end Action
end Offprint.Effect
