import Mathlib.Tactic.Common

/-!
# Programs over a fallible, interruptible interface

A program performs operations one after another.  Before each operation the
environment chooses an event: the operation proceeds, it reports an error of
the environment's making, or the whole process dies.  An operation that did not
proceed may still have made some progress on the state.
-/

namespace Offprint.Effect

/-- What the environment does to one operation. -/
inductive Event (ε : Type) where
  | proceed
  | fail (error : ε) (progress : Nat)
  | crash (progress : Nat)
  deriving Repr, DecidableEq

/-- Operations on a state, with the state that an interrupted operation leaves. -/
structure Interface (σ ε : Type) where
  Op : Type
  Response : Op → Type
  run : (op : Op) → σ → Except ε (Response op × σ)
  interrupted : Op → Nat → σ → σ

/-- How a run ends: with a value and the unused events, or in the middle of it. -/
inductive Outcome (σ ε α : Type) where
  | finished (value : α) (state : σ) (rest : List (Event ε))
  | crashed (state : σ)

def Outcome.state {σ ε α : Type} : Outcome σ ε α → σ
  | finished _ state _ | crashed state => state

variable {σ ε : Type}

/-- One performed operation of a run. -/
structure Step (I : Interface σ ε) where
  op : I.Op
  event : Event ε
  after : σ

inductive Program (I : Interface σ ε) (α : Type) : Type where
  | pure (value : α)
  | perform (op : I.Op) (next : Except ε (I.Response op) → Program I α)

namespace Program

variable {I : Interface σ ε} {α β γ : Type} {kind : I.Op → Prop} {program : Program I α}

protected def bind : Program I α → (α → Program I β) → Program I β
  | pure value, continuation => continuation value
  | perform op next, continuation =>
    perform op fun response => (next response).bind continuation

instance : Monad (Program I) where
  pure := Program.pure
  bind := Program.bind

@[simp]
theorem pure_bind (value : α) (continuation : α → Program I β) :
    (Program.pure value >>= continuation : Program I β) = continuation value :=
  rfl

@[simp]
theorem perform_bind (op : I.Op) (next : Except ε (I.Response op) → Program I α)
    (continuation : α → Program I β) :
    (Program.perform op next >>= continuation : Program I β) =
      Program.perform op fun response => next response >>= continuation :=
  rfl

theorem bind_pure' (program : Program I α) :
    (program >>= Program.pure : Program I α) = program := by
  induction program with
  | pure value => rfl
  | perform op next ih =>
    rw [perform_bind]
    exact congrArg (Program.perform op) (funext ih)

theorem bind_assoc' (program : Program I α) (first : α → Program I β) (second : β → Program I γ) :
    (program >>= first >>= second : Program I γ) =
      program >>= fun value => first value >>= second := by
  induction program with
  | pure value => rfl
  | perform op next ih =>
    simp only [perform_bind]
    exact congrArg (Program.perform op) (funext ih)

instance : LawfulMonad (Program I) :=
  LawfulMonad.mk' (Program I) bind_pure' (fun value next => pure_bind value next) bind_assoc'

def operation (op : I.Op) : Program I (Except ε (I.Response op)) :=
  perform op pure

/-- Run a program against a schedule of events; an exhausted schedule proceeds. -/
def run : Program I α → List (Event ε) → σ → Outcome σ ε α
  | pure value, schedule, state => .finished value state schedule
  | perform op next, schedule, state =>
    match schedule.headD .proceed with
    | .crash progress => .crashed (I.interrupted op progress state)
    | .fail error progress =>
      (next (.error error)).run schedule.tail (I.interrupted op progress state)
    | .proceed =>
      match I.run op state with
      | .ok (response, after) => (next (.ok response)).run schedule.tail after
      | .error error => (next (.error error)).run schedule.tail state

/-- The operations a run performs, with the event each one met and the state it left. -/
def trace : Program I α → List (Event ε) → σ → List (Step I)
  | pure _, _, _ => []
  | perform op next, schedule, state =>
    match schedule.headD .proceed with
    | .crash progress => [⟨op, .crash progress, I.interrupted op progress state⟩]
    | .fail error progress =>
      ⟨op, .fail error progress, I.interrupted op progress state⟩ ::
        (next (.error error)).trace schedule.tail (I.interrupted op progress state)
    | .proceed =>
      match I.run op state with
      | .ok (response, after) =>
        ⟨op, .proceed, after⟩ :: (next (.ok response)).trace schedule.tail after
      | .error error =>
        ⟨op, .proceed, state⟩ :: (next (.error error)).trace schedule.tail state

/-- The run in which nothing goes wrong. -/
def exec : Program I α → σ → α × σ
  | pure value, state => (value, state)
  | perform op next, state =>
    match I.run op state with
    | .ok (response, after) => (next (.ok response)).exec after
    | .error error => (next (.error error)).exec state

@[simp]
theorem exec_pure (value : α) (state : σ) :
    (Pure.pure value : Program I α).exec state = (value, state) :=
  rfl

theorem exec_perform_ok {op : I.Op} {next : Except ε (I.Response op) → Program I α}
    {state after : σ} {response : I.Response op} (result : I.run op state = .ok (response, after)) :
    (Program.perform op next).exec state = (next (.ok response)).exec after := by
  rw [exec, result]

theorem exec_perform_error {op : I.Op} {next : Except ε (I.Response op) → Program I α} {state : σ}
    {error : ε} (result : I.run op state = .error error) :
    (Program.perform op next).exec state = (next (.error error)).exec state := by
  rw [exec, result]

section

variable (program : Program I α) (continuation : α → Program I β) (schedule : List (Event ε))
  (state : σ)

theorem exec_bind :
    (program >>= continuation).exec state =
      (continuation (program.exec state).1).exec (program.exec state).2 := by
  induction program generalizing state with
  | pure value => rfl
  | perform op next ih =>
    simp only [perform_bind, exec]
    cases I.run op state with
    | ok result => exact ih _ _
    | error error => exact ih _ _

theorem run_bind :
    (program >>= continuation).run schedule state =
      match program.run schedule state with
      | .finished value after rest => (continuation value).run rest after
      | .crashed after => .crashed after := by
  induction program generalizing schedule state with
  | pure value => rfl
  | perform op next ih =>
    simp only [perform_bind, run]
    cases schedule.headD .proceed with
    | crash progress => rfl
    | fail error progress => exact ih _ _ _
    | proceed =>
      cases I.run op state with
      | ok result | error error => exact ih _ _ _

theorem trace_bind :
    (program >>= continuation).trace schedule state =
      program.trace schedule state ++
        match program.run schedule state with
        | .finished value after rest => (continuation value).trace rest after
        | .crashed _ => [] := by
  induction program generalizing schedule state with
  | pure value => rfl
  | perform op next ih =>
    simp only [perform_bind, run, trace]
    cases schedule.headD .proceed with
    | crash progress => rfl
    | fail error progress => exact congrArg (List.cons _) (ih _ _ _)
    | proceed =>
      cases I.run op state with
      | ok result | error error => exact congrArg (List.cons _) (ih _ _ _)

end

/-- The number of operations of the run in which nothing goes wrong. -/
def steps : Program I α → σ → Nat
  | pure _, _ => 0
  | perform op next, state =>
    match I.run op state with
    | .ok (response, after) => (next (.ok response)).steps after + 1
    | .error error => (next (.error error)).steps state + 1

theorem run_replicate_steps (program : Program I α) (state : σ) (rest : List (Event ε)) :
    program.run (List.replicate (program.steps state) .proceed ++ rest) state =
      .finished (program.exec state).1 (program.exec state).2 rest := by
  induction program generalizing state with
  | pure value => rfl
  | perform op next ih =>
    simp only [run, exec, steps]
    cases I.run op state with
    | ok result => exact ih _ _
    | error error => exact ih _ _

/-- A program all of whose operations are of a kind. -/
def Each (kind : I.Op → Prop) : Program I α → Prop
  | pure _ => True
  | perform op next => kind op ∧ ∀ response, (next response).Each kind

theorem Each.mono {wider : I.Op → Prop} (each : program.Each kind)
    (widens : ∀ op, kind op → wider op) : program.Each wider := by
  induction program with
  | pure value => trivial
  | perform op next ih =>
    exact ⟨widens op each.1, fun response => ih response (each.2 response)⟩

theorem each_bind {continuation : α → Program I β} (first : program.Each kind)
    (second : ∀ value, (continuation value).Each kind) : (program >>= continuation).Each kind := by
  induction program with
  | pure value => exact second value
  | perform op next ih =>
    exact ⟨first.1, fun response => ih response (first.2 response)⟩

end Program
end Offprint.Effect
