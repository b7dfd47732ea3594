import Offprint.Effect.Wp

/-!
# Interrupted runs

The counterpart of the weakest preconditions: that a program may die in a certain
state.  Everything before the interrupted operation proceeds, so such a run is found
by following the undisturbed execution up to the operation.
-/

namespace Offprint.Effect

open List

variable {σ ε : Type} {I : Interface σ ε}

/-- A step at which nothing happens, or the process dies at an operation of a kind. -/
def Step.Deadly (kind : I.Op → Prop) (step : Step I) : Prop :=
  step.event ≠ .proceed → (∃ progress, step.event = .crash progress) ∧ kind step.op

namespace Program

variable {α β : Type} {kind : I.Op → Prop} {state middle crashed : σ} {program : Program I α}

/-- The program may die in a state, at an operation of a kind. -/
def DiesIn (program : Program I α) (kind : I.Op → Prop) (state crashed : σ) : Prop :=
  ∃ schedule, program.run schedule state = .crashed crashed ∧
    ∀ step ∈ program.trace schedule state, step.Deadly kind

theorem trace_replicate_steps (program : Program I α) (state : σ) (rest : List (Event ε)) :
    ∀ step ∈ program.trace (List.replicate (program.steps state) .proceed ++ rest) state,
      step.event = .proceed := by
  induction program generalizing state with
  | pure value => exact fun step member => nomatch member
  | perform op next ih =>
    simp only [trace, steps]
    cases I.run op state with
    | ok result | error error => exact forall_mem_cons.mpr ⟨rfl, ih _ _⟩

theorem dies_perform {op : I.Op} {next : Except ε (I.Response op) → Program I α} (deadly : kind op)
    (progress : Nat) :
    (Program.perform op next).DiesIn kind state (I.interrupted op progress state) := by
  refine ⟨[.crash progress], rfl, ?_⟩
  intro step member
  obtain rfl := mem_singleton.mp member
  exact fun _ => ⟨⟨progress, rfl⟩, deadly⟩

theorem DiesIn.bind (dies : program.DiesIn kind state crashed) (continuation : α → Program I β) :
    (program >>= continuation).DiesIn kind state crashed := by
  obtain ⟨schedule, ended, deadly⟩ := dies
  refine ⟨schedule, by rw [run_bind, ended], ?_⟩
  rw [trace_bind, ended, append_nil]
  exact deadly

theorem dies_after {continuation : α → Program I β} {value : α}
    (done : program.exec state = (value, middle))
    (dies : (continuation value).DiesIn kind middle crashed) :
    (program >>= continuation).DiesIn kind state crashed := by
  obtain ⟨schedule, ended, deadly⟩ := dies
  have early := run_replicate_steps program state schedule
  rw [done] at early
  refine ⟨List.replicate (program.steps state) .proceed ++ schedule, ?_, ?_⟩
  · rw [run_bind, early]
    exact ended
  · rw [trace_bind, early]
    intro step member
    rcases mem_append.mp member with first | second
    · exact fun disturbed => absurd (trace_replicate_steps program state schedule step first)
        disturbed
    · exact deadly step second

section Passing

variable {E : Environment I} {program : Program I α} {post : α → σ → Prop}

/-- A process may die before any operation, which neither the stopping states nor the crash
condition can tell from the operation not having begun. -/
structure Mortal (E : Environment I) : Prop where
  allowed : ∀ op, E.allowed op (.crash 0)
  stop : ∀ op state, E.stop (I.interrupted op 0 state) → E.stop state
  crash : ∀ op state, E.crash (I.interrupted op 0 state) → E.crash state

variable (mortal : Mortal E) (ends : ∀ value after, post value after → E.crash after)
  (holds : program.wp E post state)
include mortal ends holds

theorem Mortal.crash_of_wp (going : ¬ E.stop state) : E.crash state := by
  cases program with
  | pure value => exact ends value state holds
  | perform op next =>
    rcases holds.1 0 (mortal.allowed op) with stopped | died
    · exact absurd (mortal.stop op state stopped) going
    · exact mortal.crash op state died

theorem Mortal.wp_passes {schedule : List (Event ε)} {passed later : List (Step I)} {last : Step I}
    (split : program.trace schedule state = passed ++ last :: later)
    (admitted : ∀ step ∈ passed ++ [last], step.event ≠ .proceed → E.allowed step.op step.event)
    (going : ∀ step ∈ passed ++ [last], ¬ E.stop step.after) : E.crash last.after := by
  induction program generalizing state schedule passed with
  | pure value => simp [trace] at split
  | perform op next ih =>
    obtain ⟨crashes, failures, successes, errors⟩ := holds
    -- The first step is the last one, or the rest of the program takes it from there.
    have on : ∀ {response after event},
        E.stop after ∨ (next response).wp E post after →
        (⟨op, event, after⟩ : Step I) :: (next response).trace schedule.tail after =
          passed ++ last :: later → E.crash last.after := by
      intro response after event remains shape
      cases passed with
      | nil =>
        obtain ⟨rfl, _⟩ := List.cons.inj shape
        have alive := going _ (mem_singleton_self _)
        exact mortal.crash_of_wp ends (remains.resolve_left alive) alive
      | cons first passed =>
        obtain ⟨rfl, rest⟩ := List.cons.inj shape
        have alive := going _ mem_cons_self
        exact ih _ (remains.resolve_left alive) rest
          (fun step member => admitted step (mem_cons_of_mem _ member))
          fun step member => going step (mem_cons_of_mem _ member)
    have reached : ∀ {first rest}, first :: rest = passed ++ last :: later →
        first ∈ passed ++ [last] := by
      intro first rest shape
      cases passed with
      | nil => exact mem_singleton.mpr (List.cons.inj shape).1
      | cons head passed => exact (List.cons.inj shape).1 ▸ mem_cons_self
    simp only [trace] at split
    revert split
    cases schedule.headD .proceed with
    | crash progress =>
      intro split
      have only := reached split
      have alone : last = ⟨op, .crash progress, I.interrupted op progress state⟩ := by
        cases passed with
        | nil => exact (List.cons.inj split).1.symm
        | cons first passed => simp at split
      rw [alone]
      exact (crashes progress (admitted _ only (by simp))).resolve_left (going _ only)
    | fail error progress =>
      intro split
      exact on (failures error progress (admitted _ (reached split) (by simp))) split
    | proceed =>
      cases result : I.run op state with
      | ok pair => exact on (successes pair.1 pair.2 result)
      | error error => exact on (errors error result)

end Passing

end Program

namespace Action

variable {κ α β : Type} {kind : I.Op → Prop} {state middle crashed : σ} {action : Action I κ α}

theorem dies_bind (dies : action.run.DiesIn kind state crashed) (continuation : α → Action I κ β) :
    (action >>= continuation).run.DiesIn kind state crashed := by
  rw [ExceptT.run_bind]
  exact dies.bind _

theorem dies_after {continuation : α → Action I κ β} {value : α}
    (done : action.run.exec state = (.ok value, middle))
    (dies : (continuation value).run.DiesIn kind middle crashed) :
    (action >>= continuation).run.DiesIn kind state crashed := by
  rw [ExceptT.run_bind]
  exact Program.dies_after done dies

theorem dies_attempt (dies : action.run.DiesIn kind state crashed) :
    action.attempt.run.DiesIn kind state crashed := by
  rw [attempt, ExceptT.run_lift, ← bind_pure_comp]
  exact dies.bind _

end Action
end Offprint.Effect
