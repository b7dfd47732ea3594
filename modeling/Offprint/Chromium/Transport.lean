import Mathlib.Algebra.GroupWithZero.Nat
import Offprint.Model.Error

/-!
# Commands of the browser protocol

Every command draws an id and waits on a channel of its own.  One task writes the commands,
keeps the channels of those that were written by their ids, and answers them as the browser's
responses arrive, in any order.  A caller may leave at any moment; it then asks the task to forget
its id.
-/

namespace Offprint.Chromium

open Offprint.Data (Json)
open Model List

/-- Where the caller of a command stands.  It has ended once it no longer waits for the answer. -/
inductive CallStage where
  | idle
  | sending
  | waiting
  | ended
  deriving DecidableEq

/-- What is sent over the channel of a command, or that the channel was dropped. -/
inductive Reply where
  | response (id : Nat) (result : Except Json Json)
  | failed (error : OffprintError)
  | dropped

structure Call where
  stage : CallStage
  answers : List Reply

/-- What becomes of a command that the task takes from its queue. -/
inductive Sending where
  | sent
  | unencodable (error : OffprintError)
  | broken (error : OffprintError)

inductive TransportAction where
  | submit
  | enqueue (call : Nat)
  | poll (call : Nat)
  | abandon (call : Nat)
  | cancellation
  | outbound (sending : Sending)
  | response (id : Nat) (result : Except Json Json)
  | terminate (error : OffprintError)
  | abort

/-- The commands by the order in which they drew their ids, with what the task holds. -/
structure Transport where
  submitted : Nat
  calls : Nat → Call
  outbound : List Nat
  cancellations : List Nat
  pending : Nat → Option Nat
  running : Bool

namespace Transport

def new : Transport :=
  ⟨0, fun _ => ⟨.idle, []⟩, [], [], fun _ => none, true⟩

def commandCapacity : Nat := 256

def requestId (call : Nat) : Nat :=
  (call + 1) % 2 ^ 64

variable (state : Transport)

def setStage (call : Nat) (stage : CallStage) : Transport :=
  { state with calls := Function.update state.calls call { state.calls call with stage } }

def answer (call : Nat) (answer : Reply) : Transport :=
  { state with
    calls := Function.update state.calls call
      { state.calls call with answers := (state.calls call).answers ++ [answer] } }

/-- The end of the task: what is pending is answered, what is queued is dropped. -/
def finish (last : Reply) : Transport :=
  { state with
    calls := fun call => { state.calls call with
      answers := (state.calls call).answers ++
        (if state.pending (requestId call) = some call then [last] else []) ++
        (if call ∈ state.outbound then [.dropped] else []) }
    outbound := []
    pending := fun _ => none
    running := false }

def takeOutbound (sending : Sending) : Transport :=
  match state.outbound with
  | [] => state
  | call :: rest =>
    let taken := { state with outbound := rest }
    if (state.calls call).stage = .ended then taken
    else
      let sent := { taken with pending := Function.update state.pending (requestId call) call }
      match sending with
      | .sent => sent
      | .unencodable error => taken.answer call (.failed error)
      | .broken error => sent.finish (.failed error)

def routeResponse (id : Nat) (result : Except Json Json) : Transport :=
  match state.pending id with
  | none => state
  | some call =>
    { state with pending := Function.update state.pending id none }.answer call
      (.response id result)

def step : TransportAction → Transport
  | .submit =>
    { state with submitted := state.submitted + 1 }.setStage state.submitted .sending
  | .enqueue call =>
    if (state.calls call).stage = .sending then
      if !state.running then state.setStage call .ended
      else if state.outbound.length < commandCapacity then
        { state with outbound := state.outbound ++ [call] }.setStage call .waiting
      else state
    else state
  | .poll call =>
    if (state.calls call).stage = .waiting ∧ (state.calls call).answers ≠ [] then
      state.setStage call .ended
    else state
  | .abandon call =>
    match (state.calls call).stage with
    | .sending => state.setStage call .ended
    | .waiting =>
      { state with cancellations := state.cancellations ++ [requestId call] }.setStage call .ended
    | _ => state
  | .cancellation =>
    match state.cancellations with
    | [] => state
    | id :: rest =>
      { state with cancellations := rest, pending := Function.update state.pending id none }
  | .outbound sending => if state.running then state.takeOutbound sending else state
  | .response id result => if state.running then state.routeResponse id result else state
  | .terminate error => if state.running then state.finish (.failed error) else state
  | .abort => state.finish .dropped

def run (actions : List TransportAction) : Transport :=
  actions.foldl step new

/-- What every action keeps while no id is drawn twice. -/
structure Sound (state : Transport) : Prop where
  fresh : ∀ call, state.submitted ≤ call → state.calls call = ⟨.idle, []⟩
  queued : state.outbound.Nodup
  unsent : ∀ call ∈ state.outbound, (state.calls call).answers = [] ∧
    ((state.calls call).stage = .waiting ∨ (state.calls call).stage = .ended) ∧
      ∀ id, state.pending id ≠ some call
  pending : ∀ id call, state.pending id = some call → id = requestId call ∧
    (state.calls call).answers = [] ∧
      ((state.calls call).stage = .waiting ∨
        (state.calls call).stage = .ended ∧ id ∈ state.cancellations)
  cancelled : ∀ id ∈ state.cancellations, ∃ call, id = requestId call ∧
    (state.calls call).stage = .ended
  silent : ∀ call, (state.calls call).stage = .sending → (state.calls call).answers = []
  known : ∀ call, (state.calls call).stage = .waiting → (state.calls call).answers = [] →
    call ∈ state.outbound ∨ state.pending (requestId call) = some call
  once : ∀ call, (state.calls call).answers.length ≤ 1
  own : ∀ call id result, .response id result ∈ (state.calls call).answers → id = requestId call
  stopped : state.running = false → state.outbound = [] ∧ ∀ id, state.pending id = none

variable {state : Transport}

theorem Sound.requestId_inj (sound : state.Sound) (small : state.submitted ≤ 2 ^ 64)
    {first second : Nat} (begun : (state.calls first).stage ≠ .idle)
    (begun' : (state.calls second).stage ≠ .idle) (same : requestId first = requestId second) :
    first = second := by
  have inside : ∀ {call}, (state.calls call).stage ≠ .idle → call < state.submitted := by
    intro call begun
    by_contra outside
    exact begun (by rw [sound.fresh call (not_lt.mp outside)])
  have first := inside begun
  have second := inside begun'
  unfold requestId at same
  omega

theorem Sound.submit (sound : state.Sound) : (state.step .submit).Sound := by
  have new := sound.fresh state.submitted (le_refl _)
  cases sound
  constructor <;> simp only [step, setStage, Function.update_apply] <;> grind

theorem Sound.setStage_ended (sound : state.Sound) {call : Nat}
    (begun : (state.calls call).stage ≠ .idle)
    (noted : (state.calls call).stage = .waiting → (state.calls call).answers = [] →
      requestId call ∈ state.cancellations) : (state.setStage call .ended).Sound := by
  cases sound
  constructor <;> simp only [setStage, Function.update_apply] <;> grind

theorem Sound.enqueue (sound : state.Sound) (call : Nat) : (state.step (.enqueue call)).Sound := by
  simp only [step]
  split_ifs with sending
  · exact sound.setStage_ended (by simp [sending]) (by simp [sending])
  · cases sound
    constructor <;> simp only [setStage, Function.update_apply] <;> grind
  · exact sound
  · exact sound

theorem Sound.poll (sound : state.Sound) (call : Nat) : (state.step (.poll call)).Sound := by
  simp only [step]
  split_ifs with ready
  · exact sound.setStage_ended (by simp [ready.1]) fun _ none => absurd none ready.2
  · exact sound

theorem Sound.abandon (sound : state.Sound) (call : Nat) : (state.step (.abandon call)).Sound := by
  simp only [step]
  split
  next sending => exact sound.setStage_ended (by simp [sending]) (by simp [sending])
  next waiting =>
    cases sound
    constructor <;> simp only [setStage, Function.update_apply] <;> grind
  next => exact sound

theorem Sound.cancellation (sound : state.Sound) (small : state.submitted ≤ 2 ^ 64) :
    (state.step .cancellation).Sound := by
  simp only [step]
  split
  next => exact sound
  next id rest queue =>
    -- the only caller with this id has ended, so that no waiting call is forgotten
    have inj := @Sound.requestId_inj _ sound small
    cases sound
    constructor <;> simp only [Function.update_apply] <;> grind

theorem Sound.routeResponse (sound : state.Sound) (id : Nat) (result : Except Json Json) :
    (state.routeResponse id result).Sound := by
  unfold Transport.routeResponse
  split
  next => exact sound
  next call found =>
    cases sound
    constructor <;> simp only [answer, Function.update_apply] <;> grind

theorem Sound.finish (sound : state.Sound) {last : Reply}
    (fails : ∀ id result, last ≠ .response id result) : (state.finish last).Sound := by
  cases sound
  constructor <;> simp only [Transport.finish] <;> grind

theorem Sound.takeOutbound (sound : state.Sound) (small : state.submitted ≤ 2 ^ 64)
    (sending : Sending) : (state.takeOutbound sending).Sound := by
  unfold Transport.takeOutbound
  split
  next => exact sound
  next call rest queue =>
    have inj := @Sound.requestId_inj _ sound small
    dsimp only
    split_ifs with ended
    · cases sound
      constructor <;> simp only <;> grind
    -- no pending command has the id of this one, so that none is replaced
    · have sent : Sound { state with
          outbound := rest
          pending := Function.update state.pending (requestId call) call } := by
        cases sound
        constructor <;> simp only [Function.update_apply] <;> grind
      cases sending with
      | sent => exact sent
      | broken error => exact sent.finish (by simp)
      | unencodable error =>
        cases sound
        constructor <;> simp only [answer, Function.update_apply] <;> grind

theorem Sound.step (sound : state.Sound) (small : state.submitted ≤ 2 ^ 64)
    (action : TransportAction) : (state.step action).Sound := by
  cases action with
  | submit => exact sound.submit
  | enqueue call => exact sound.enqueue call
  | poll call => exact sound.poll call
  | abandon call => exact sound.abandon call
  | cancellation => exact sound.cancellation small
  | abort => exact sound.finish (by simp)
  | outbound sending =>
    simp only [Transport.step]
    split_ifs
    · exact sound.takeOutbound small sending
    · exact sound
  | response id result =>
    simp only [Transport.step]
    split_ifs
    · exact sound.routeResponse id result
    · exact sound
  | terminate error =>
    simp only [Transport.step]
    split_ifs
    · exact sound.finish (by simp)
    · exact sound

theorem submitted_le_step (action : TransportAction) :
    state.submitted ≤ (state.step action).submitted := by
  cases action <;> grind [Transport.step, setStage, Transport.takeOutbound,
    Transport.routeResponse, answer, Transport.finish]

theorem sound_run {actions : List TransportAction} (few : (run actions).submitted ≤ 2 ^ 64) :
    (run actions).Sound := by
  induction actions using reverseRecOn with
  | nil => constructor <;> simp [run, new]
  | append_singleton actions action ih =>
    rw [run, foldl_append] at few ⊢
    have fewer := (submitted_le_step action).trans few
    exact (ih fewer).step fewer action

/-- A command is answered once, by the response with its id, and by that response alone. -/
theorem answers_own_command {actions : List TransportAction}
    (few : (run actions).submitted ≤ 2 ^ 64) (call : Nat) :
    ((run actions).calls call).answers.length ≤ 1 ∧
      (∀ id result, .response id result ∈ ((run actions).calls call).answers →
        id = requestId call) ∧
      ∀ id result, id ≠ requestId call →
        ((run actions).step (.response id result)).calls call = (run actions).calls call := by
  have sound := sound_run few
  refine ⟨sound.once call, sound.own call, fun id result other => ?_⟩
  simp only [Transport.step, Transport.routeResponse]
  split_ifs
  · split
    next => rfl
    next addressee found =>
      have same := (sound.pending id addressee found).1
      exact Function.update_of_ne (by rintro rfl; exact other same) _ _
  · rfl

theorem answers_own_command_twice : ((run [.submit, .enqueue 0, .outbound .sent,
    .response 1 (.ok .null), .response 1 (.ok .null)]).calls 0).answers.length ≤ 1 :=
  (answers_own_command (by decide) 0).1

/-- The task still knows whoever waits for an answer, and keeps nothing for a caller that left
once the cancellations are drained. -/
theorem no_command_lost {actions : List TransportAction}
    (few : (run actions).submitted ≤ 2 ^ 64) :
    (∀ call, ((run actions).calls call).stage = .waiting →
      ((run actions).calls call).answers = [] → (run actions).running = true ∧
        (call ∈ (run actions).outbound ∨ (run actions).pending (requestId call) = some call)) ∧
      ((run actions).cancellations = [] → ∀ id call, (run actions).pending id = some call →
        ((run actions).calls call).stage = .waiting) := by
  have sound := sound_run few
  constructor
  · intro call waiting unanswered
    have known := sound.known call waiting unanswered
    refine ⟨?_, known⟩
    by_contra ended
    obtain ⟨noneQueued, nonePending⟩ := sound.stopped (Bool.not_eq_true _ ▸ ended)
    simp [noneQueued, nonePending] at known
  · intro drained id call found
    have stage := (sound.pending id call found).2.2
    simpa [drained] using stage

theorem no_command_lost_sent : (run [.submit, .enqueue 0, .outbound .sent]).running = true :=
  ((no_command_lost (by decide)).1 0 rfl rfl).1

end Transport
end Offprint.Chromium
