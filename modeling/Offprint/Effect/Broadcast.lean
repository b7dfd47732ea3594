import Mathlib.Data.List.Basic
import Mathlib.Data.List.TakeDrop

/-!
# Bounded histories

Two ways a history of messages is kept within a bound: a ring that drops its
oldest element, and a broadcast channel whose receivers are moved forward when
they fall too far behind.
-/

namespace Offprint.Effect

open List

/-! ## Rings -/

/-- Append to a ring that holds at most `capacity` elements. -/
def pushRing {α : Type} (capacity : Nat) (ring : List α) (element : α) : List α :=
  (if ring.length = capacity then ring.tail else ring) ++ [element]

/-- The elements of a history that a ring still holds. -/
def newest {α : Type} (capacity : Nat) (history : List α) : List α :=
  history.drop (history.length - capacity)

@[simp]
theorem newest_nil {α : Type} (capacity : Nat) : newest capacity ([] : List α) = [] := by
  simp [newest]

theorem pushRing_newest {α : Type} {capacity : Nat} (positive : 0 < capacity) (history : List α)
    (element : α) :
    pushRing capacity (newest capacity history) element =
      newest capacity (history ++ [element]) := by
  unfold pushRing newest
  have heldLength : (history.drop (history.length - capacity)).length =
      min history.length capacity := by
    rw [length_drop]
    omega
  rw [heldLength, length_append, length_singleton,
    drop_append_of_le_length (by omega)]
  by_cases full : capacity ≤ history.length
  · rw [if_pos (by omega), tail_drop]
    congr 2
    omega
  · rw [if_neg (by omega)]
    congr 2
    omega

theorem exists_of_not_mem_newest {α : Type} {capacity : Nat} {history : List α} {element : α}
    (member : element ∈ history) (dropped : element ∉ newest capacity history) :
    ∃ before after, history = before ++ after ∧ element ∈ before ∧ after.length = capacity := by
  have split := take_append_drop (history.length - capacity) history
  have early : element ∈ history.take (history.length - capacity) := by
    rw [← split, mem_append] at member
    exact member.resolve_right dropped
  have nonempty : 0 < (history.take (history.length - capacity)).length :=
    length_pos_of_mem early
  refine ⟨_, _, split.symm, early, ?_⟩
  rw [length_take] at nonempty
  rw [length_drop]
  omega

/-! ## Broadcast channels -/

/-- A channel, as everything that was ever sent on it. -/
structure Broadcast (Message : Type) where
  capacity : Nat
  sent : List Message

/-- What a receiver gets: nothing yet, the next message, or how many it missed. -/
inductive Received (Message : Type) where
  | empty
  | message (content : Message)
  | lagged (missed : Nat)

namespace Broadcast

variable {Message : Type} (channel : Broadcast Message)

def send (content : Message) : Broadcast Message :=
  { channel with sent := channel.sent ++ [content] }

/-- A new receiver starts behind everything sent so far. -/
def subscribe : Nat :=
  channel.sent.length

/-- Receive from position `next`.  A receiver whose message was overwritten is
moved to the oldest one the channel still holds. -/
def recv (next : Nat) : Received Message × Nat :=
  if channel.capacity < channel.sent.length - next then
    (.lagged (channel.sent.length - channel.capacity - next),
      channel.sent.length - channel.capacity)
  else
    match channel.sent[next]? with
    | some content => (.message content, next + 1)
    | none => (.empty, next)

/-- The three answers of a channel with the position they leave the receiver at. -/
inductive Receives (channel : Broadcast Message) (next : Nat) :
    Received Message × Nat → Prop
  | empty : channel.sent.length ≤ next → Receives channel next (.empty, next)
  | message (content : Message) : channel.sent[next]? = some content →
      Receives channel next (.message content, next + 1)
  | lagged (missed later : Nat) : next < later → later ≤ channel.sent.length →
      Receives channel next (.lagged missed, later)

theorem receives_recv (next : Nat) : channel.Receives next (channel.recv next) := by
  unfold recv
  split
  case isTrue behind =>
    apply Receives.lagged <;> omega
  case isFalse near =>
    split
    case h_1 content found => exact .message content found
    case h_2 missing => exact .empty (List.getElem?_eq_none_iff.mp missing)

end Broadcast
end Offprint.Effect
