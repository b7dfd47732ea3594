import Offprint.Scheduler.Job

/-!
# Checkpoint leases

A batch or a crawl writes its resume checkpoint under a lease on the destination.
The registry knows the gates of the destinations only weakly: a gate lives as
long as a call waits for it or holds its guard, and dies between two owners.
-/

namespace Offprint.Scheduler

open Model List

namespace Checkpoint

/-- Where a call of `acquire` stands.  A lease counts its references beyond the
first, those of detached blocking writes included; the token of the runtime goes
last. -/
inductive Phase where
  | waiting
  | locked
  | leased (shares : Nat)
  | releasing (answer : Option OffprintError)
  | ended (answer : Option OffprintError)

namespace Phase

def holdsGate : Phase → Bool
  | waiting | locked | leased _ => true
  | _ => false

def holdsGuard : Phase → Bool
  | locked | leased _ => true
  | _ => false

def isLeased : Phase → Bool
  | leased _ => true
  | _ => false

def isEnded : Phase → Bool
  | ended _ => true
  | _ => false

end Phase

/-- The steps of one call and of the lease it returns. -/
inductive Move where
  | lock
  | cancel
  | check
  | clone
  | drop
  | untrack

def Phase.move (closed guarded : Bool) : Move → Phase → Phase
  | .lock, waiting => if guarded then waiting else locked
  | .cancel, waiting => releasing (some (cancelledError "Offprint operation was cancelled"))
  | .check, locked => if closed then releasing (some closedError) else leased 0
  | .clone, leased shares => leased (shares + 1)
  | .drop, leased (shares + 1) => leased shares
  | .drop, leased 0 => releasing none
  | .untrack, releasing answer => ended answer
  | _, phase => phase

variable (Destination : Type)

structure Call where
  destination : Destination
  gate : Nat
  phase : Phase

inductive Action where
  | acquire (destination : Destination)
  | move (index : Nat) (move : Move)
  | closeAdmission

end Checkpoint

open Checkpoint

/-- The registry, with the gates by their numbers and every call so far. -/
structure CheckpointRegistry (Destination : Type) where
  closed : Bool
  destinations : Destination → Option Nat
  gates : Nat
  calls : List (Call Destination)

namespace CheckpointRegistry

variable {Destination : Type}

def new : CheckpointRegistry Destination :=
  ⟨false, fun _ => none, 0, []⟩

variable (registry : CheckpointRegistry Destination)

/-- A weak reference to the gate can be upgraded. -/
def alive (gate : Nat) : Bool :=
  registry.calls.any fun call => call.phase.holdsGate && call.gate == gate

def guarded (gate : Nat) : Bool :=
  registry.calls.any fun call => call.phase.holdsGuard && call.gate == gate

def step [DecidableEq Destination] (registry : CheckpointRegistry Destination) :
    Checkpoint.Action Destination → CheckpointRegistry Destination
  | .acquire destination =>
    if registry.closed then registry
    else
      let retained := fun other => (registry.destinations other).filter registry.alive
      match retained destination with
      | some gate =>
        { registry with
          destinations := retained
          calls := registry.calls ++ [⟨destination, gate, .waiting⟩] }
      | none =>
        { registry with
          destinations := Function.update retained destination (some registry.gates)
          gates := registry.gates + 1
          calls := registry.calls ++ [⟨destination, registry.gates, .waiting⟩] }
  | .move index move =>
    { registry with
      calls := registry.calls.modify index fun call =>
        { call with phase := call.phase.move registry.closed (registry.guarded call.gate) move } }
  | .closeAdmission => { registry with closed := true }

def run [DecidableEq Destination] (actions : List (Checkpoint.Action Destination)) :
    CheckpointRegistry Destination :=
  actions.foldl step new

/-- The destination of a lease that is still alive. -/
def lease? (index : Nat) : Option Destination :=
  (registry.calls[index]?.filter fun call => call.phase.isLeased).map Call.destination

/-- The tracker is closed and every token is gone. -/
def waitReturns : Bool :=
  registry.closed && registry.calls.all fun call => call.phase.isEnded

/-! ## One gate per destination -/

theorem phase_move (closed guarded : Bool) (move : Move) (phase : Phase) :
    ((phase.move closed guarded move).holdsGate = true → phase.holdsGate = true) ∧
      ((phase.move closed guarded move).holdsGuard = true →
        phase.holdsGuard = true ∨ guarded = false) ∧
      ((phase.move closed guarded move).isLeased = true → phase.isLeased = true ∨ closed = false) ∧
      (phase.isEnded = true → (phase.move closed guarded move).isEnded = true) := by
  fun_cases Phase.move <;> cases closed <;> cases guarded <;> simp_all [Phase.holdsGate,
    Phase.holdsGuard, Phase.isLeased, Phase.isEnded]

structure Sound (registry : CheckpointRegistry Destination) : Prop where
  known : ∀ call ∈ registry.calls, call.phase.holdsGate = true →
    registry.destinations call.destination = some call.gate
  exclusive : ∀ (i j : Nat) (left right : Call Destination), registry.calls[i]? = some left →
    registry.calls[j]? = some right → left.phase.holdsGuard = true →
    right.phase.holdsGuard = true → left.gate = right.gate → i = j

variable {registry : CheckpointRegistry Destination}

theorem exists_leased {i : Nat} {destination : Destination}
    (found : registry.lease? i = some destination) :
    ∃ call, registry.calls[i]? = some call ∧ call.phase.isLeased = true ∧
      call.destination = destination := by
  obtain ⟨call, isCall, rfl⟩ := Option.map_eq_some_iff.mp found
  obtain ⟨isCall, leased⟩ := Option.filter_eq_some_iff.mp isCall
  exact ⟨call, isCall, leased, rfl⟩

theorem lease?_of_waitReturns (returns : registry.waitReturns = true) (i : Nat) :
    registry.lease? i = none := by
  have ended := all_eq_true.mp (Bool.and_eq_true_iff.mp returns).2
  cases found : registry.lease? i with
  | none => rfl
  | some destination =>
    obtain ⟨call, isCall, leased, -⟩ := exists_leased found
    have gone := ended call (mem_of_getElem? isCall)
    cases phase : call.phase <;> simp_all [Phase.isLeased, Phase.isEnded]

/-- A call that starts waiting holds no guard, so only its gate matters. -/
theorem Sound.acquired (sound : registry.Sound) {destinations : Destination → Option Nat}
    {destination : Destination} {gate : Nat} (entered : destinations destination = some gate)
    (kept : ∀ call ∈ registry.calls, call.phase.holdsGate = true →
      destinations call.destination = some call.gate) (gates : Nat) :
    Sound { registry with
      destinations, gates, calls := registry.calls ++ [⟨destination, gate, .waiting⟩] } := by
  have old {i : Nat} {call : Call Destination}
      (found : (registry.calls ++ [⟨destination, gate, .waiting⟩])[i]? = some call)
      (guards : call.phase.holdsGuard = true) : registry.calls[i]? = some call := by
    rw [getElem?_append] at found
    split at found
    · exact found
    · obtain rfl := mem_singleton.mp (mem_of_getElem? found)
      cases guards
  constructor
  · intro call member holds
    rcases mem_append.mp member with earlier | new
    · exact kept call earlier holds
    · obtain rfl := mem_singleton.mp new
      exact entered
  · intro i j left right isLeft isRight guardsLeft guardsRight
    exact sound.exclusive i j left right (old isLeft guardsLeft) (old isRight guardsRight)
      guardsLeft guardsRight

variable [DecidableEq Destination] (action : Checkpoint.Action Destination)
  (actions : List (Checkpoint.Action Destination))

theorem getElem?_move {index i : Nat} {move : Move} {call : Call Destination}
    (found : (registry.step (.move index move)).calls[i]? = some call) :
    registry.calls[i]? = some call ∨ index = i ∧ ∃ before, registry.calls[i]? = some before ∧
      call = { before with
        phase := before.phase.move registry.closed (registry.guarded before.gate) move } := by
  simp only [step, getElem?_modify, Option.map_eq_map, Option.map_eq_some_iff] at found
  obtain ⟨before, isBefore, rfl⟩ := found
  split
  · next here => exact .inr ⟨here, before, isBefore, rfl⟩
  · exact .inl isBefore

theorem Sound.moved (sound : registry.Sound) (index : Nat) (move : Move) :
    (registry.step (.move index move)).Sound := by
  have guarded {j : Nat} {other : Call Destination} (found : registry.calls[j]? = some other)
      (guards : other.phase.holdsGuard = true) : registry.guarded other.gate = true :=
    any_eq_true.mpr ⟨other, mem_of_getElem? found, by simp [guards]⟩
  constructor
  · intro call member holds
    obtain ⟨i, found⟩ := mem_iff_getElem?.mp member
    rcases getElem?_move found with old | ⟨-, before, isBefore, rfl⟩
    · exact sound.known call (mem_of_getElem? old) holds
    · exact sound.known before (mem_of_getElem? isBefore) ((phase_move ..).1 holds)
  · intro i j left right isLeft isRight guardsLeft guardsRight same
    rcases getElem?_move isLeft with oldLeft | ⟨rfl, before, isBefore, rfl⟩ <;>
      rcases getElem?_move isRight with oldRight | ⟨here, other, isOther, rfl⟩
    · exact sound.exclusive i j left right oldLeft oldRight guardsLeft guardsRight same
    · rcases (phase_move ..).2.1 guardsRight with guards | free
      · exact sound.exclusive i j left other oldLeft isOther guardsLeft guards same
      · rw [← show left.gate = other.gate from same, guarded oldLeft guardsLeft] at free
        cases free
    · rcases (phase_move ..).2.1 guardsLeft with guards | free
      · exact sound.exclusive index j before right isBefore oldRight guards guardsRight same
      · rw [show before.gate = right.gate from same, guarded oldRight guardsRight] at free
        cases free
    · exact here

theorem Sound.step (sound : registry.Sound) : (registry.step action).Sound := by
  cases action with
  | acquire destination =>
    have retained : ∀ call ∈ registry.calls, call.phase.holdsGate = true →
        (registry.destinations call.destination).filter registry.alive = some call.gate := by
      intro call member holds
      have alive : registry.alive call.gate = true :=
        any_eq_true.mpr ⟨call, member, by simp [holds]⟩
      simp [sound.known call member holds, alive]
    simp only [CheckpointRegistry.step]
    split
    · exact sound
    · split
      · next found => exact sound.acquired found retained _
      · next absent =>
        apply sound.acquired (Function.update_self ..)
        intro call member holds
        have found := retained call member holds
        rw [Function.update_of_ne, found]
        rintro rfl
        rw [absent] at found
        cases found
  | move index move => exact sound.moved index move
  | closeAdmission => exact ⟨sound.known, sound.exclusive⟩

theorem sound_run : (run actions).Sound :=
  List.foldlRecOn actions _ ⟨nofun, nofun⟩ fun _ sound action _ => sound.step action

/-! ## Behind the closing -/

theorem closed_step (closed : registry.closed = true) : (registry.step action).closed = true := by
  cases action <;> simp [step, closed]

variable {action} in
theorem lease?_step {i : Nat} {destination : Destination} (closed : registry.closed = true)
    (found : (registry.step action).lease? i = some destination) :
    registry.lease? i = some destination := by
  cases action with
  | acquire other => simpa [step, closed] using found
  | closeAdmission => exact found
  | move index move =>
    obtain ⟨call, isCall, leased, rfl⟩ := exists_leased found
    rcases getElem?_move isCall with old | ⟨-, before, isBefore, rfl⟩
    · simp [lease?, old, leased]
    · rcases (phase_move ..).2.2.1 leased with leased | isOpen
      · simp [lease?, isBefore, leased]
      · rw [closed] at isOpen
        cases isOpen

theorem waitReturns_step (returns : registry.waitReturns = true) :
    (registry.step action).waitReturns = true := by
  obtain ⟨closed, ended⟩ := Bool.and_eq_true_iff.mp returns
  refine Bool.and_eq_true_iff.mpr ⟨closed_step action closed, ?_⟩
  cases action with
  | acquire destination => simpa [step, closed] using ended
  | closeAdmission => exact ended
  | move index move =>
    rw [all_eq_true] at ended ⊢
    intro call member
    obtain ⟨i, found⟩ := mem_iff_getElem?.mp member
    rcases getElem?_move found with old | ⟨-, before, isBefore, rfl⟩
    · exact ended call (mem_of_getElem? old)
    · exact (phase_move ..).2.2.2 (ended before (mem_of_getElem? isBefore))

/-- One writer per destination at a time, and none behind the closing or the wait
for it. -/
structure OneWriter : Prop where
  exclusive : ∀ i j destination, (run actions).lease? i = some destination →
    (run actions).lease? j = some destination → i = j
  sealed : (run actions).closed = true → ∀ more i destination,
    (run (actions ++ more)).lease? i = some destination → (run actions).lease? i = some destination
  released : (run actions).waitReturns = true → ∀ more i, (run (actions ++ more)).lease? i = none

/-- Whatever the interleaving of calls, writes, drops and the closing. -/
theorem checkpoint_one_writer : OneWriter actions := by
  have sound := sound_run actions
  constructor
  · intro i j destination isLeft isRight
    obtain ⟨left, foundLeft, leasedLeft, rfl⟩ := exists_leased isLeft
    obtain ⟨right, foundRight, leasedRight, same⟩ := exists_leased isRight
    have guards {call : Call Destination} (leased : call.phase.isLeased = true) :
        call.phase.holdsGuard = true ∧ call.phase.holdsGate = true := by
      cases phase : call.phase <;> simp_all [Phase.isLeased, Phase.holdsGuard, Phase.holdsGate]
    have knownLeft := sound.known left (List.mem_of_getElem? foundLeft) (guards leasedLeft).2
    have knownRight := sound.known right (List.mem_of_getElem? foundRight) (guards leasedRight).2
    rw [same, knownLeft] at knownRight
    exact sound.exclusive i j left right foundLeft foundRight (guards leasedLeft).1
      (guards leasedRight).1 (Option.some.inj knownRight)
  · intro shut more i destination found
    rw [run, List.foldl_append] at found
    refine (List.foldlRecOn (motive := fun later => closed later = true ∧
      (lease? later i = some destination → (run actions).lease? i = some destination))
      more _ ⟨shut, id⟩ ?_).2 found
    rintro later ⟨shut, back⟩ action -
    exact ⟨closed_step action shut, fun found => back (lease?_step shut found)⟩
  · intro returns more i
    apply lease?_of_waitReturns
    rw [run, List.foldl_append]
    exact List.foldlRecOn (motive := fun later => waitReturns later = true) more _ returns
      fun _ returns action _ => waitReturns_step action returns

end CheckpointRegistry
end Offprint.Scheduler
