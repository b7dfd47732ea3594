import Mathlib.Algebra.GroupWithZero.Nat
import Mathlib.Data.List.Basic

/-!
# The budget of a snapshot

A page and the documents of its inline frames are collected under one budget of bytes, nodes and
frames.  A document reserves its own size before it is copied, may reserve more while it is
copied, and settles with what it turned out to need.  The bytes of its frames were settled by the
frames themselves, so that only the rest is charged to the document.
-/

namespace Offprint.Collector

inductive SnapshotError where
  | frameDepth (attempted limit : Nat)
  | frameLimit (attempted limit : Nat)
  | nodeLimit (attempted : Nat) (limit : Int)
  | payloadLimit (limit attempted : Int)
  | typeError (message : String)
  | page
  deriving Repr, DecidableEq

/-- The errors that end the whole snapshot. -/
def SnapshotError.isLimit : SnapshotError → Bool
  | .typeError _ => false
  | .page => false
  | _ => true

structure RecursiveSnapshotBudget where
  maximumFrameDepth : Nat
  maximumFrames : Nat
  maximumPayloadBytes : Nat
  consumedFrames : Nat
  remainingFrames : Int
  remainingNodes : Int
  remainingPayloadBytes : Int
  deriving Repr, DecidableEq

structure SnapshotReservation where
  allocatedPayloadBytes : Int
  nestedFrames : Nat
  nestedNodes : Nat
  nestedPayloadBytes : Nat
  nodes : Nat
  sourcePayloadBytes : Nat
  deriving Repr, DecidableEq

inductive PreflightResult where
  | ok (nodes payloadBytes : Nat)
  | nodes (attempted : Nat)
  | payload (attempted : Int)
  deriving Repr, DecidableEq

/-- Measure the nodes of a document, given by the bytes each of them takes. -/
def preflightDocumentWithinLimits (maximumNodes maximumPayloadBytes : Int) :
    Nat → Nat → List Nat → PreflightResult
  | nodes, payloadBytes, [] => .ok nodes payloadBytes
  | nodes, payloadBytes, size :: rest =>
    if (nodes + 1 : Int) > maximumNodes then .nodes (nodes + 1)
    else if (size : Int) > maximumPayloadBytes - payloadBytes then
      .payload (maximumPayloadBytes + 1)
    else
      preflightDocumentWithinLimits maximumNodes maximumPayloadBytes (nodes + 1)
        (payloadBytes + size) rest

def maximumSafeInteger : Nat := 2 ^ 53 - 1

namespace RecursiveSnapshotBudget

def new (maximumNodes maximumPayloadBytes maximumFrames maximumFrameDepth : Nat) :
    RecursiveSnapshotBudget where
  maximumFrameDepth := maximumFrameDepth
  maximumFrames := maximumFrames
  maximumPayloadBytes := maximumPayloadBytes
  consumedFrames := 0
  remainingFrames := maximumFrames
  remainingNodes := maximumNodes
  remainingPayloadBytes := maximumPayloadBytes

variable (budget : RecursiveSnapshotBudget)

/-- What the request would have brought the whole snapshot to. -/
def payloadError (available attempted : Int) : SnapshotError :=
  .payloadLimit budget.maximumPayloadBytes (budget.maximumPayloadBytes - available + attempted)

def reserveDocument (sizes : List Nat) (frameDepth : Nat) :
    Except SnapshotError (RecursiveSnapshotBudget × SnapshotReservation) :=
  if frameDepth > budget.maximumFrameDepth then
    .error (.frameDepth frameDepth budget.maximumFrameDepth)
  else if budget.remainingFrames < 1 then
    .error (.frameLimit (budget.consumedFrames + 1) budget.maximumFrames)
  else
    match preflightDocumentWithinLimits budget.remainingNodes budget.remainingPayloadBytes 0 0
        sizes with
    | .nodes attempted => .error (.nodeLimit attempted budget.remainingNodes)
    | .payload attempted => .error (budget.payloadError budget.remainingPayloadBytes attempted)
    | .ok nodes payloadBytes =>
      .ok ({ budget with
          consumedFrames := budget.consumedFrames + 1
          remainingFrames := budget.remainingFrames - 1
          remainingNodes := budget.remainingNodes - nodes
          remainingPayloadBytes := budget.remainingPayloadBytes - payloadBytes },
        { allocatedPayloadBytes := 0
          nestedFrames := 0
          nestedNodes := 0
          nestedPayloadBytes := 0
          nodes := nodes
          sourcePayloadBytes := payloadBytes })

variable (reservation : SnapshotReservation)

def recordNestedSnapshot (payloadBytes nodes frames : Nat) : SnapshotReservation :=
  { reservation with
    nestedPayloadBytes := reservation.nestedPayloadBytes + payloadBytes
    nestedNodes := reservation.nestedNodes + nodes
    nestedFrames := reservation.nestedFrames + frames }

def maximumDocumentBytes : Int :=
  reservation.allocatedPayloadBytes + reservation.nestedPayloadBytes +
    reservation.sourcePayloadBytes + budget.remainingPayloadBytes

def reservePayloadAllocation (payloadBytes : Nat) :
    Except SnapshotError (RecursiveSnapshotBudget × SnapshotReservation) :=
  if payloadBytes > maximumSafeInteger then
    .error (.typeError "payloadBytes must be a non-negative safe integer")
  else if payloadBytes > budget.remainingPayloadBytes then
    .error (budget.payloadError budget.remainingPayloadBytes payloadBytes)
  else
    .ok ({ budget with remainingPayloadBytes := budget.remainingPayloadBytes - payloadBytes },
      { reservation with
        allocatedPayloadBytes := reservation.allocatedPayloadBytes + payloadBytes })

def settlePayloadAllocation (reservedBytes actualBytes : Nat) :
    Except SnapshotError (RecursiveSnapshotBudget × SnapshotReservation) :=
  if reservedBytes > maximumSafeInteger ∨ actualBytes > maximumSafeInteger ∨
      reservedBytes > reservation.allocatedPayloadBytes then
    .error (.typeError "payload allocation settlement is invalid")
  else if actualBytes > reservedBytes then
    budget.reservePayloadAllocation reservation (actualBytes - reservedBytes)
  else
    let released : Int := reservedBytes - actualBytes
    .ok ({ budget with remainingPayloadBytes := budget.remainingPayloadBytes + released },
      { reservation with
        allocatedPayloadBytes := reservation.allocatedPayloadBytes - released })

def commitDocument (payloadBytes : Nat) :
    Except SnapshotError (RecursiveSnapshotBudget × SnapshotReservation) :=
  let documentPayload : Int := payloadBytes - reservation.nestedPayloadBytes
  let ownPayloadBytes := if documentPayload > 0 then documentPayload else 0
  let adjustment := ownPayloadBytes - reservation.sourcePayloadBytes
  let available := budget.remainingPayloadBytes + reservation.allocatedPayloadBytes
  if adjustment > available then .error (budget.payloadError available adjustment)
  else
    .ok ({ budget with remainingPayloadBytes := available - adjustment },
      { reservation with allocatedPayloadBytes := 0 })

end RecursiveSnapshotBudget

section Calls

/-- A method of the budget, on the reservation of a document by its number. -/
inductive BudgetCall where
  | reserveDocument (sizes : List Nat) (frameDepth : Nat)
  | recordNestedSnapshot (document payloadBytes nodes frames : Nat)
  | reservePayloadAllocation (document payloadBytes : Nat)
  | settlePayloadAllocation (document reservedBytes actualBytes : Nat)
  | commitDocument (document payloadBytes : Nat)
  deriving Repr, DecidableEq

structure BudgetState where
  budget : RecursiveSnapshotBudget
  reservations : List SnapshotReservation
  deriving Repr, DecidableEq

/-- A call on a known reservation.  A call that throws changes nothing. -/
def BudgetState.update (state : BudgetState) (document : Nat)
    (method : SnapshotReservation →
      Except SnapshotError (RecursiveSnapshotBudget × SnapshotReservation)) : BudgetState :=
  match state.reservations[document]? with
  | none => state
  | some reservation =>
    match method reservation with
    | .error _ => state
    | .ok (budget, reservation) => ⟨budget, state.reservations.set document reservation⟩

def BudgetState.perform (state : BudgetState) : BudgetCall → BudgetState
  | .reserveDocument sizes frameDepth =>
    match state.budget.reserveDocument sizes frameDepth with
    | .error _ => state
    | .ok (budget, reservation) => ⟨budget, state.reservations ++ [reservation]⟩
  | .recordNestedSnapshot document payloadBytes nodes frames =>
    state.update document fun reservation =>
      .ok (state.budget, RecursiveSnapshotBudget.recordNestedSnapshot reservation payloadBytes
        nodes frames)
  | .reservePayloadAllocation document payloadBytes =>
    state.update document fun reservation =>
      state.budget.reservePayloadAllocation reservation payloadBytes
  | .settlePayloadAllocation document reservedBytes actualBytes =>
    state.update document fun reservation =>
      state.budget.settlePayloadAllocation reservation reservedBytes actualBytes
  | .commitDocument document payloadBytes =>
    state.update document fun reservation =>
      state.budget.commitDocument reservation payloadBytes

end Calls

section Documents

structure SnapshotResult where
  frames : Nat
  nodes : Nat
  payloadBytes : Nat
  subtreeNodes : Nat
  deriving Repr, DecidableEq

mutual

/-- A document that is collected: the bytes of its nodes, what happens while it is copied, and
the bytes of its serialization, if the page throws no error of its own. -/
inductive InlineDocument where
  | mk (sizes : List Nat) (events : List SnapshotEvent) (serializedBytes : Option Nat)

inductive SnapshotEvent where
  | allocate (payloadBytes : Nat)
  | settle (reservedBytes actualBytes : Nat)
  | frame (document : InlineDocument)

end

mutual

def snapshotDocument (budget : RecursiveSnapshotBudget) (frameDepth : Nat) :
    InlineDocument → RecursiveSnapshotBudget × Except SnapshotError SnapshotResult
  | .mk sizes events serializedBytes =>
    match budget.reserveDocument sizes frameDepth with
    | .error problem => (budget, .error problem)
    | .ok (budget, reservation) =>
      match copyEvents budget frameDepth reservation events with
      | (budget, .error problem) => (budget, .error problem)
      | (budget, .ok reservation) =>
        match serializedBytes with
        | none => (budget, .error .page)
        | some payloadBytes =>
          if payloadBytes > budget.maximumDocumentBytes reservation then
            (budget, .error (.payloadLimit budget.maximumPayloadBytes
              (budget.maximumDocumentBytes reservation + 1)))
          else
            match budget.commitDocument reservation payloadBytes with
            | .error problem => (budget, .error problem)
            | .ok (budget, reservation) =>
              (budget, .ok
                { frames := reservation.nestedFrames + 1
                  nodes := reservation.nodes
                  payloadBytes := payloadBytes
                  subtreeNodes := reservation.nodes + reservation.nestedNodes })

/-- What happens while a document is copied.  A frame whose collection fails without reaching a
limit is left to its own target. -/
def copyEvents (budget : RecursiveSnapshotBudget) (frameDepth : Nat)
    (reservation : SnapshotReservation) :
    List SnapshotEvent → RecursiveSnapshotBudget × Except SnapshotError SnapshotReservation
  | [] => (budget, .ok reservation)
  | .allocate payloadBytes :: rest =>
    match budget.reservePayloadAllocation reservation payloadBytes with
    | .error problem => (budget, .error problem)
    | .ok (budget, reservation) => copyEvents budget frameDepth reservation rest
  | .settle reservedBytes actualBytes :: rest =>
    match budget.settlePayloadAllocation reservation reservedBytes actualBytes with
    | .error problem => (budget, .error problem)
    | .ok (budget, reservation) => copyEvents budget frameDepth reservation rest
  | .frame document :: rest =>
    match snapshotDocument budget (frameDepth + 1) document with
    | (budget, .ok child) =>
      copyEvents budget frameDepth
        (RecursiveSnapshotBudget.recordNestedSnapshot reservation child.payloadBytes
          child.subtreeNodes child.frames) rest
    | (budget, .error problem) =>
      if problem.isLimit then (budget, .error problem)
      else copyEvents budget frameDepth reservation rest

end

end Documents

section Methods

structure Solvent (budget : RecursiveSnapshotBudget) : Prop where
  frames : 0 ≤ budget.remainingFrames
  nodes : 0 ≤ budget.remainingNodes
  payload : 0 ≤ budget.remainingPayloadBytes

variable {budget budget' : RecursiveSnapshotBudget} {reservation reservation' : SnapshotReservation}
  {payloadBytes : Nat}

theorem preflight_within {maximumNodes maximumPayloadBytes : Int} {sizes : List Nat}
    {nodes nodes' payloadBytes' : Nat} (fewNodes : nodes ≤ maximumNodes)
    (fewBytes : payloadBytes ≤ maximumPayloadBytes)
    (measured : preflightDocumentWithinLimits maximumNodes maximumPayloadBytes nodes payloadBytes
      sizes = .ok nodes' payloadBytes') :
    nodes' ≤ maximumNodes ∧ payloadBytes' ≤ maximumPayloadBytes := by
  induction sizes generalizing nodes payloadBytes with
  | nil =>
    cases measured
    exact ⟨fewNodes, fewBytes⟩
  | cons size rest ih =>
    unfold preflightDocumentWithinLimits at measured
    split at measured
    · cases measured
    split at measured
    · cases measured
    · apply ih _ _ measured <;> push_cast <;> omega

theorem reserveDocument_cases {sizes : List Nat} {frameDepth : Nat} (solvent : Solvent budget)
    (reserved : budget.reserveDocument sizes frameDepth = .ok (budget', reservation)) :
    1 ≤ budget.remainingFrames ∧ reservation.nodes ≤ budget.remainingNodes ∧
      reservation.sourcePayloadBytes ≤ budget.remainingPayloadBytes ∧
      budget' = { budget with
        consumedFrames := budget.consumedFrames + 1
        remainingFrames := budget.remainingFrames - 1
        remainingNodes := budget.remainingNodes - reservation.nodes
        remainingPayloadBytes :=
          budget.remainingPayloadBytes - reservation.sourcePayloadBytes } ∧
      reservation = ⟨0, 0, 0, 0, reservation.nodes, reservation.sourcePayloadBytes⟩ := by
  unfold RecursiveSnapshotBudget.reserveDocument at reserved
  split at reserved
  · cases reserved
  split at reserved
  · cases reserved
  next hasFrame =>
    split at reserved
    · cases reserved
    · cases reserved
    next nodes payloadBytes measured =>
      cases reserved
      have within := preflight_within solvent.nodes solvent.payload measured
      exact ⟨by omega, within.1, within.2, rfl, rfl⟩

/-- Bytes went from the budget to a reservation, or back. -/
def Moved (budget budget' : RecursiveSnapshotBudget)
    (reservation reservation' : SnapshotReservation) : Prop :=
  ∃ bytes : Int, bytes ≤ budget.remainingPayloadBytes ∧
    (0 ≤ reservation.allocatedPayloadBytes → 0 ≤ reservation.allocatedPayloadBytes + bytes) ∧
    budget' = { budget with remainingPayloadBytes := budget.remainingPayloadBytes - bytes } ∧
    reservation' = { reservation with
      allocatedPayloadBytes := reservation.allocatedPayloadBytes + bytes }

theorem moved_reservePayloadAllocation
    (reserved : budget.reservePayloadAllocation reservation payloadBytes =
      .ok (budget', reservation')) : Moved budget budget' reservation reservation' := by
  unfold RecursiveSnapshotBudget.reservePayloadAllocation at reserved
  split at reserved
  · cases reserved
  split at reserved
  · cases reserved
  · cases reserved
    exact ⟨payloadBytes, by omega, by omega, rfl, rfl⟩

theorem moved_settlePayloadAllocation {reservedBytes actualBytes : Nat} (solvent : Solvent budget)
    (settled : budget.settlePayloadAllocation reservation reservedBytes actualBytes =
      .ok (budget', reservation')) : Moved budget budget' reservation reservation' := by
  have payload := solvent.payload
  unfold RecursiveSnapshotBudget.settlePayloadAllocation at settled
  split at settled
  · cases settled
  next valid =>
  split at settled
  · exact moved_reservePayloadAllocation settled
  next notMore =>
    obtain ⟨rfl, rfl⟩ := settled
    refine ⟨actualBytes - reservedBytes, by omega, by omega, ?_, ?_⟩
    · congr 1
      omega
    · congr 1
      omega

theorem Moved.solvent (moved : Moved budget budget' reservation reservation')
    (solvent : Solvent budget) : Solvent budget' := by
  obtain ⟨bytes, covered, -, rfl, -⟩ := moved
  exact ⟨solvent.frames, solvent.nodes, by dsimp only; omega⟩

theorem commitDocument_cases
    (committed : budget.commitDocument reservation payloadBytes = .ok (budget', reservation')) :
    ∃ own : Int, 0 ≤ own ∧ payloadBytes ≤ own + reservation.nestedPayloadBytes ∧
      own ≤ budget.remainingPayloadBytes + reservation.allocatedPayloadBytes +
        reservation.sourcePayloadBytes ∧
      budget' = { budget with
        remainingPayloadBytes := budget.remainingPayloadBytes +
          reservation.allocatedPayloadBytes + reservation.sourcePayloadBytes - own } ∧
      reservation' = { reservation with allocatedPayloadBytes := 0 } := by
  unfold RecursiveSnapshotBudget.commitDocument at committed
  dsimp only at committed
  generalize owned : (if (payloadBytes : Int) - reservation.nestedPayloadBytes > 0 then
    (payloadBytes : Int) - reservation.nestedPayloadBytes else 0) = own at committed
  have clamped : 0 ≤ own ∧ payloadBytes ≤ own + reservation.nestedPayloadBytes := by
    split at owned <;> omega
  split at committed
  · cases committed
  next covered =>
    obtain ⟨rfl, rfl⟩ := committed
    refine ⟨own, clamped.1, clamped.2, by omega, ?_, rfl⟩
    congr 1
    omega

end Methods

section Calls

variable {state : BudgetState}

theorem solvent_update {document : Nat}
    {method : SnapshotReservation →
      Except SnapshotError (RecursiveSnapshotBudget × SnapshotReservation)}
    (solvent : Solvent state.budget)
    (keeps : ∀ reservation budget' reservation',
      method reservation = .ok (budget', reservation') → Solvent budget') :
    Solvent (state.update document method).budget := by
  unfold BudgetState.update
  split
  · exact solvent
  next reservation _ =>
    split
    · exact solvent
    next budget reservation' returned => exact keeps reservation budget reservation' returned

theorem solvent_perform (solvent : Solvent state.budget) (call : BudgetCall) :
    Solvent (state.perform call).budget := by
  have frames := solvent.frames
  have nodes := solvent.nodes
  cases call with
  | reserveDocument sizes frameDepth =>
    unfold BudgetState.perform
    dsimp only
    split
    · exact solvent
    next budget reservation reserved =>
      obtain ⟨hasFrame, fewNodes, fewBytes, rfl, -⟩ := reserveDocument_cases solvent reserved
      refine ⟨?_, ?_, ?_⟩ <;> dsimp only <;> omega
  | recordNestedSnapshot document payloadBytes nodes frames =>
    apply solvent_update solvent
    intro reservation budget' reservation' recorded
    cases recorded
    exact solvent
  | reservePayloadAllocation document payloadBytes =>
    apply solvent_update solvent
    intro reservation budget' reservation' reserved
    exact (moved_reservePayloadAllocation reserved).solvent solvent
  | settlePayloadAllocation document reservedBytes actualBytes =>
    apply solvent_update solvent
    intro reservation budget' reservation' settled
    exact (moved_settlePayloadAllocation solvent settled).solvent solvent
  | commitDocument document payloadBytes =>
    apply solvent_update solvent
    intro reservation budget' reservation' committed
    obtain ⟨own, -, -, covered, rfl, -⟩ := commitDocument_cases committed
    exact ⟨frames, nodes, by dsimp only; omega⟩

theorem solvent_foldl_perform (calls : List BudgetCall) (solvent : Solvent state.budget) :
    Solvent (calls.foldl BudgetState.perform state).budget := by
  induction calls generalizing state with
  | nil => exact solvent
  | cons call rest ih => exact ih (solvent_perform solvent call)

end Calls

section Accounting

/-- The budget paid for at least this much. -/
structure Charged (before after : RecursiveSnapshotBudget) (payloadBytes nodes frames : Nat) :
    Prop where
  solvent : Solvent after
  payload : payloadBytes + after.remainingPayloadBytes ≤ before.remainingPayloadBytes
  nodes : nodes + after.remainingNodes ≤ before.remainingNodes
  frames : frames + after.remainingFrames ≤ before.remainingFrames

/-- What a document that is being copied holds was taken from the budget. -/
structure Held (start budget : RecursiveSnapshotBudget) (reservation : SnapshotReservation) :
    Prop where
  solvent : Solvent budget
  allocated : 0 ≤ reservation.allocatedPayloadBytes
  payload : reservation.sourcePayloadBytes + reservation.allocatedPayloadBytes +
    reservation.nestedPayloadBytes + budget.remainingPayloadBytes ≤ start.remainingPayloadBytes
  nodes : reservation.nodes + reservation.nestedNodes + budget.remainingNodes ≤
    start.remainingNodes
  frames : 1 + reservation.nestedFrames + budget.remainingFrames ≤ start.remainingFrames

variable {start budget : RecursiveSnapshotBudget} {reservation : SnapshotReservation}
  {payloadBytes : Nat} {after : RecursiveSnapshotBudget} {reservation' : SnapshotReservation}

def ChargedFor (before : RecursiveSnapshotBudget)
    (outcome : RecursiveSnapshotBudget × Except SnapshotError SnapshotResult) : Prop :=
  match outcome with
  | (after, .ok result) =>
    Charged before after result.payloadBytes result.subtreeNodes result.frames
  | (after, .error _) => Charged before after 0 0 0

def HeldFor (start : RecursiveSnapshotBudget)
    (outcome : RecursiveSnapshotBudget × Except SnapshotError SnapshotReservation) : Prop :=
  match outcome with
  | (after, .ok reservation) => Held start after reservation
  | (after, .error _) => Charged start after 0 0 0

theorem Held.charged (held : Held start budget reservation) : Charged start budget 0 0 0 := by
  obtain ⟨solvent, allocated, payload, nodes, frames⟩ := held
  exact ⟨solvent, by omega, by omega, by omega⟩

theorem held_reserveDocument {sizes : List Nat} {frameDepth : Nat} (solvent : Solvent start)
    (reserved : start.reserveDocument sizes frameDepth = .ok (budget, reservation)) :
    Held start budget reservation := by
  obtain ⟨hasFrame, fewNodes, fewBytes, rfl, fresh⟩ := reserveDocument_cases solvent reserved
  rw [fresh]
  refine ⟨⟨?_, ?_, ?_⟩, Int.le_refl 0, ?_, ?_, ?_⟩ <;> dsimp only <;> omega

theorem Held.move {budget' : RecursiveSnapshotBudget} (held : Held start budget reservation)
    (moved : Moved budget budget' reservation reservation') : Held start budget' reservation' := by
  obtain ⟨bytes, covered, stays, rfl, rfl⟩ := moved
  obtain ⟨solvent, allocated, payload, nodes, frames⟩ := held
  refine ⟨⟨solvent.frames, solvent.nodes, ?_⟩, stays allocated, ?_, nodes, frames⟩ <;>
    dsimp only <;> omega

section

variable (held : Held start budget reservation)
include held

theorem Held.recordNestedSnapshot {nodes frames : Nat}
    (charged : Charged budget after payloadBytes nodes frames) : Held start after
      (RecursiveSnapshotBudget.recordNestedSnapshot reservation payloadBytes nodes frames) := by
  obtain ⟨-, allocated, payload, nodes, frames⟩ := held
  obtain ⟨solvent, chargedPayload, chargedNodes, chargedFrames⟩ := charged
  refine ⟨solvent, allocated, ?_, ?_, ?_⟩ <;>
    simp only [RecursiveSnapshotBudget.recordNestedSnapshot] <;> push_cast <;> omega

theorem Held.of_charged (charged : Charged budget after 0 0 0) : Held start after reservation := by
  obtain ⟨-, allocated, payload, nodes, frames⟩ := held
  obtain ⟨solvent, chargedPayload, chargedNodes, chargedFrames⟩ := charged
  exact ⟨solvent, allocated, by omega, by omega, by omega⟩

theorem Held.commitDocument
    (committed : budget.commitDocument reservation payloadBytes = .ok (after, reservation')) :
    Charged start after payloadBytes (reservation'.nodes + reservation'.nestedNodes)
      (reservation'.nestedFrames + 1) := by
  obtain ⟨own, nonneg, paid, covered, rfl, rfl⟩ := commitDocument_cases committed
  obtain ⟨solvent, allocated, payload, nodes, frames⟩ := held
  refine ⟨⟨solvent.frames, solvent.nodes, ?_⟩, ?_, ?_, ?_⟩ <;> push_cast <;> omega

end

mutual

theorem chargedFor_snapshotDocument {budget : RecursiveSnapshotBudget} (solvent : Solvent budget)
    (frameDepth : Nat) (document : InlineDocument) :
    ChargedFor budget (snapshotDocument budget frameDepth document) := by
  match document with
  | .mk sizes events serializedBytes =>
    unfold snapshotDocument
    split
    · exact ⟨solvent, by simp, by simp, by simp⟩
    next opened reservation reserved =>
    have copied := heldFor_copyEvents (held_reserveDocument solvent reserved) frameDepth events
    split
    next after problem failed =>
      rw [failed] at copied
      exact copied
    next after held finished =>
      rw [finished] at copied
      split
      · exact Held.charged copied
      next payloadBytes =>
        split
        · exact Held.charged copied
        · split
          · exact Held.charged copied
          next committed => exact Held.commitDocument copied committed

theorem heldFor_copyEvents {start budget : RecursiveSnapshotBudget}
    {reservation : SnapshotReservation} (held : Held start budget reservation) (frameDepth : Nat)
    (events : List SnapshotEvent) :
    HeldFor start (copyEvents budget frameDepth reservation events) := by
  match events with
  | [] =>
    exact held
  | .allocate payloadBytes :: rest =>
    unfold copyEvents
    split
    · exact held.charged
    next reserved =>
      exact heldFor_copyEvents (held.move (moved_reservePayloadAllocation reserved)) _ rest
  | .settle reservedBytes actualBytes :: rest =>
    unfold copyEvents
    split
    · exact held.charged
    next settled =>
      exact heldFor_copyEvents (held.move (moved_settlePayloadAllocation
        held.solvent settled)) _ rest
  | .frame document :: rest =>
    have charged := chargedFor_snapshotDocument held.solvent (frameDepth + 1) document
    unfold copyEvents
    split
    next after child collected =>
      rw [collected] at charged
      exact heldFor_copyEvents (held.recordNestedSnapshot charged) _ rest
    next after problem failed =>
      rw [failed] at charged
      split
      · exact (held.of_charged charged).charged
      · exact heldFor_copyEvents (held.of_charged charged) _ rest

end

/-- No sequence of calls overdraws the budget, and a page that is collected stays within it. -/
theorem snapshot_within_budget
    (maximumNodes maximumPayloadBytes maximumFrames maximumFrameDepth : Nat) :
    (∀ calls : List BudgetCall, Solvent (calls.foldl BudgetState.perform
        ⟨.new maximumNodes maximumPayloadBytes maximumFrames maximumFrameDepth, []⟩).budget) ∧
    ∀ (frameDepth : Nat) (document : InlineDocument) (after : RecursiveSnapshotBudget)
        (outcome : Except SnapshotError SnapshotResult),
      snapshotDocument (.new maximumNodes maximumPayloadBytes maximumFrames maximumFrameDepth)
          frameDepth document = (after, outcome) →
        Solvent after ∧ ∀ result, outcome = .ok result →
          result.payloadBytes ≤ maximumPayloadBytes ∧ result.subtreeNodes ≤ maximumNodes ∧
            result.frames ≤ maximumFrames := by
  have solvent : Solvent (.new maximumNodes maximumPayloadBytes maximumFrames maximumFrameDepth) :=
    ⟨Int.natCast_nonneg _, Int.natCast_nonneg _, Int.natCast_nonneg _⟩
  refine ⟨fun calls => solvent_foldl_perform calls solvent, ?_⟩
  intro frameDepth document after outcome collected
  have charged := chargedFor_snapshotDocument solvent frameDepth document
  rw [collected] at charged
  cases outcome with
  | error problem =>
    refine ⟨Charged.solvent charged, fun result impossible => ?_⟩
    cases impossible
  | ok result =>
    obtain ⟨within, payload, nodes, frames⟩ := charged
    refine ⟨within, fun other same => ?_⟩
    cases same
    obtain ⟨fewFrames, fewNodes, fewBytes⟩ := within
    simp only [RecursiveSnapshotBudget.new] at payload nodes frames
    omega

end Accounting
end Offprint.Collector
