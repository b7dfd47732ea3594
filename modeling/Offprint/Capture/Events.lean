import Mathlib.Data.List.Sort
import Offprint.Effect.Broadcast

/-!
# Capture events

The journal that numbers, retains and broadcasts the events of one capture, and
the streams that subscribers poll.  A poll takes the journal's gate only while
it reads the retained events, so other threads may emit between the moment it
receives an envelope and the moment it asks for what it missed.  `Polling`
names these moments, and one `advance` is what a poll does between two of them.
-/

namespace Offprint.Capture

open Effect

inductive CaptureEventKind where
  | captureStarted
  | browserReady
  | navigationStarted
  | navigationRedirected
  | readinessChanged
  | frameCollected
  | resourceDiscovered
  | resourceProgress
  | transformStarted
  | artifactEncoding
  | verificationStarted
  | warning
  | captureSucceeded
  | captureFailed
  | captureCancelled
  deriving Repr, DecidableEq

/-- An event; the fields of its kind pass through the journal unread. -/
structure CaptureEvent (Fields : Type) where
  kind : CaptureEventKind
  fields : Fields
  deriving Repr, DecidableEq

variable {Fields : Type}

def CaptureEvent.isTerminal (event : CaptureEvent Fields) : Bool :=
  match event.kind with
  | .captureSucceeded | .captureFailed | .captureCancelled => true
  | _ => false

inductive Retention where
  | guaranteed
  | detail
  | progress
  deriving Repr, DecidableEq

def retention (event : CaptureEvent Fields) : Retention :=
  match event.kind with
  | .captureStarted | .browserReady | .navigationStarted | .readinessChanged
  | .transformStarted | .artifactEncoding | .verificationStarted
  | .captureSucceeded | .captureFailed | .captureCancelled => .guaranteed
  | .resourceProgress => .progress
  | .navigationRedirected | .frameCollected | .resourceDiscovered | .warning => .detail

structure EventEnvelope (Fields : Type) where
  sequence : Nat
  event : CaptureEvent Fields
  deriving Repr, DecidableEq

def EventEnvelope.retention (envelope : EventEnvelope Fields) : Retention :=
  Capture.retention envelope.event

def eventCapacity : Nat := 16384

/-! ## The journal -/

structure RetainedEvents (Fields : Type) where
  guaranteed : List (EventEnvelope Fields)
  details : List (EventEnvelope Fields)
  latestProgress : Option (EventEnvelope Fields)

def eventIsBetween (envelope : EventEnvelope Fields) (after : Nat) (before : Option Nat) : Bool :=
  after < envelope.sequence && before.all fun limit => envelope.sequence < limit

namespace RetainedEvents

def empty : RetainedEvents Fields :=
  ⟨[], [], none⟩

def retain (retained : RetainedEvents Fields) (envelope : EventEnvelope Fields) :
    RetainedEvents Fields :=
  match envelope.retention with
  | .guaranteed => { retained with guaranteed := retained.guaranteed ++ [envelope] }
  | .detail => { retained with details := pushRing eventCapacity retained.details envelope }
  | .progress => { retained with latestProgress := some envelope }

def after (retained : RetainedEvents Fields) (sequence : Nat) (before : Option Nat) :
    List (EventEnvelope Fields) :=
  let events := (retained.guaranteed ++ retained.details).filter fun event =>
    eventIsBetween event sequence before
  let progress := (retained.latestProgress.filter fun event =>
    eventIsBetween event sequence before).toList
  (events ++ progress).insertionSort fun left right => left.sequence ≤ right.sequence

end RetainedEvents

structure EventJournal (Fields : Type) where
  sequence : Nat
  sender : Broadcast (EventEnvelope Fields)
  retained : RetainedEvents Fields

namespace EventJournal

def new : EventJournal Fields :=
  ⟨0, ⟨eventCapacity, []⟩, .empty⟩

variable (journal : EventJournal Fields)

/-- The envelope an event gets when it is emitted now. -/
def stamp (event : CaptureEvent Fields) : EventEnvelope Fields :=
  ⟨journal.sequence + 1, event⟩

def emit (event : CaptureEvent Fields) : EventJournal Fields :=
  let envelope := journal.stamp event
  ⟨journal.sequence + 1, journal.sender.send envelope, journal.retained.retain envelope⟩

/-- Everything that was emitted, oldest first. -/
def log : List (EventEnvelope Fields) :=
  journal.sender.sent

end EventJournal

/-! ## Streams -/

/-- Where a poll stands: at the head of its loop (or between two polls), or
about to read the retained events. -/
inductive Polling (Fields : Type) where
  | head
  | received (envelope : EventEnvelope Fields)
  | lagged

/-- A stream with its poll's position and what its polls returned so far:
`delivered` are the events, `finished` says that the end was returned. -/
structure CaptureEvents (Fields : Type) where
  inner : Nat
  pending : List (EventEnvelope Fields)
  lastSequence : Nat
  terminalSeen : Bool
  polling : Polling Fields
  delivered : List (EventEnvelope Fields)
  finished : Bool

def EventJournal.subscribe (journal : EventJournal Fields) : CaptureEvents Fields where
  inner := journal.sender.subscribe
  pending := journal.retained.after 0 none
  lastSequence := 0
  terminalSeen := false
  polling := .head
  delivered := []
  finished := false

namespace CaptureEvents

def nextPending (events : CaptureEvents Fields) (envelope : EventEnvelope Fields)
    (rest : List (EventEnvelope Fields)) : CaptureEvents Fields :=
  { events with
    pending := rest
    lastSequence := max events.lastSequence envelope.sequence
    terminalSeen := events.terminalSeen || envelope.event.isTerminal
    delivered := events.delivered ++ [envelope] }

/-- One stretch of `poll_next`. -/
def advance (journal : EventJournal Fields) (events : CaptureEvents Fields) :
    CaptureEvents Fields :=
  match events.polling with
  | .head =>
    match events.pending with
    | envelope :: rest => events.nextPending envelope rest
    | [] =>
      if events.terminalSeen then
        { events with finished := true }
      else
        let (answer, inner) := journal.sender.recv events.inner
        let events := { events with inner := inner }
        match answer with
        | .message envelope =>
          if envelope.sequence ≤ events.lastSequence then
            events
          else
            { events with polling := .received envelope }
        | .lagged _ => { events with polling := .lagged }
        | .empty => events
  | .received envelope =>
    { events with
      polling := .head
      pending := events.pending ++
        journal.retained.after events.lastSequence (some envelope.sequence) ++ [envelope] }
  | .lagged =>
    { events with
      polling := .head
      pending := events.pending ++ journal.retained.after events.lastSequence none }

end CaptureEvents

/-! ## Runs -/

inductive EventAction (Fields : Type) where
  | emit (event : CaptureEvent Fields)
  | subscribe
  | poll (subscriber : Nat)

structure EventSystem (Fields : Type) where
  journal : EventJournal Fields
  subscribers : List (CaptureEvents Fields)

namespace EventSystem

def initial : EventSystem Fields :=
  ⟨.new, []⟩

def step (system : EventSystem Fields) : EventAction Fields → EventSystem Fields
  | .emit event => { system with journal := system.journal.emit event }
  | .subscribe =>
    { system with subscribers := system.subscribers ++ [system.journal.subscribe] }
  | .poll subscriber =>
    { system with
      subscribers := system.subscribers.modify subscriber (·.advance system.journal) }

def run (actions : List (EventAction Fields)) : EventSystem Fields :=
  actions.foldl step initial

end EventSystem

def emittedEvents (actions : List (EventAction Fields)) : List (CaptureEvent Fields) :=
  actions.filterMap fun
    | .emit event => some event
    | _ => none

end Offprint.Capture
