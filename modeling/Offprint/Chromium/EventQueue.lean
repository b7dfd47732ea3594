import Mathlib.Algebra.GroupWithZero.Nat
import Mathlib.Data.List.Basic

/-!
# Lossy event queues

Every subscription to the transport's events has an inbox bounded by a number of
events and by their encoded bytes. A push that finds no room drops the oldest
events, and the receiver learns later how many it lost.

Dropping always takes the oldest events, so an inbox holds the newest of the
pushed events, and in front of them stand those lost since the last report.
-/

namespace Offprint.Chromium

open List Nat

variable {Event : Type}

structure QueuedEvent (Event : Type) where
  event : Event
  encodedBytes : Nat

structure InboxState (Event : Type) where
  events : List (QueuedEvent Event) := []
  encodedBytes : Nat := 0
  skipped : Nat := 0
  closed : Bool := false

structure Limits where
  maximumEvents : Nat
  maximumBytes : Nat

/-- What a receiver gets: an event, or why there is none. -/
inductive Answer (Event : Type) where
  | event (event : Event)
  | lagged (skipped : Nat)
  | closed
  | empty

/-- A count kept in 64 bits that stops at the largest one. -/
def saturated (count : Nat) : Nat :=
  min count (2 ^ 64 - 1)

namespace InboxState

def close (inbox : InboxState Event) : InboxState Event :=
  { inbox with closed := true }

/-- Drop the oldest events until there is room for one more of the given size. -/
def makeRoom (limits : Limits) (size : Nat) :
    List (QueuedEvent Event) → InboxState Event → InboxState Event
  | [], inbox => { inbox with events := [] }
  | oldest :: rest, inbox =>
    if limits.maximumEvents ≤ rest.length + 1 ∨ limits.maximumBytes - inbox.encodedBytes < size then
      makeRoom limits size rest { inbox with
        encodedBytes := inbox.encodedBytes - oldest.encodedBytes
        skipped := saturated (inbox.skipped + 1) }
    else
      { inbox with events := oldest :: rest }

def push (limits : Limits) (event : Event) (size : Nat) (inbox : InboxState Event) :
    InboxState Event :=
  let inbox := makeRoom limits size inbox.events inbox
  if limits.maximumEvents = 0 ∨ limits.maximumBytes < size then
    { inbox with skipped := saturated (inbox.skipped + 1) }
  else
    { inbox with
      encodedBytes := inbox.encodedBytes + size
      events := inbox.events ++ [⟨event, size⟩] }

def tryRecv (inbox : InboxState Event) : Answer Event × InboxState Event :=
  if inbox.skipped ≠ 0 then
    (.lagged inbox.skipped, { inbox with skipped := 0 })
  else
    match inbox.events with
    | queued :: rest =>
      (.event queued.event,
        { inbox with events := rest, encodedBytes := inbox.encodedBytes - queued.encodedBytes })
    | [] => (if inbox.closed then .closed else .empty, inbox)

def pendingLen (inbox : InboxState Event) : Nat :=
  inbox.events.length + if inbox.skipped ≠ 0 then 1 else 0

end InboxState

inductive InboxOp (Event : Type) where
  | push (event : Event) (size : Nat)
  | receive
  | close

namespace InboxState

def step (limits : Limits) (inbox : InboxState Event) :
    InboxOp Event → InboxState Event × List (Answer Event)
  | .push event size => (inbox.push limits event size, [])
  | .receive => (inbox.tryRecv.2, [inbox.tryRecv.1])
  | .close => (inbox.close, [])

/-- The inbox after a sequence of operations and the answers given on the way. -/
def run (limits : Limits) : InboxState Event → List (InboxOp Event) →
    InboxState Event × List (Answer Event)
  | inbox, [] => (inbox, [])
  | inbox, op :: rest =>
    let (next, answers) := inbox.step limits op
    let (last, later) := next.run limits rest
    (last, answers ++ later)

end InboxState

/-! ## Accounting for losses -/

def InboxOp.pushed : InboxOp Event → List Event
  | .push event _ => [event]
  | .receive | .close => []

def Answer.delivered : Answer Event → List Event
  | .event content => [content]
  | .lagged _ | .closed | .empty => []

/-- The answers tell what became of the events one after the other. A loss of
`count` events is told as `report count`. -/
inductive Explains (report : Nat → Nat) : List (Answer Event) → List Event → Prop
  | start : Explains report [] []
  | delivered {answers events} (event : Event) : Explains report answers events →
      Explains report (answers ++ [.event event]) (events ++ [event])
  | lagged {answers events} (lost : List Event) : Explains report answers events →
      Explains report (answers ++ [.lagged (report lost.length)]) (events ++ lost)
  | closed {answers events} : Explains report answers events →
      Explains report (answers ++ [.closed]) events
  | empty {answers events} : Explains report answers events →
      Explains report (answers ++ [.empty]) events

variable {answers : List (Answer Event)} {events : List Event}

theorem Explains.sublist {report : Nat → Nat} (explains : Explains report answers events) :
    (answers.flatMap Answer.delivered).Sublist events := by
  induction explains with
  | start => exact .refl _
  | delivered event _ ih => simpa [Answer.delivered] using ih.append_right [event]
  | lagged lost _ ih =>
    simpa [Answer.delivered] using ih.trans (sublist_append_left _ lost)
  | closed _ ih | empty _ ih => simpa [Answer.delivered] using ih

/-- The inbox keeps its limits, and what was pushed but is not buffered was
delivered, reported as lost, or is waiting to be reported. -/
structure Accounts (report : Nat → Nat) (limits : Limits) (pushed : List Event)
    (answers : List (Answer Event)) (inbox : InboxState Event) : Prop where
  counted : inbox.events.length ≤ limits.maximumEvents
  sized : (inbox.events.map QueuedEvent.encodedBytes).sum = inbox.encodedBytes
  bounded : inbox.encodedBytes ≤ limits.maximumBytes
  explained : ∃ handled lost, pushed = handled ++ lost ++ inbox.events.map QueuedEvent.event ∧
    Explains report answers handled ∧ inbox.skipped = report lost.length

namespace Accounts

variable {limits : Limits} {pushed : List Event} {answers : List (Answer Event)}
  {inbox : InboxState Event} {size : Nat}

theorem start (limits : Limits) (closed : Bool) :
    Accounts saturated limits ([] : List Event) [] { closed } where
  counted := zero_le _
  sized := rfl
  bounded := zero_le _
  explained := ⟨[], [], rfl, .start, rfl⟩

theorem saturated_succ (count : Nat) : saturated (saturated count + 1) = saturated (count + 1) := by
  unfold saturated
  omega

/-- Room is made at the cost of the oldest events; what remains leaves room for
an event that fits at all. -/
theorem makeRoom {queued : List (QueuedEvent Event)} (size : Nat)
    (accounts : Accounts saturated limits pushed answers { inbox with events := queued }) :
    Accounts saturated limits pushed answers (inbox.makeRoom limits size queued) ∧
      (0 < limits.maximumEvents → size ≤ limits.maximumBytes →
        (inbox.makeRoom limits size queued).events.length < limits.maximumEvents ∧
          (inbox.makeRoom limits size queued).encodedBytes + size ≤ limits.maximumBytes) := by
  induction queued generalizing inbox with
  | nil =>
    refine ⟨accounts, fun positive fits => ⟨positive, ?_⟩⟩
    have empty : 0 = inbox.encodedBytes := accounts.sized
    simp only [InboxState.makeRoom]
    omega
  | cons oldest rest ih =>
    have sized : oldest.encodedBytes + (rest.map QueuedEvent.encodedBytes).sum =
      inbox.encodedBytes := accounts.sized
    have counted : rest.length + 1 ≤ limits.maximumEvents := accounts.counted
    have bounded : inbox.encodedBytes ≤ limits.maximumBytes := accounts.bounded
    unfold InboxState.makeRoom
    split
    next =>
      apply ih
      obtain ⟨handled, lost, parts, explains, skipped⟩ := accounts.explained
      refine ⟨?_, ?_, ?_, handled, lost ++ [oldest.event], ?_, explains, ?_⟩
      · exact le_of_succ_le counted
      · show (rest.map QueuedEvent.encodedBytes).sum = inbox.encodedBytes - oldest.encodedBytes
        omega
      · exact Nat.le_trans (sub_le _ _) bounded
      · simpa using parts
      · show saturated (inbox.skipped + 1) = _
        rw [show inbox.skipped = saturated lost.length from skipped, saturated_succ]
        simp
    next room =>
      refine ⟨accounts, fun _ _ => ?_⟩
      show rest.length + 1 < _ ∧ inbox.encodedBytes + size ≤ _
      omega

theorem events_makeRoom (large : limits.maximumBytes < size) (queued : List (QueuedEvent Event)) :
    (inbox.makeRoom limits size queued).events = [] := by
  induction queued generalizing inbox with
  | nil => rfl
  | cons oldest rest ih =>
    unfold InboxState.makeRoom
    rw [if_pos (.inr (by omega))]
    exact ih

variable (accounts : Accounts saturated limits pushed answers inbox)
include accounts

theorem push (event : Event) (size : Nat) :
    Accounts saturated limits (pushed ++ [event]) answers (inbox.push limits event size) := by
  obtain ⟨roomy, room⟩ := makeRoom size accounts
  have emptied (large : limits.maximumBytes < size) :=
    @events_makeRoom _ _ inbox _ large inbox.events
  unfold InboxState.push
  generalize inbox.makeRoom limits size inbox.events = after at roomy room emptied
  obtain ⟨handled, lost, parts, explains, skipped⟩ := roomy.explained
  dsimp only
  split
  next refused =>
    -- An event that can never fit leaves the inbox empty and joins the lost ones.
    have empty : after.events = [] := by
      rcases refused with none | large
      · exact length_eq_zero_iff.mp (le_zero.mp (none ▸ roomy.counted))
      · exact emptied large
    refine ⟨roomy.counted, roomy.sized, roomy.bounded, handled, lost ++ [event], ?_, explains, ?_⟩
    · simp [parts, empty]
    · rw [skipped, saturated_succ]
      simp
  next fits =>
    obtain ⟨fewer, fewerBytes⟩ := room (by omega) (by omega)
    refine ⟨?_, ?_, fewerBytes, handled, lost, ?_, explains, skipped⟩
    · simpa using succ_le_of_lt fewer
    · simp [roomy.sized]
    · simp [parts]

theorem tryRecv :
    Accounts saturated limits pushed (answers ++ [inbox.tryRecv.1]) inbox.tryRecv.2 := by
  obtain ⟨handled, lost, parts, explains, skipped⟩ := accounts.explained
  have sized := accounts.sized
  have counted := accounts.counted
  have bounded := accounts.bounded
  unfold InboxState.tryRecv
  split
  next =>
    refine ⟨counted, sized, bounded, handled ++ lost, [], by simpa using parts, ?_, rfl⟩
    rw [skipped]
    exact explains.lagged lost
  next none =>
    have noLoss : lost = [] := by
      rw [← length_eq_zero_iff]
      unfold saturated at skipped
      omega
    subst noLoss
    cases queued : inbox.events with
    | nil =>
      refine ⟨counted, sized, bounded, handled, [], by simpa [queued] using parts, ?_, skipped⟩
      dsimp only
      split
      · exact explains.closed
      · exact explains.empty
    | cons first rest =>
      simp only [queued, map_cons, sum_cons, length_cons] at sized counted parts
      refine ⟨le_of_succ_le counted, ?_, Nat.le_trans (sub_le _ _) bounded,
        handled ++ [first.event], [], by simpa using parts, explains.delivered _, skipped⟩
      dsimp only
      omega

theorem run (ops : List (InboxOp Event)) :
    Accounts saturated limits (pushed ++ ops.flatMap InboxOp.pushed)
      (answers ++ (inbox.run limits ops).2) (inbox.run limits ops).1 := by
  induction ops generalizing pushed answers inbox with
  | nil => simpa [InboxState.run] using accounts
  | cons op rest ih =>
    cases op with
    | push event size =>
      simpa [InboxState.run, InboxState.step, InboxOp.pushed] using ih (accounts.push event size)
    | receive =>
      simpa [InboxState.run, InboxState.step, InboxOp.pushed] using ih accounts.tryRecv
    | close =>
      have closed : Accounts saturated limits pushed answers inbox.close :=
        ⟨accounts.counted, accounts.sized, accounts.bounded, accounts.explained⟩
      simpa [InboxState.run, InboxState.step, InboxOp.pushed] using ih closed

end Accounts

/-! ## Closing -/

namespace InboxState

variable {inbox : InboxState Event}

theorem of_tryRecv_closed (closed : inbox.tryRecv.1 = .closed) :
    inbox.closed = true ∧ inbox.events = [] ∧ inbox.skipped = 0 := by
  unfold tryRecv at closed
  split at closed
  · cases closed
  next none =>
    cases queued : inbox.events with
    | cons first rest => simp [queued] at closed
    | nil =>
      cases shut : inbox.closed with
      | false => simp [queued, shut] at closed
      | true => exact ⟨rfl, rfl, not_not.mp none⟩

/-- A closed inbox reports its loss, delivers what it holds and then says so. -/
def remaining (inbox : InboxState Event) : List (Answer Event) :=
  (if inbox.skipped ≠ 0 then [.lagged inbox.skipped] else []) ++
    inbox.events.map (fun queued => .event queued.event) ++ [.closed]

theorem run_replicate_events (limits : Limits) (closed : inbox.closed = true)
    (none : inbox.skipped = 0) :
    (inbox.run limits (List.replicate (inbox.events.length + 1) .receive)).2 =
      inbox.events.map (fun queued => .event queued.event) ++ [.closed] := by
  induction queued : inbox.events generalizing inbox with
  | nil => simp [run, step, tryRecv, none, queued, closed]
  | cons first rest ih =>
    have later := @ih { inbox with
      events := rest, encodedBytes := inbox.encodedBytes - first.encodedBytes } closed none rfl
    rw [length_cons, replicate_succ]
    simpa [run, step, tryRecv, none, queued] using later

theorem run_replicate_receive (limits : Limits) (closed : inbox.closed = true) :
    (inbox.run limits (List.replicate (inbox.pendingLen + 1) .receive)).2 = inbox.remaining := by
  unfold pendingLen remaining
  by_cases none : inbox.skipped = 0
  · simpa [none] using run_replicate_events limits closed none
  · have later := @run_replicate_events _ { inbox with skipped := 0 } limits closed rfl
    rw [if_pos none, if_pos none, replicate_succ]
    simpa [run, step, tryRecv, none] using later

end InboxState

/-! ## Subscribers -/

/-- The sender with the inboxes of its subscriptions, which are gone when their
receivers are dropped. The source's list of references leads to every inbox until
the sender is closed, and to none from then on. -/
structure EventSender (Event : Type) where
  limits : Limits
  closed : Bool := false
  inboxes : List (Option (InboxState Event)) := []

inductive SenderOp (Event : Type) where
  | subscribe
  | send (event : Event) (size : Nat)
  | receive (id : Nat)
  | drop (id : Nat)
  | close

namespace EventSender

variable (sender : EventSender Event)

def subscribe : EventSender Event :=
  { sender with inboxes := sender.inboxes ++ [some { closed := sender.closed }] }

def receiverCount : Nat :=
  if sender.closed then 0 else sender.inboxes.countP Option.isSome

/-- Push the event to every subscription. The first component counts them, and
is `none` where the source hands the event back. -/
def send (event : Event) (size : Nat) : Option Nat × EventSender Event :=
  if sender.closed then
    (none, sender)
  else
    (if sender.receiverCount = 0 then none else some sender.receiverCount,
      { sender with
        inboxes := sender.inboxes.map (Option.map (.push sender.limits event size)) })

def close : EventSender Event :=
  { sender with
    closed := true
    inboxes := if sender.closed then sender.inboxes else sender.inboxes.map (Option.map .close) }

def step :
    SenderOp Event → EventSender Event × List (Nat × Answer Event)
  | .subscribe => (sender.subscribe, [])
  | .send event size => ((sender.send event size).2, [])
  | .receive id =>
    match sender.inboxes[id]? with
    | some (some inbox) =>
      ({ sender with inboxes := sender.inboxes.set id (some inbox.tryRecv.2) },
        [(id, inbox.tryRecv.1)])
    | _ => (sender, [])
  | .drop id => ({ sender with inboxes := sender.inboxes.set id none }, [])
  | .close => (sender.close, [])

def run : EventSender Event → List (SenderOp Event) → EventSender Event × List (Nat × Answer Event)
  | sender, [] => (sender, [])
  | sender, op :: rest =>
    let (next, answers) := sender.step op
    let (last, later) := next.run rest
    (last, answers ++ later)

def answersTo (id : Nat) (answers : List (Nat × Answer Event)) : List (Answer Event) :=
  (answers.filter fun answer => answer.1 = id).map Prod.snd

end EventSender

open EventSender

/-- What a subscription sees of a run: what is sent until the sender is closed,
and what its own receiver does until it is dropped. -/
def seenBy (id : Nat) : Bool → List (SenderOp Event) → List (InboxOp Event)
  | _, [] => []
  | closed, .subscribe :: rest => seenBy id closed rest
  | closed, .send event size :: rest =>
    (if closed then [] else [.push event size]) ++ seenBy id closed rest
  | closed, .receive other :: rest =>
    (if other = id then [.receive] else []) ++ seenBy id closed rest
  | closed, .drop other :: rest => if other = id then [] else seenBy id closed rest
  | closed, .close :: rest => (if closed then [] else [.close]) ++ seenBy id true rest

/-- The operation is not one of another subscription. -/
def SenderOp.concerns (id : Nat) : SenderOp Event → Bool
  | .subscribe => false
  | .receive other | .drop other => other = id
  | .send _ _ | .close => true

theorem seenBy_filter (id : Nat) (closed : Bool) (ops : List (SenderOp Event)) :
    seenBy id closed (ops.filter (SenderOp.concerns id)) = seenBy id closed ops := by
  induction ops generalizing closed with
  | nil => rfl
  | cons op rest ih =>
    cases op with
    | subscribe => simp [SenderOp.concerns, seenBy, ih]
    | send event size => rw [filter_cons_of_pos rfl, seenBy, seenBy, ih]
    | receive other | drop other =>
      by_cases own : other = id
      · simp [SenderOp.concerns, seenBy, ih, own]
      · simp [SenderOp.concerns, seenBy, ih, own]
    | close => rw [filter_cons_of_pos rfl, seenBy, seenBy, ih]

namespace EventSender

variable {sender : EventSender Event}

theorem answersTo_run_cons (id : Nat) (op : SenderOp Event) (rest : List (SenderOp Event)) :
    answersTo id (sender.run (op :: rest)).2 =
      answersTo id (sender.step op).2 ++ answersTo id ((sender.step op).1.run rest).2 := by
  simp [run, answersTo]

/-- A dropped subscription gets no answers, and any other one those of an inbox
of its own on what it sees of the run. -/
theorem answersTo_run {id : Nat} {slot : Option (InboxState Event)}
    (found : sender.inboxes[id]? = some slot) (ops : List (SenderOp Event)) :
    answersTo id (sender.run ops).2 =
      slot.elim [] fun inbox => (inbox.run sender.limits (seenBy id sender.closed ops)).2 := by
  induction ops generalizing sender slot with
  | nil => cases slot <;> rfl
  | cons op rest ih =>
    have inside := (List.getElem?_eq_some_iff.mp found).1
    rw [answersTo_run_cons]
    cases op with
    | subscribe =>
      exact @ih sender.subscribe slot ((getElem?_append_left inside).trans found)
    | send event size =>
      have pushed : (sender.send event size).2.inboxes[id]? =
          some (if sender.closed then slot else slot.map (.push sender.limits event size)) := by
        unfold send
        split <;> simp_all
      have later := ih pushed
      cases shut : sender.closed <;> cases slot <;>
        simp_all [step, send, seenBy, answersTo, InboxState.run, InboxState.step]
    | receive other =>
      rcases eq_or_ne other id with rfl | apart
      · cases slot with
        | none => simpa [step, found, answersTo] using ih found
        | some inbox =>
          have later := @ih { sender with
            inboxes := sender.inboxes.set other (some inbox.tryRecv.2) } _
              (getElem?_set_self inside)
          simp_all [step, seenBy, answersTo, InboxState.run, InboxState.step]
      · have same : (sender.step (.receive other)).1.inboxes[id]? = some slot := by
          simp only [step]
          split <;> simp [getElem?_set_ne apart, found]
        have later := ih same
        simp only [step, seenBy, if_neg apart] at later ⊢
        split at later <;> simp_all [answersTo]
    | drop other =>
      rcases eq_or_ne other id with rfl | apart
      · have later := @ih { sender with inboxes := sender.inboxes.set other none } none
          (getElem?_set_self inside)
        cases slot <;> simp_all [step, seenBy, answersTo, InboxState.run]
      · have later := @ih { sender with inboxes := sender.inboxes.set other none } slot
          ((getElem?_set_ne apart).trans found)
        simpa [step, seenBy, apart, answersTo] using later
    | close =>
      have closed : sender.close.inboxes[id]? =
          some (if sender.closed then slot else slot.map .close) := by
        unfold close
        split <;> simp_all
      have later := ih closed
      cases shut : sender.closed <;> cases slot <;>
        simp_all [step, close, seenBy, answersTo, InboxState.run, InboxState.step]

end EventSender

/-! ## The contract -/

/-- What subscriptions to events within the limits promise, where a loss of
`count` events is told as `report count`. -/
structure AccountsForLosses (Event : Type) (report : Nat → Nat) (limits : Limits) : Prop where
  accounts : ∀ (closed : Bool) (ops : List (InboxOp Event)),
    let inbox : InboxState Event := { closed }
    Accounts report limits (ops.flatMap InboxOp.pushed) (inbox.run limits ops).2
      (inbox.run limits ops).1
  ordered : ∀ (closed : Bool) (ops : List (InboxOp Event)),
    let inbox : InboxState Event := { closed }
    ((inbox.run limits ops).2.flatMap Answer.delivered).Sublist (ops.flatMap InboxOp.pushed)
  closed_last : ∀ inbox : InboxState Event, inbox.tryRecv.1 = .closed →
    inbox.closed = true ∧ inbox.events = [] ∧ inbox.skipped = 0
  drained : ∀ inbox : InboxState Event, inbox.closed = true →
    (inbox.run limits (List.replicate (inbox.pendingLen + 1) .receive)).2 = inbox.remaining
  independent : ∀ before after : List (SenderOp Event),
    let sender := (({ limits } : EventSender Event).run before).1
    let id := sender.inboxes.length
    answersTo id (sender.subscribe.run after).2 =
        (({ closed := sender.closed } : InboxState Event).run limits
          (seenBy id sender.closed after)).2 ∧
      answersTo id (sender.subscribe.run (after.filter (SenderOp.concerns id))).2 =
        answersTo id (sender.subscribe.run after).2

variable (sender : EventSender Event) (ops : List (SenderOp Event))

theorem EventSender.limits_run : (sender.run ops).1.limits = sender.limits := by
  induction ops generalizing sender with
  | nil => rfl
  | cons op rest ih =>
    refine (ih _).trans ?_
    cases op with
    | receive id =>
      dsimp only
      split <;> rfl
    | send event size =>
      simp only [send]
      split <;> rfl
    | subscribe | drop | close => rfl

/-- A new subscription is that of an inbox of its own. -/
theorem EventSender.answersTo_subscribe :
    answersTo sender.inboxes.length (sender.subscribe.run ops).2 =
      (({ closed := sender.closed } : InboxState Event).run sender.limits
        (seenBy sender.inboxes.length sender.closed ops)).2 :=
  @answersTo_run _ sender.subscribe _ (some { closed := sender.closed }) (by simp [subscribe]) ops

/-- Every loss is accounted for, with counts that stop at the largest number of
64 bits. -/
theorem event_queues_account_for_losses (Event : Type) (limits : Limits) :
    AccountsForLosses Event saturated limits where
  accounts closed ops := (Accounts.start limits closed).run ops
  ordered closed ops := by
    obtain ⟨handled, lost, parts, explains, -⟩ := ((Accounts.start limits closed).run ops).explained
    rw [List.nil_append, List.append_assoc] at parts
    rw [parts]
    exact explains.sublist.trans (List.sublist_append_left _ _)
  closed_last _ := InboxState.of_tryRecv_closed
  drained _ := InboxState.run_replicate_receive limits
  independent before after := by
    intro sender id
    have bounds : sender.limits = limits := limits_run _ before
    refine ⟨?_, ?_⟩
    · rw [← bounds]
      exact answersTo_subscribe sender after
    · rw [answersTo_subscribe, answersTo_subscribe, seenBy_filter]

/-! ## Counts that do not fit -/

/-- The number of events the answer speaks about. -/
def Answer.weight : Answer Event → Nat
  | .event _ => 1
  | .lagged skipped => skipped
  | .closed | .empty => 0

theorem Explains.length (explains : Explains id answers events) :
    events.length = (answers.map Answer.weight).sum := by
  induction explains with
  | start => rfl
  | delivered event _ ih | lagged lost _ ih | closed _ ih | empty _ ih => simp [ih, Answer.weight]

theorem run_without_room (count lost : Nat) (some : lost + count ≠ 0) :
    ({ skipped := saturated lost } : InboxState Unit).run ⟨0, 0⟩
        (List.replicate count (.push () 0) ++ [.receive]) =
      ({}, [.lagged (saturated (lost + count))]) := by
  induction count generalizing lost with
  | zero =>
    have told : saturated lost ≠ 0 := by
      unfold saturated
      omega
    simp [InboxState.run, InboxState.step, InboxState.tryRecv, told]
  | succ count ih =>
    have later := ih (lost + 1) (by omega)
    rw [replicate_succ, cons_append, InboxState.run]
    have pushed : (({ skipped := saturated lost } : InboxState Unit).push ⟨0, 0⟩ () 0) =
        { skipped := saturated (lost + 1) } := by
      simp [InboxState.push, InboxState.makeRoom, Accounts.saturated_succ]
    simp only [InboxState.step, pushed, later]
    rw [nil_append, show lost + 1 + count = lost + (count + 1) by omega]

/-- After `2 ^ 64` pushes to a queue without room one loss goes untold. -/
theorem not_accountsForLosses_exactly : ¬ AccountsForLosses Unit id ⟨0, 0⟩ := by
  intro promised
  have untold (count : Nat) (positive : 0 + count ≠ 0) : count = saturated count := by
    obtain ⟨handled, lost, parts, explains, skipped⟩ :=
      (promised.accounts false (List.replicate count (.push () 0) ++ [.receive])).explained
    have whole := run_without_room count 0 positive
    rw [Nat.zero_add] at whole
    have ran : ({ closed := false } : InboxState Unit).run ⟨0, 0⟩
        (List.replicate count (.push () 0) ++ [.receive]) = ({}, [.lagged (saturated count)]) :=
      whole
    rw [ran] at parts explains skipped
    have sizes := congrArg List.length parts
    have none : 0 = lost.length := skipped
    rw [List.length_append, List.length_append, explains.length, ← none] at sizes
    simpa [InboxOp.pushed, Answer.weight] using sizes
  have full := untold (2 ^ 64) (by decide)
  unfold saturated at full
  omega

end Offprint.Chromium
