import Mathlib.Data.List.Induction
import Offprint.Capture.Delivery

/-!
# Subscribers

Every stream of every run stays consistent with the journal, whatever is
emitted between the stretches of its polls.  Once the terminal event has been
emitted, polling a stream long enough returns everything it is owed and then
the end.
-/

namespace Offprint.Capture

open Effect List EventEnvelope

variable {Fields : Type} {envelope : EventEnvelope Fields}

namespace CaptureEvents

/-- Where the broadcast receiver stands against what the stream has seen. -/
def InStep (journal : EventJournal Fields) (events : CaptureEvents Fields) : Prop :=
  match events.polling with
  | .head => events.inner ≤ lastOf (events.delivered ++ events.pending)
  | .received envelope =>
    (events.pending = [] ∧ events.terminalSeen = false) ∧ envelope ∈ journal.log ∧
      events.lastSequence < envelope.sequence ∧ events.inner ≤ envelope.sequence
  | .lagged => events.pending = [] ∧ events.terminalSeen = false

structure Consistent (journal : EventJournal Fields) (events : CaptureEvents Fields) : Prop where
  covers : Covers journal.log (events.delivered ++ events.pending)
  last : events.lastSequence = lastOf events.delivered
  terminal : events.terminalSeen = events.delivered.any fun envelope => envelope.event.isTerminal
  inner : events.inner ≤ journal.log.length
  inStep : events.InStep journal
  finished : events.finished = true → events.terminalSeen = true ∧ events.pending = [] ∧
    events.polling = .head

section Steps

variable {journal : EventJournal Fields} (logged : Logged journal)
include logged

theorem consistent_subscribe : Consistent journal journal.subscribe where
  covers := by
    have covered := (covers_nil logged.numbered).extend_all logged
    exact covered
  last := rfl
  terminal := rfl
  inner := le_refl _
  inStep := by
    have reached := (covers_nil logged.numbered).length_le_lastOf_extend_all logged
    exact reached
  finished := by
    intro impossible
    cases impossible

variable {events : CaptureEvents Fields} (consistent : Consistent journal events)
include consistent

theorem Consistent.emit (event : CaptureEvent Fields) : Consistent (journal.emit event) events where
  covers := consistent.covers.emit logged event
  last := consistent.last
  terminal := consistent.terminal
  inner := by
    rw [log_emit, length_append]
    exact le_trans consistent.inner (Nat.le_add_right _ _)
  inStep := by
    have inStep := consistent.inStep
    unfold InStep at inStep ⊢
    cases polling : events.polling with
    | head | lagged => simpa only [polling] using inStep
    | received envelope =>
      simp only [polling, log_emit] at inStep ⊢
      exact ⟨inStep.1, mem_append_left _ inStep.2.1, inStep.2.2⟩
  finished := consistent.finished

omit logged in
theorem Consistent.nextPending (head : events.polling = .head)
    {rest : List (EventEnvelope Fields)} (pending : events.pending = envelope :: rest) :
    Consistent journal (events.nextPending envelope rest) := by
  have seen : (events.nextPending envelope rest).delivered ++
      (events.nextPending envelope rest).pending = events.delivered ++ events.pending := by
    simp [CaptureEvents.nextPending, pending]
  have later : lastOf events.delivered ≤ envelope.sequence := by
    rcases eq_nil_or_concat' events.delivered with none | ⟨earlier, newest, split⟩
    · simp [none]
    · have ordered := consistent.covers.ordered
      rw [split, pending] at ordered
      rw [split, lastOf_append_singleton]
      exact le_of_lt ((pairwise_append.mp ordered).2.2 newest (by simp) envelope (by simp))
  refine ⟨?_, ?_, ?_, consistent.inner, ?_, ?_⟩
  · rw [seen]
    exact consistent.covers
  · simp only [CaptureEvents.nextPending, lastOf_append_singleton, consistent.last]
    exact max_eq_right later
  · simp [CaptureEvents.nextPending, consistent.terminal]
  · have inStep := consistent.inStep
    unfold InStep at inStep ⊢
    rw [seen]
    simpa only [CaptureEvents.nextPending, head] using inStep
  · intro finished
    have empty := (consistent.finished finished).2.1
    rw [pending] at empty
    cases empty

theorem Consistent.received (polling : events.polling = .received envelope) :
    Consistent journal { events with
      polling := .head
      pending := events.pending ++
        journal.retained.after events.lastSequence (some envelope.sequence) ++ [envelope] } := by
  have inStep := consistent.inStep
  simp only [InStep, polling] at inStep
  obtain ⟨⟨empty, -⟩, member, newer, position⟩ := inStep
  have covers := consistent.covers
  rw [empty, append_nil] at covers
  rw [consistent.last] at newer
  refine ⟨?_, consistent.last, consistent.terminal, consistent.inner, ?_, ?_⟩
  · simpa only [empty, nil_append, consistent.last] using
      covers.extend_before logged member newer
  · simpa only [InStep, ← append_assoc, lastOf_append_singleton] using position
  · intro finished
    have head := (consistent.finished finished).2.2
    rw [polling] at head
    cases head

theorem Consistent.lagged (polling : events.polling = .lagged) :
    Consistent journal { events with
      polling := .head
      pending := events.pending ++ journal.retained.after events.lastSequence none } := by
  have inStep := consistent.inStep
  simp only [InStep, polling] at inStep
  obtain ⟨empty, -⟩ := inStep
  have covers := consistent.covers
  rw [empty, append_nil] at covers
  refine ⟨?_, consistent.last, consistent.terminal, consistent.inner, ?_, ?_⟩
  · simpa only [empty, nil_append, consistent.last] using covers.extend_all logged
  · have reached := covers.length_le_lastOf_extend_all logged
    simp only [InStep, empty, nil_append, consistent.last]
    exact le_trans consistent.inner reached
  · intro finished
    have head := (consistent.finished finished).2.2
    rw [polling] at head
    cases head

theorem Consistent.advance : Consistent journal (events.advance journal) := by
  unfold CaptureEvents.advance
  split
  case h_2 envelope polling => exact consistent.received logged polling
  case h_3 polling => exact consistent.lagged logged polling
  case h_1 head =>
    split
    case h_1 envelope rest pending => exact consistent.nextPending head pending
    case h_2 empty =>
      have inStep := consistent.inStep
      split
      case isTrue seen =>
        exact ⟨consistent.covers, consistent.last, consistent.terminal, consistent.inner,
          consistent.inStep, fun _ => ⟨seen, empty, head⟩⟩
      case isFalse unseen =>
        have unfinished : events.finished ≠ true :=
          fun finished => unseen (consistent.finished finished).1
        have answer := journal.sender.receives_recv events.inner
        generalize journal.sender.recv events.inner = received at answer
        cases answer with
        | empty behind => exact consistent
        | lagged missed later forward bound =>
          exact ⟨consistent.covers, consistent.last, consistent.terminal, bound,
            ⟨empty, Bool.eq_false_of_not_eq_true unseen⟩,
            fun finished => absurd finished unfinished⟩
        | message envelope found =>
          have number := logged.numbered _ envelope found
          have bound : events.inner + 1 ≤ journal.log.length :=
            (List.getElem?_eq_some_iff.mp found).1
          dsimp only
          split
          case isTrue old =>
            refine ⟨consistent.covers, consistent.last, consistent.terminal, bound, ?_,
              fun finished => absurd finished unfinished⟩
            simp only [InStep, head, empty, append_nil, ← consistent.last]
            omega
          case isFalse new =>
            refine ⟨consistent.covers, consistent.last, consistent.terminal, bound,
              ⟨⟨empty, Bool.eq_false_of_not_eq_true unseen⟩, mem_of_getElem? found, ?_, ?_⟩,
              fun finished => absurd finished unfinished⟩
            · exact Nat.lt_of_not_le new
            · exact le_of_eq number.symm

end Steps

/-! ## Reaching the end -/

/-- Enough stretches of polling, with nothing emitted in between, return the
end of the stream. -/
def Finishes (journal : EventJournal Fields) (events : CaptureEvents Fields) : Prop :=
  ∃ stretches, ((advance journal)^[stretches] events).finished = true

variable {journal : EventJournal Fields} {events : CaptureEvents Fields}

theorem Finishes.of_advance
    (finishes : Finishes journal (events.advance journal)) : Finishes journal events := by
  obtain ⟨stretches, finished⟩ := finishes
  exact ⟨stretches + 1, finished⟩

theorem finishes_of_terminalSeen (head : events.polling = .head) (empty : events.pending = [])
    (seen : events.terminalSeen = true) : Finishes journal events := by
  refine ⟨1, ?_⟩
  simp [advance, head, empty, seen]

theorem finishes_of_pending {position : Nat}
    (drained : ∀ events, Consistent journal events → events.polling = .head →
      events.pending = [] → events.inner = position → Finishes journal events)
    (consistent : Consistent journal events) (head : events.polling = .head)
    (inner : events.inner = position) : Finishes journal events := by
  induction pending : events.pending generalizing events with
  | nil => exact drained events consistent head pending inner
  | cons envelope rest ih =>
    apply Finishes.of_advance
    have stretch : events.advance journal = events.nextPending envelope rest := by
      simp [advance, head, pending]
    rw [stretch]
    exact ih (consistent.nextPending head pending) head inner rfl

section Ending

variable (logged : Logged journal)
  {terminal : EventEnvelope Fields} (ended : journal.log.getLast? = some terminal)
  (isTerminal : terminal.event.isTerminal = true)
include logged ended

theorem sequence_of_getLast : terminal.sequence = journal.log.length := by
  have positive := length_pos_of_mem (mem_of_getLast? ended)
  rw [getLast?_eq_getElem?] at ended
  rw [logged.numbered _ terminal ended]
  omega

theorem Consistent.getLast_delivered (consistent : Consistent journal events)
    (reached : journal.log.length ≤ lastOf events.delivered) :
    events.delivered.getLast? = some terminal := by
  have member := mem_of_getLast? ended
  have positive := length_pos_of_mem member
  rcases eq_nil_or_concat' events.delivered with none | ⟨earlier, newest, split⟩
  · rw [none, lastOf_nil] at reached
    omega
  · rw [split, lastOf_append_singleton] at reached
    have newestMember : newest ∈ journal.log :=
      consistent.covers.emitted newest (by simp [split])
    have bound := logged.numbered.sequence_le newestMember
    have number := sequence_of_getLast logged ended
    rw [logged.numbered.injective newestMember member (by omega)] at split
    simp [split]

include isTerminal

variable (consistent : Consistent journal events)
include consistent

theorem Consistent.terminalSeen_of_reached
    (reached : journal.log.length ≤ lastOf events.delivered) : events.terminalSeen = true := by
  rw [consistent.terminal, any_eq_true]
  have last := consistent.getLast_delivered logged ended reached
  exact ⟨terminal, mem_of_getLast? last, isTerminal⟩

theorem Consistent.finishes_of_head (head : events.polling = .head) : Finishes journal events := by
  -- Every answer of the channel but `empty` moves the receiver forward.
  induction distance : journal.log.length - events.inner using Nat.strong_induction_on
    generalizing events with
  | _ remaining ih =>
    apply finishes_of_pending _ consistent head rfl
    intro drained consistent head empty position
    by_cases seen : drained.terminalSeen = true
    · exact finishes_of_terminalSeen head empty seen
    have advanced := consistent.advance logged
    apply Finishes.of_advance
    have inStep := consistent.inStep
    simp only [InStep, head, empty, append_nil] at inStep
    have answer := journal.sender.receives_recv drained.inner
    simp only [CaptureEvents.advance, head, empty, seen, Bool.false_eq_true,
      ↓reduceIte] at advanced ⊢
    generalize journal.sender.recv drained.inner = received at answer advanced ⊢
    cases answer with
    | empty behind =>
      have reached : journal.log.length ≤ lastOf drained.delivered := le_trans behind inStep
      exact absurd (consistent.terminalSeen_of_reached logged ended isTerminal reached) seen
    | lagged missed later forward bound =>
      apply Finishes.of_advance
      apply ih (journal.log.length - later) _ (advanced.advance logged) rfl rfl
      have bound : later ≤ journal.log.length := bound
      omega
    | message envelope found =>
      have bound : drained.inner + 1 ≤ journal.log.length :=
        (List.getElem?_eq_some_iff.mp found).1
      have closer : journal.log.length - (drained.inner + 1) < remaining := by omega
      dsimp only at advanced ⊢
      split at advanced
      case isTrue old =>
        rw [if_pos old]
        exact ih _ closer advanced rfl rfl
      case isFalse new =>
        rw [if_neg new]
        apply Finishes.of_advance
        exact ih _ closer (advanced.advance logged) rfl rfl

theorem Consistent.finishes : Finishes journal events := by
  cases polling : events.polling with
  | head => exact consistent.finishes_of_head logged ended isTerminal polling
  | received envelope | lagged =>
    apply Finishes.of_advance
    apply (consistent.advance logged).finishes_of_head logged ended isTerminal
    simp [CaptureEvents.advance, polling]

end Ending
end CaptureEvents

/-! ## Runs -/

namespace EventSystem

structure Sound (system : EventSystem Fields) : Prop where
  logged : Logged system.journal
  consistent : ∀ events ∈ system.subscribers, events.Consistent system.journal

theorem sound_initial : Sound (initial : EventSystem Fields) where
  logged := logged_new
  consistent := by simp [initial]

theorem Sound.step {system : EventSystem Fields} (sound : system.Sound)
    (action : EventAction Fields) : (system.step action).Sound := by
  cases action with
  | emit event =>
    refine ⟨sound.logged.emit event, ?_⟩
    intro events member
    exact (sound.consistent events member).emit sound.logged event
  | subscribe =>
    refine ⟨sound.logged, ?_⟩
    intro events member
    rcases mem_append.mp member with old | new
    · exact sound.consistent events old
    · rw [mem_singleton.mp new]
      exact CaptureEvents.consistent_subscribe sound.logged
  | poll subscriber =>
    refine ⟨sound.logged, ?_⟩
    intro events member
    obtain ⟨index, found⟩ := mem_iff_getElem?.mp member
    rw [EventSystem.step, getElem?_modify] at found
    obtain ⟨previous, present, rfl⟩ := Option.map_eq_some_iff.mp found
    have consistent := sound.consistent previous (mem_of_getElem? present)
    split
    · exact consistent.advance sound.logged
    · exact consistent

theorem sound_run (actions : List (EventAction Fields)) : (run actions).Sound := by
  unfold run
  induction actions using List.reverseRecOn with
  | nil => exact sound_initial
  | append_singleton actions action ih =>
    rw [foldl_append]
    exact ih.step action

theorem log_run (actions : List (EventAction Fields)) :
    (run actions).journal.log.map event = emittedEvents actions := by
  unfold run
  induction actions using List.reverseRecOn with
  | nil => rfl
  | append_singleton actions action ih =>
    rw [foldl_append, emittedEvents, filterMap_append]
    rw [emittedEvents] at ih
    cases action with
    | emit event => simp [step, ih, EventJournal.stamp]
    | subscribe | poll subscriber => simpa [step] using ih

end EventSystem

open EventSystem

/-- The events of a whole capture: only the last one is terminal. -/
def EndsInTerminal (events : List (CaptureEvent Fields)) : Prop :=
  ∃ body terminal, events = body ++ [terminal] ∧ terminal.isTerminal = true ∧
    ∀ event ∈ body, event.isTerminal = false

/-- The envelope was delivered, and only once. -/
def DeliveredOnce (delivered : List (EventEnvelope Fields)) (envelope : EventEnvelope Fields) :
    Prop :=
  ∃! index : Nat, delivered[index]? = some envelope

/-- What a stream has delivered of the log at some moment. -/
structure Delivery (journal : EventJournal Fields) (events : CaptureEvents Fields) : Prop where
  increasing : events.delivered.Pairwise fun left right => left.sequence < right.sequence
  emitted : ∀ envelope ∈ events.delivered, envelope ∈ journal.log
  guaranteed : ∀ envelope ∈ journal.log, envelope.retention = .guaranteed →
    envelope.sequence ≤ lastOf events.delivered → DeliveredOnce events.delivered envelope
  detail : ∀ envelope ∈ journal.log, envelope.retention = .detail →
    envelope.sequence ≤ lastOf events.delivered → envelope ∉ events.delivered →
      16384 ≤ (laterDetails journal.log envelope.sequence).length

/-- What a stream that has returned its end delivered of the log. -/
structure CompleteDelivery (journal : EventJournal Fields) (events : CaptureEvents Fields) :
    Prop where
  guaranteed : ∀ envelope ∈ journal.log, envelope.retention = .guaranteed →
    DeliveredOnce events.delivered envelope
  progress : ∀ envelope, (ofClass .progress journal.log).getLast? = some envelope →
    DeliveredOnce events.delivered envelope
  terminal : ∃ envelope, envelope.event.isTerminal = true ∧
    journal.log.getLast? = some envelope ∧ events.delivered.getLast? = some envelope

theorem deliveredOnce_of_mem {delivered : List (EventEnvelope Fields)}
    (increasing : delivered.Pairwise fun left right => left.sequence < right.sequence)
    (member : envelope ∈ delivered) : DeliveredOnce delivered envelope := by
  obtain ⟨index, found⟩ := mem_iff_getElem?.mp member
  refine ⟨index, found, ?_⟩
  intro other foundOther
  obtain ⟨bound, value⟩ := List.getElem?_eq_some_iff.mp found
  obtain ⟨otherBound, otherValue⟩ := List.getElem?_eq_some_iff.mp foundOther
  rw [pairwise_iff_getElem] at increasing
  rcases Nat.lt_trichotomy other index with before | same | after
  · have below := increasing other index otherBound bound before
    rw [value, otherValue] at below
    exact absurd below (Nat.lt_irrefl _)
  · exact same
  · have below := increasing index other bound otherBound after
    rw [value, otherValue] at below
    exact absurd below (Nat.lt_irrefl _)

namespace CaptureEvents

variable {journal : EventJournal Fields} {events : CaptureEvents Fields}

section

variable (logged : Logged journal) (consistent : Consistent journal events)
include logged consistent

theorem Consistent.passable_of_not_mem (member : envelope ∈ journal.log)
    (passed : envelope.sequence ≤ lastOf events.delivered) (missing : envelope ∉ events.delivered) :
    Passable journal.log envelope := by
  have ordered := consistent.covers.ordered
  have positive := logged.numbered.pos member
  rcases eq_nil_or_concat' events.delivered with none | ⟨earlier, newest, split⟩
  · rw [none, lastOf_nil] at passed
    omega
  rw [split, lastOf_append_singleton] at passed
  have newestSeen : newest ∈ events.delivered := by simp [split]
  apply consistent.covers.complete envelope member
  · exact le_trans passed (le_lastOf ordered (mem_append_left _ newestSeen))
  · intro seen
    rcases mem_append.mp seen with delivered | pending
    · exact missing delivered
    · have newer := (pairwise_append.mp ordered).2.2 newest newestSeen envelope pending
      omega

theorem Consistent.delivery : Delivery journal events where
  increasing := (pairwise_append.mp consistent.covers.ordered).1
  emitted := fun envelope member =>
    consistent.covers.emitted envelope (mem_append_left _ member)
  guaranteed := by
    intro envelope member kept passed
    apply deliveredOnce_of_mem (pairwise_append.mp consistent.covers.ordered).1
    by_contra missing
    have passable := consistent.passable_of_not_mem logged member passed missing
    simp [Passable, kept] at passable
  detail := by
    intro envelope member kept passed missing
    have passable := consistent.passable_of_not_mem logged member passed missing
    simpa only [Passable, kept, eventCapacity] using passable

theorem Consistent.completeDelivery (finished : events.finished = true)
    (onlyLast : ∀ envelope ∈ journal.log, envelope.event.isTerminal = true →
      journal.log.getLast? = some envelope) : CompleteDelivery journal events := by
  have seen := (consistent.finished finished).1
  rw [consistent.terminal, any_eq_true] at seen
  obtain ⟨terminal, delivered, isTerminal⟩ := seen
  have delivery := consistent.delivery logged
  have ended := onlyLast terminal (delivery.emitted terminal delivered) isTerminal
  have reached : journal.log.length ≤ lastOf events.delivered := by
    rw [← sequence_of_getLast logged ended]
    exact le_lastOf delivery.increasing delivered
  have passed : ∀ envelope ∈ journal.log, envelope.sequence ≤ lastOf events.delivered :=
    fun envelope member => le_trans (logged.numbered.sequence_le member) reached
  refine ⟨?_, ?_, ?_⟩
  · intro envelope member kept
    exact delivery.guaranteed envelope member kept (passed envelope member)
  · intro envelope last
    have member := mem_ofClass.mp (mem_of_getLast? last)
    apply deliveredOnce_of_mem delivery.increasing
    by_contra missing
    have passable :=
      consistent.passable_of_not_mem logged member.1 (passed envelope member.1) missing
    simp only [Passable, member.2] at passable
    obtain ⟨later, laterMember, below⟩ := passable
    obtain ⟨earlier, split⟩ := getLast?_eq_some_iff.mp last
    have ordered : (ofClass .progress journal.log).Pairwise
        fun left right => left.sequence < right.sequence :=
      logged.numbered.pairwise.filter _
    have bound := le_lastOf ordered laterMember
    rw [split, lastOf_append_singleton] at bound
    omega
  · exact ⟨terminal, isTerminal, ended, consistent.getLast_delivered logged ended reached⟩

theorem Consistent.finished_advance {terminal : EventEnvelope Fields}
    (ended : journal.log.getLast? = some terminal)
    (isTerminal : terminal.event.isTerminal = true) (delivered : terminal ∈ events.delivered) :
    (events.advance journal).finished = true := by
  have seen : events.terminalSeen = true := by
    rw [consistent.terminal, any_eq_true]
    exact ⟨terminal, delivered, isTerminal⟩
  have number := sequence_of_getLast logged ended
  have nothingNewer : ∀ envelope ∈ journal.log, ¬ terminal.sequence < envelope.sequence := by
    intro envelope member newer
    have bound := logged.numbered.sequence_le member
    omega
  have empty : events.pending = [] := by
    apply eq_nil_iff_forall_not_mem.mpr
    intro envelope pending
    apply nothingNewer envelope
      (consistent.covers.emitted envelope (mem_append_right _ pending))
    exact (pairwise_append.mp consistent.covers.ordered).2.2 terminal delivered
      envelope pending
  have inStep := consistent.inStep
  cases polling : events.polling with
  | head => simp [CaptureEvents.advance, polling, empty, seen]
  | received envelope | lagged =>
    simp [InStep, polling, seen] at inStep

end

end CaptureEvents

theorem getLast_of_isTerminal {log : List (EventEnvelope Fields)}
    {events : List (CaptureEvent Fields)} (ends : EndsInTerminal events)
    (emitted : log.map event <+: events) (member : envelope ∈ log)
    (isTerminal : envelope.event.isTerminal = true) :
    log.getLast? = some envelope ∧ log.map event = events := by
  obtain ⟨body, terminal, rfl, -, others⟩ := ends
  rcases prefix_concat_iff.mp emitted with whole | part
  · refine ⟨?_, whole⟩
    rcases eq_nil_or_concat' log with rfl | ⟨earlier, newest, rfl⟩
    · cases member
    · rw [map_append, map_singleton] at whole
      obtain ⟨earlierBody, -⟩ := append_inj' whole rfl
      rcases mem_append.mp member with early | isLast
      · have inBody : envelope.event ∈ body := by
          rw [← earlierBody]
          exact mem_map_of_mem early
        rw [others _ inBody] at isTerminal
        cases isTerminal
      · simp [mem_singleton.mp isLast]
  · have inBody : envelope.event ∈ body := part.subset (mem_map_of_mem member)
    rw [others _ inBody] at isTerminal
    cases isTerminal

/-- Every subscriber of every run of a capture's events: what it received so
far, that it stops right behind the terminal event with everything it is owed,
and that it gets there. -/
theorem delivery_of_run {events : List (CaptureEvent Fields)} (ends : EndsInTerminal events)
    {actions : List (EventAction Fields)} (emitted : emittedEvents actions <+: events)
    {subscriber : CaptureEvents Fields}
    (member : subscriber ∈ (run actions).subscribers) :
    Delivery (run actions).journal subscriber ∧
      (subscriber.finished = true →
        CompleteDelivery (run actions).journal subscriber ∧
          emittedEvents actions = events) ∧
      ((∃ envelope ∈ subscriber.delivered, envelope.event.isTerminal = true) →
        (subscriber.advance (run actions).journal).finished = true) ∧
      (emittedEvents actions = events → subscriber.Finishes (run actions).journal) := by
  have sound := sound_run actions
  have consistent := sound.consistent subscriber member
  have log := log_run actions
  rw [← log] at emitted ⊢
  have onlyLast {envelope : EventEnvelope Fields} := fun inLog isTerminal =>
    @getLast_of_isTerminal _ envelope _ _ ends emitted inLog isTerminal
  refine ⟨consistent.delivery sound.logged, ?_, ?_, ?_⟩
  · intro finished
    have complete := consistent.completeDelivery sound.logged finished
      fun envelope inLog isTerminal => (onlyLast inLog isTerminal).1
    obtain ⟨terminal, isTerminal, ended, -⟩ := complete.terminal
    exact ⟨complete, (onlyLast (List.mem_of_getLast? ended) isTerminal).2⟩
  · rintro ⟨terminal, delivered, isTerminal⟩
    have inLog := (consistent.delivery sound.logged).emitted terminal delivered
    exact consistent.finished_advance sound.logged (onlyLast inLog isTerminal).1 isTerminal
      delivered
  · intro whole
    obtain ⟨body, terminal, split, isTerminal, -⟩ := ends
    rcases List.eq_nil_or_concat' (run actions).journal.log with
      none | ⟨earlier, newest, logSplit⟩
    · rw [none, split] at whole
      simp at whole
    · have same : newest.event = terminal := by
        rw [logSplit, split, List.map_append, List.map_singleton] at whole
        exact List.singleton_inj.mp (List.append_inj' whole rfl).2
      apply consistent.finishes sound.logged
      · rw [logSplit]
        exact List.getLast?_concat
      · rw [same]
        exact isTerminal

/-- A capture that is cancelled while a late subscriber has polled once. -/
def startedAndCancelled : List (EventAction Unit) :=
  [.emit ⟨.captureStarted, ()⟩, .subscribe, .poll 0, .emit ⟨.captureCancelled, ()⟩]

theorem delivery_of_startedAndCancelled :
    ∃ subscriber ∈ (run startedAndCancelled).subscribers,
      subscriber.delivered.map sequence = [1] ∧
        Delivery (run startedAndCancelled).journal subscriber ∧
        subscriber.Finishes (run startedAndCancelled).journal := by
  have ends : EndsInTerminal (emittedEvents startedAndCancelled) :=
    ⟨[⟨.captureStarted, ()⟩], ⟨.captureCancelled, ()⟩, rfl, rfl, by decide⟩
  have member := List.mem_singleton_self
    ((EventJournal.new.emit ⟨.captureStarted, ()⟩).subscribe.advance
      (EventJournal.new.emit ⟨.captureStarted, ()⟩))
  have delivered := delivery_of_run ends (List.prefix_refl _) member
  exact ⟨_, member, rfl, delivered.1, delivered.2.2.2 rfl⟩

end Offprint.Capture
