import Offprint.Chromium.EventQueue

/-!
# The event bus of the transport

Events of a session go to the page that owns the session.  A page owns what it
registered last, until it gives the session up, another page takes it over, or
the bus closes.  Pages are known by their numbers, and a history lists its actions
from the last to the first.
-/

namespace Offprint.Chromium

open List Option Function

inductive EventChannel where
  | navigation
  | offline
  | targets
  | interception
  | activity
  | resources
  deriving DecidableEq

/-- What a subscription listens to: every event, or one channel of a page. -/
inductive EventSource where
  | all
  | page (page : Nat) (channel : EventChannel)

def EventSource.among (all : Bool) (pages : Nat → Bool) : EventSource → Bool
  | .all => all
  | .page owner _ => pages owner

structure Subscription (Event : Type) where
  source : EventSource
  inbox : InboxState Event

/-- The channels of a page are open or closed as long as somebody holds it. -/
inductive PageScope where
  | isOpen
  | closed
  | dropped
  deriving DecidableEq

structure EventBus (Event : Type) where
  sessions : String → Option Nat
  pages : List Nat
  closed : Bool
  scopes : List PageScope
  subscriptions : List (Subscription Event)

inductive BusAction (Event : Type) where
  | scope (session : String)
  | register (page : Nat) (session : String)
  | unregister (page : Nat) (session : String)
  | dropPage (page : Nat)
  | subscribe (source : EventSource)
  | publish (event : Event) (size : Nat)
  | dropPublisher

/-- The limits of the inboxes, and what is known of an event: its session, and the
channels of a page that take it. -/
structure Wire (Event : Type) where
  limits : Limits
  sessionId : Event → Option String
  takes : EventChannel → Event → Bool

variable {Event : Type} (wire : Wire Event)

namespace EventBus

def new : EventBus Event :=
  ⟨fun _ => none, [], false, [], []⟩

variable (bus : EventBus Event)

def alive (page : Nat) : Bool :=
  bus.scopes[page]?.any (· ≠ .dropped)

/-- The sender behind a subscription still sends. -/
def sends (source : EventSource) : Bool :=
  source.among (!bus.closed) fun page => bus.scopes[page]? == some .isOpen

/-- Close the channels of some pages, and maybe the sender of all events. -/
def close (all : Bool) (ended : Nat → Bool) (scope : PageScope) : EventBus Event :=
  { bus with
    scopes := bus.scopes.mapIdx fun page old => if ended page then scope else old
    subscriptions := bus.subscriptions.map fun subscription =>
      if subscription.source.among all ended then
        { subscription with inbox := subscription.inbox.close }
      else subscription }

/-- The page whose channels an event is sent to. -/
def route (event : Event) : Option Nat :=
  (wire.sessionId event).bind fun session => (bus.sessions session).filter bus.alive

def reaches (event : Event) (source : EventSource) : Bool :=
  bus.sends source &&
    match source with
    | .all => true
    | .page page channel => bus.route wire event == some page && wire.takes channel event

def step : BusAction Event → EventBus Event
  | .scope session =>
    if bus.closed then { bus with scopes := bus.scopes ++ [.closed] }
    else
      { bus with
        scopes := bus.scopes ++ [.isOpen]
        pages := bus.pages ++ [bus.scopes.length]
        sessions := Function.update bus.sessions session (some bus.scopes.length) }
  | .register page session =>
    if bus.alive page then
      if bus.closed then bus.close false (· == page) .closed
      else { bus with sessions := Function.update bus.sessions session (some page) }
    else bus
  | .unregister page session =>
    if bus.alive page ∧ bus.sessions session = some page then
      { bus with sessions := Function.update bus.sessions session none }
    else bus
  | .dropPage page =>
    { bus.close false (· == page) .dropped with
      sessions := fun session => (bus.sessions session).filter (· ≠ page)
      pages := bus.pages.filter (· ≠ page) }
  | .subscribe source =>
    { bus with subscriptions := bus.subscriptions ++ [⟨source, { closed := !bus.sends source }⟩] }
  | .publish event size =>
    { bus with
      subscriptions := bus.subscriptions.map fun subscription =>
        if bus.reaches wire event subscription.source then
          { subscription with inbox := subscription.inbox.push wire.limits event size }
        else subscription }
  | .dropPublisher =>
    { bus.close true (fun page => bus.alive page && bus.pages.contains page) .closed with
      closed := true
      sessions := fun _ => none
      pages := [] }

/-- The bus after a history. -/
def run : List (BusAction Event) → EventBus Event
  | [] => new
  | action :: earlier => (run earlier).step wire action

/-! ## Closed senders -/

structure Sound (bus : EventBus Event) : Prop where
  routed : ∀ session page, bus.sessions session = some page → bus.scopes[page]? = some .isOpen
  listed : ∀ page : Nat, bus.scopes[page]? = some .isOpen → bus.closed = false ∧ page ∈ bus.pages
  halted : .closed ∈ bus.scopes → bus.closed = true
  shut : ∀ subscription ∈ bus.subscriptions, bus.sends subscription.source = false →
    subscription.inbox.closed = true

variable {bus : EventBus Event}

section

variable (sound : bus.Sound)
include sound

theorem Sound.sessions_eq_none (closed : bus.closed = true)
    (session : String) : bus.sessions session = none := by
  cases found : bus.sessions session with
  | none => rfl
  | some page =>
    have isOpen := sound.listed page (sound.routed session page found)
    simp [closed] at isOpen

theorem Sound.isOpen (opened : ¬ bus.closed = true) {page : Nat}
    (alive : bus.alive page = true) : bus.scopes[page]? = some .isOpen := by
  unfold EventBus.alive at alive
  cases found : bus.scopes[page]? with
  | none => simp [found] at alive
  | some scope =>
    cases scope with
    | isOpen => rfl
    | closed => exact absurd (sound.halted (mem_of_getElem? found)) opened
    | dropped => simp [found] at alive

theorem Sound.all_closed (closed : bus.closed = true) :
    ∀ subscription ∈ bus.subscriptions, subscription.inbox.closed = true := by
  intro subscription member
  apply sound.shut subscription member
  cases source : subscription.source with
  | all => simp [sends, EventSource.among, closed]
  | page page channel =>
    have isOpen := sound.listed page
    simp_all [sends, EventSource.among]

theorem Sound.closing {all closed : Bool} {ended : Nat → Bool}
    {scope : PageScope} {sessions : String → Option Nat} {pages : List Nat}
    (both : closed = (bus.closed || all)) (shut : scope = .dropped ∨ scope =
      .closed ∧ closed = true)
    (kept : ∀ session page, sessions session = some page →
      bus.sessions session = some page ∧ ended page = false)
    (left : ∀ page : Nat, bus.scopes[page]? = some .isOpen → ended page = false →
      all = false ∧ page ∈ pages) :
    Sound { bus.close all ended scope with closed, sessions, pages } := by
  have scopes (page : Nat) : (bus.close all ended scope).scopes[page]? = some .isOpen ↔
      bus.scopes[page]? = some .isOpen ∧ ended page = false := by
    simp only [close, getElem?_mapIdx, map_eq_some_iff]
    grind
  constructor
  · intro session page found
    obtain ⟨before, isLeft⟩ := kept session page found
    exact (scopes page).mpr ⟨sound.routed session page before, isLeft⟩
  · intro page isOpen
    obtain ⟨before, isLeft⟩ := (scopes page).mp isOpen
    obtain ⟨some, member⟩ := left page before isLeft
    exact ⟨by simp [both, some, (sound.listed page before).1], member⟩
  · intro member
    obtain ⟨page, inside, same⟩ := mem_mapIdx.mp member
    have halted := sound.halted
    grind
  · intro subscription member silent
    obtain ⟨old, isOld, rfl⟩ := mem_map.mp member
    by_cases spared : old.source.among all ended
    · simp [spared, InboxState.close]
    · simp only [spared] at silent ⊢
      apply sound.shut old isOld
      cases source : old.source with
      | all | page page channel => simp_all [sends, EventSource.among]

/-- A new page changes nothing about the others. -/
theorem Sound.scoped {scope : PageScope} {sessions : String → Option Nat}
    {pages : List Nat} (kept : ∀ session page, sessions session = some page →
      (bus.scopes ++ [scope])[page]? = some .isOpen) (listed : bus.pages ⊆ pages)
    (new : scope = .closed ∧ bus.closed = true ∨
      scope = .isOpen ∧ bus.closed = false ∧ bus.scopes.length ∈ pages) :
    Sound { bus with scopes := bus.scopes ++ [scope], sessions, pages } := by
  refine ⟨kept, ?_, ?_, ?_⟩
  · intro page isOpen
    rw [getElem?_append] at isOpen
    have := sound.listed page
    grind
  · intro member
    have := sound.halted
    grind
  · intro subscription member silent
    apply sound.shut subscription member
    cases source : subscription.source with
    | all => simpa [sends, EventSource.among, source] using silent
    | page page channel =>
      simp only [sends, EventSource.among, source] at silent ⊢
      grind

theorem Sound.step (action : BusAction Event) : (bus.step wire action).Sound := by
  cases action with
  | scope session =>
    simp only [EventBus.step]
    split
    · next closed =>
      refine sound.scoped ?_ (List.Subset.refl _) (.inl ⟨rfl, closed⟩)
      simp [sound.sessions_eq_none closed]
    · next isOpen =>
      refine sound.scoped ?_ (by simp) (.inr ⟨rfl, by simpa using isOpen, by simp⟩)
      intro other page found
      have := sound.routed other page
      grind [update_apply]
  | register page session =>
    simp only [EventBus.step]
    split
    · next alive =>
      split
      · next closed =>
        exact sound.closing (by simp) (.inr ⟨rfl, closed⟩)
          (by simp [sound.sessions_eq_none closed])
          fun other isOpen _ => ⟨rfl, (sound.listed other isOpen).2⟩
      · next opened =>
        refine ⟨?_, sound.listed, sound.halted, sound.shut⟩
        intro other owner found
        have := sound.routed other owner
        have := sound.isOpen opened alive
        grind [update_apply]
    · exact sound
  | unregister page session =>
    simp only [EventBus.step]
    split
    · refine ⟨?_, sound.listed, sound.halted, sound.shut⟩
      intro other owner found
      have := sound.routed other owner
      grind [update_apply]
    · exact sound
  | dropPage page =>
    refine sound.closing (Bool.or_false _).symm (.inl rfl) (by simp [filter_eq_some_iff]) ?_
    intro other isOpen spared
    have := (sound.listed other isOpen).2
    simp_all
  | subscribe source =>
    refine ⟨sound.routed, sound.listed, sound.halted, ?_⟩
    intro subscription member silent
    rcases mem_append.mp member with old | new
    · exact sound.shut subscription old silent
    · obtain rfl := mem_singleton.mp new
      exact congrArg not silent
  | publish event size =>
    refine ⟨sound.routed, sound.listed, sound.halted, ?_⟩
    intro subscription member silent
    obtain ⟨old, isOld, rfl⟩ := mem_map.mp member
    by_cases reached : bus.reaches wire event old.source = true
    · have sends := (Bool.and_eq_true_iff.mp reached).1
      rw [if_pos reached] at silent
      exact absurd (silent.symm.trans sends) Bool.false_ne_true
    · rw [if_neg reached] at silent ⊢
      exact sound.shut old isOld silent
  | dropPublisher =>
    refine sound.closing (by simp) (.inr ⟨rfl, rfl⟩) (by simp) ?_
    intro other isOpen spared
    have member := (sound.listed other isOpen).2
    simp [alive, isOpen, member] at spared

end

variable (event : Event) (history : List (BusAction Event))

theorem sound_run : (run wire history).Sound := by
  induction history with
  | nil => exact ⟨nofun, nofun, nofun, nofun⟩
  | cons action earlier ih => exact ih.step wire action

/-! ## Owners -/

/-- The action makes a page the owner of a session. -/
def Registers (bus : EventBus Event) (page : Nat) (session : String) : BusAction Event → Prop
  | .scope entered => bus.closed = false ∧ entered = session ∧ page = bus.scopes.length
  | .register owner entered =>
    bus.closed = false ∧ entered = session ∧ page = owner ∧ bus.alive page = true
  | _ => False

/-- The action takes a session from the page that owns it. -/
def Releases (bus : EventBus Event) (page : Nat) (session : String) : BusAction Event → Prop
  | .scope entered => entered = session
  | .register owner entered => entered = session ∧ owner ≠ page ∧ bus.alive owner = true
  | .unregister owner left => owner = page ∧ left = session
  | .dropPage owner => owner = page
  | .dropPublisher => True
  | _ => False

/-- The page registered the session last, and still owns it. -/
def Owns (page : Nat) (session : String) : List (BusAction Event) → Prop
  | [] => False
  | action :: earlier =>
    Registers (run wire earlier) page session action ∨
      Owns page session earlier ∧
        ¬ Releases (run wire earlier) page session action

theorem Sound.sessions_step (sound : bus.Sound) (page : Nat) (session : String)
    (action : BusAction Event) :
    (bus.step wire action).sessions session = some page ↔
      Registers bus page session action ∨
        bus.sessions session = some page ∧ ¬ Releases bus page session action := by
  have routed := sound.routed session page
  have none := sound.sessions_eq_none
  have alive : bus.sessions session = some page → bus.alive page = true := by
    intro found
    simp [EventBus.alive, routed found]
  cases action with
  | scope entered =>
    simp only [EventBus.step, Registers, Releases]
    split <;> grind [update_apply]
  | register owner entered =>
    simp only [EventBus.step, Registers, Releases, EventBus.close]
    split
    · split <;> grind [update_apply]
    · grind
  | unregister owner left =>
    simp only [EventBus.step, Registers, Releases]
    split <;> grind [update_apply]
  | dropPage owner =>
    simp only [EventBus.step, Registers, Releases, filter_eq_some_iff]
    grind
  | _ => simp [EventBus.step, Registers, Releases]

theorem sessions_run (page : Nat) (session : String) :
    (run wire history).sessions session = some page ↔
      Owns wire page session history := by
  induction history with
  | nil => simp [run, new, Owns]
  | cons action earlier ih =>
    rw [Owns, ← ih]
    exact (sound_run wire earlier).sessions_step ..

theorem closed_run : (run wire history).closed = true ↔ .dropPublisher ∈ history := by
  induction history with
  | nil => simp [run, new]
  | cons action earlier ih =>
    rw [mem_cons, ← ih]
    cases action <;> simp only [run, step] <;> (repeat' split) <;> simp_all [close]

/-- Who is to get an event: the listeners to everything and those of the owner. -/
def Receives (event : Event) (history : List (BusAction Event)) : EventSource → Prop
  | .all => .dropPublisher ∉ history
  | .page page channel => wire.takes channel event = true ∧
      ∃ session, wire.sessionId event = some session ∧ Owns wire page session history

theorem reaches_run (source : EventSource) :
    (run wire history).reaches wire event source = true ↔
      Receives wire event history source := by
  have sound := sound_run wire history
  have owners := sessions_run wire history
  cases source with
  | all => simp [reaches, sends, EventSource.among, Receives, ← closed_run wire]
  | page page channel =>
    have routed (session : String) := sound.routed session page
    simp only [reaches, sends, EventSource.among, route, Receives, ← owners, Bool.and_eq_true,
      beq_iff_eq, bind_eq_some_iff, filter_eq_some_iff]
    grind [alive]

/-- Events of a session reach its owner, and nothing is open behind the publisher. -/
structure Isolated (history : List (BusAction Event)) : Prop where
  delivered : ∀ event size (i : Nat) subscription,
    (run wire history).subscriptions[i]? = some subscription →
    (Receives wire event history subscription.source →
      (run wire (.publish event size :: history)).subscriptions[i]? =
        some { subscription with inbox := subscription.inbox.push wire.limits event size }) ∧
    (¬ Receives wire event history subscription.source →
      (run wire (.publish event size :: history)).subscriptions[i]? =
        some subscription)
  kept : ∀ page owner session left, owner ≠ page →
    (run wire history).sessions session = some owner →
    (run wire (.unregister page left :: history)).sessions session =
        some owner ∧
      (run wire (.dropPage page :: history)).sessions session = some owner
  closed : .dropPublisher ∈ history →
    ∀ subscription ∈ (run wire history).subscriptions,
      subscription.inbox.closed = true

/-- Whatever pages come, go, and take sessions from each other. -/
theorem session_events_reach_owner (history : List (BusAction Event)) : Isolated wire history := by
  have sound := sound_run wire history
  constructor
  · intro event size i subscription found
    have published : (run wire (.publish event size :: history)).subscriptions[i]? =
        some (if (run wire history).reaches wire event subscription.source = true then
          { subscription with inbox := subscription.inbox.push wire.limits event size }
        else subscription) := by
      exact (List.getElem?_map ..).trans (congrArg _ found)
    rw [← reaches_run, published]
    exact ⟨fun reached => by rw [if_pos reached], fun missed => by rw [if_neg missed]⟩
  · intro page owner session left differs found
    have stays (action : BusAction Event)
        (harmless : ¬ Releases (run wire history) owner session action) :
        (run wire (action :: history)).sessions session = some owner :=
      (sound.sessions_step wire owner session action).mpr (.inr ⟨found, harmless⟩)
    exact ⟨stays _ fun released => differs released.1.symm,
      stays _ fun released => differs released.symm⟩
  · intro dropped
    exact sound.all_closed ((closed_run wire history).mpr dropped)

end EventBus
end Offprint.Chromium
