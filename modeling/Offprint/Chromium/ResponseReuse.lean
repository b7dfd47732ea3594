import Mathlib.Data.Prod.Lex
import Mathlib.Data.String.Basic
import Offprint.Network.Guard
import Offprint.Scheduler.Manifest

/-!
# Reusable responses

A resource that a page has loaded already is taken from what was observed of its
session.  The observations of one URL in one frame decide the answer alone.
-/

namespace Offprint.Chromium

open Model Network Scheduler List

variable {Url : Type}

structure RequestVariant where
  method : String
  hasBody : Bool
  headersDigest : ContentDigest
  deriving Repr, DecidableEq

def RequestVariant.reusable (variant : RequestVariant) : Bool :=
  eqIgnoreAsciiCase variant.method "GET" && !variant.hasBody

inductive ObservedBody where
  | streaming (bytes : List UInt8)
  | complete (bytes : List UInt8)
  | unavailable
  | tooLarge (attempted limit : Nat)
  deriving Repr, DecidableEq

def ObservedBody.excess : ObservedBody → Option (Nat × Nat)
  | .tooLarge attempted limit => some (attempted, limit)
  | _ => none

structure ObservedRequest (Url : Type) where
  frameId : Option String
  urls : List Url
  body : ObservedBody

structure ObservedResponse (Url : Type) where
  sequence : Nat
  sessionId : String
  frameId : Option String
  url : Url
  requestUrls : List Url
  requestVariant : Option RequestVariant
  status : Nat
  mediaType : Option String
  body : ObservedBody
  streamPending : Bool
  finished : Bool
  failed : Bool

/-- The session of a request and its number there. -/
abbrev RequestKey : Type :=
  String × String

/-- Entries in the order of their keys. -/
def KeysSorted {Value : Type} (entries : List (RequestKey × Value)) : Prop :=
  entries.Pairwise fun first second => toLex first.1 < toLex second.1

structure ObservedResourceState (Url : Type) where
  requests : List (RequestKey × ObservedRequest Url)
  records : List (RequestKey × ObservedResponse Url)
  requestsSorted : KeysSorted requests
  recordsSorted : KeysSorted records

inductive ResponseSelection (Url : Type) where
  | missing
  | pending
  | ready (response : ObservedResponse Url)
  | ambiguous
  | unavailable
  | tooLarge (attempted limit : Nat)

def ObservedResponse.usable (response : ObservedResponse Url) : Bool :=
  response.finished && !response.failed

def responsesAreEquivalent (left right : ObservedResponse Url) : Bool :=
  left.status == right.status && left.mediaType == right.mediaType &&
    match left.body, right.body with
    | .complete left, .complete right => left == right
    | _, _ => false

/-- The response with the largest sequence number, the last of those there are. -/
def latest (responses : List (ObservedResponse Url)) : Option (ObservedResponse Url) :=
  responses.foldl (fun best response =>
    match best with
    | some best => some (if best.sequence ≤ response.sequence then response else best)
    | none => some response) none

section Select

variable [PageUrl Url] (sessionId frameId : String) (url : Url)

def networkUrlIdentity (url : Url) : String :=
  PageUrl.asStr (PageUrl.withoutFragment url)

def matchesRequest (entry : RequestKey × ObservedRequest Url) : Bool :=
  entry.1.1 == sessionId && entry.2.frameId.all (· == frameId) &&
    entry.2.urls.any fun other => networkUrlIdentity other == networkUrlIdentity url

def matchesResponse (entry : RequestKey × ObservedResponse Url) : Bool :=
  entry.2.sessionId == sessionId && entry.2.frameId.all (· == frameId) &&
    (networkUrlIdentity entry.2.url == networkUrlIdentity url ||
      entry.2.requestUrls.any fun other => networkUrlIdentity other == networkUrlIdentity url)

/-- The choice among the observations that match. -/
def chooseResponse (requests : List (ObservedRequest Url))
    (candidates : List (ObservedResponse Url)) : ResponseSelection Url :=
  if candidates.isEmpty then
    match requests.findSome? (·.body.excess) with
    | some (attempted, limit) => .tooLarge attempted limit
    | none =>
      if requests.any (·.body == .unavailable) then .unavailable
      else if requests.isEmpty then .missing
      else .pending
  else if !requests.isEmpty ||
      candidates.any fun response => response.streamPending || !response.finished then
    .pending
  else if (candidates.filterMap (·.requestVariant)).dedup.length != 1 ||
      candidates.any fun response => response.requestVariant.all (!·.reusable) then
    .ambiguous
  else
    match latest (candidates.filter fun response =>
      response.usable && response.body matches .complete _) with
    | none =>
      match candidates.findSome? (·.body.excess) with
      | some (attempted, limit) => .tooLarge attempted limit
      | none => .unavailable
    | some newest =>
      if candidates.any fun response => response.usable && !responsesAreEquivalent response newest
      then .ambiguous
      else .ready newest

def selectReusableResponse (state : ObservedResourceState Url) : ResponseSelection Url :=
  chooseResponse ((state.requests.filter (matchesRequest sessionId frameId url)).map Prod.snd)
    ((state.records.filter (matchesResponse sessionId frameId url)).map Prod.snd)

end Select

/-! ## What is reused -/

theorem mem_of_latest {responses : List (ObservedResponse Url)} {newest : ObservedResponse Url}
    (found : latest responses = some newest) : newest ∈ responses := by
  induction responses using reverseRecOn generalizing newest with
  | nil => cases found
  | append_singleton responses last ih =>
    rw [latest, foldl_concat] at found
    change (match latest responses with
      | some best => some (if best.sequence ≤ last.sequence then last else best)
      | none => some last) = some newest at found
    split at found
    · next best chosen =>
      split_ifs at found <;> cases found
      · simp
      · simp [ih chosen]
    · cases found
      simp

/-- What holds of the response chosen among all that match. -/
structure Chosen (requests : List (ObservedRequest Url)) (candidates : List (ObservedResponse Url))
    (response : ObservedResponse Url) : Prop where
  candidate : response ∈ candidates
  finished : response.finished = true
  succeeded : response.failed = false
  complete : ∃ bytes, response.body = .complete bytes
  quiet : requests = []
  settled : ∀ other ∈ candidates, other.streamPending = false ∧ other.finished = true
  variant : ∃ variant : RequestVariant, variant.reusable = true ∧
    ∀ other ∈ candidates, other.requestVariant = some variant
  alike : ∀ other ∈ candidates, other.failed = false →
    other.status = response.status ∧ other.mediaType = response.mediaType ∧
      other.body = response.body

theorem eq_of_responsesAreEquivalent {left right : ObservedResponse Url}
    (equivalent : responsesAreEquivalent left right = true) :
    left.status = right.status ∧ left.mediaType = right.mediaType ∧ left.body = right.body := by
  simp only [responsesAreEquivalent, Bool.and_eq_true, beq_iff_eq] at equivalent
  obtain ⟨⟨status, mediaType⟩, body⟩ := equivalent
  refine ⟨status, mediaType, ?_⟩
  split at body
  · next first second => rw [first, second, eq_of_beq body]
  · cases body

theorem chosen_of_ready {requests : List (ObservedRequest Url)}
    {candidates : List (ObservedResponse Url)} {response : ObservedResponse Url}
    (ready : chooseResponse requests candidates = .ready response) :
    Chosen requests candidates response := by
  unfold chooseResponse at ready
  split at ready
  · repeat' split at ready
    all_goals cases ready
  split at ready
  · cases ready
  next settled =>
  split at ready
  · cases ready
  next same =>
  split at ready
  · split at ready <;> cases ready
  next found =>
  split at ready
  · cases ready
  next alike =>
  cases ready
  obtain ⟨candidate, usable⟩ := mem_filter.mp (mem_of_latest found)
  simp only [Bool.or_eq_true, Bool.not_eq_true', List.any_eq_true, not_or, not_exists, not_and,
    Bool.not_eq_true, Bool.not_eq_false, bne_eq_false_iff_eq, List.isEmpty_iff, Bool.and_eq_true,
    ObservedResponse.usable] at settled same alike usable
  obtain ⟨⟨finished, succeeded⟩, complete⟩ := usable
  obtain ⟨variant, only⟩ := length_eq_one_iff.mp same.1
  have shared : ∀ other ∈ candidates, other.requestVariant = some variant ∧
      variant.reusable = true := by
    intro other member
    have reusable := same.2 other member
    cases given : other.requestVariant with
    | none => simp [given] at reusable
    | some own =>
      have listed : own ∈ (candidates.filterMap (·.requestVariant)).dedup :=
        mem_dedup.mpr (mem_filterMap.mpr ⟨other, member, given⟩)
      rw [only, mem_singleton] at listed
      exact ⟨by rw [listed], by simpa [given, listed] using reusable⟩
  refine ⟨candidate, finished, succeeded, ?_, settled.1, settled.2,
    ⟨variant, (shared response candidate).2, fun other member => (shared other member).1⟩, ?_⟩
  · split at complete
    · next bytes body => exact ⟨bytes, body⟩
    · cases complete
  · intro other member fine
    exact eq_of_responsesAreEquivalent (alike other member ⟨(settled.2 other member).2, fine⟩)

/-! ## What others cannot change -/

section Isolation

variable {Value : Type} {left right : List (RequestKey × Value)}

/-- The same entries of a kind stand in both lists. -/
def SameEntries (kind : RequestKey × Value → Bool) (left right : List (RequestKey × Value)) :
    Prop :=
  ∀ entry, kind entry = true → (entry ∈ left ↔ entry ∈ right)

theorem filter_eq_of_sameEntries {kind : RequestKey × Value → Bool} (leftSorted : KeysSorted left)
    (rightSorted : KeysSorted right) (same : SameEntries kind left right) :
    left.filter kind = right.filter kind := by
  have irrefl : Std.Irrefl fun first second : RequestKey × Value =>
      toLex first.1 < toLex second.1 := ⟨fun _ => lt_irrefl _⟩
  have antisymm : Std.Antisymm fun first second : RequestKey × Value =>
      toLex first.1 < toLex second.1 := ⟨fun _ _ before behind => absurd behind before.asymm⟩
  apply List.Subset.antisymm_of_pairwise (leftSorted.filter _) (rightSorted.filter _)
  · intro entry member
    obtain ⟨inside, fits⟩ := mem_filter.mp member
    exact mem_filter.mpr ⟨(same entry fits).mp inside, fits⟩
  · intro entry member
    obtain ⟨inside, fits⟩ := mem_filter.mp member
    exact mem_filter.mpr ⟨(same entry fits).mpr inside, fits⟩

end Isolation

section Reuse

variable [PageUrl Url]

/-- The response answered the URL, but for its fragment, in the session and the frame. -/
structure Belongs (sessionId frameId : String) (url : Url) (response : ObservedResponse Url) :
    Prop where
  session : response.sessionId = sessionId
  frame : ∀ owner ∈ response.frameId, owner = frameId
  url : networkUrlIdentity response.url = networkUrlIdentity url ∨
    ∃ other ∈ response.requestUrls, networkUrlIdentity other = networkUrlIdentity url

/-- A response is reused only if it is the settled answer to the request, and
what was observed of other sessions, frames and URLs has no say. -/
structure ReuseSound (state : ObservedResourceState Url) (sessionId frameId : String) (url : Url) :
    Prop where
  sound : ∀ response, selectReusableResponse sessionId frameId url state = .ready response →
    Belongs sessionId frameId url response ∧
    Chosen ((state.requests.filter (matchesRequest sessionId frameId url)).map Prod.snd)
      ((state.records.filter (matchesResponse sessionId frameId url)).map Prod.snd) response
  isolated : ∀ other : ObservedResourceState Url,
    SameEntries (matchesRequest sessionId frameId url) other.requests state.requests →
    SameEntries (matchesResponse sessionId frameId url) other.records state.records →
    selectReusableResponse sessionId frameId url other =
      selectReusableResponse sessionId frameId url state

theorem reuse_sound_and_isolated (state : ObservedResourceState Url) (sessionId frameId : String)
    (url : Url) : ReuseSound state sessionId frameId url := by
  refine ⟨fun response ready => ?_, fun other requests records => ?_⟩
  · have chosen := chosen_of_ready ready
    obtain ⟨entry, matching, rfl⟩ := mem_map.mp chosen.candidate
    have fits := (mem_filter.mp matching).2
    simp only [matchesResponse, Bool.and_eq_true, Bool.or_eq_true, beq_iff_eq, Option.all_eq_true,
      List.any_eq_true] at fits
    exact ⟨⟨fits.1.1, fits.1.2, fits.2⟩, chosen⟩
  rw [selectReusableResponse, selectReusableResponse,
    filter_eq_of_sameEntries other.requestsSorted state.requestsSorted requests,
    filter_eq_of_sameEntries other.recordsSorted state.recordsSorted records]

end Reuse

end Offprint.Chromium
