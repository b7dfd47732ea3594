import Offprint.Pipeline.Accounting

/-!
# Rendered frames are accounted for

Every way through the resolution of a reference closes exactly this reference,
or ends in a limit error.  So a rendered frame leaves no reference open, for
every answer of the network and every shape of the documents, and what else can
end a rendering is a fault of the frame documents themselves.
-/

namespace Offprint.Pipeline

open Data Effect List Offprint.Effect.Fallible Model ResourceState Prod
open Offprint.Scheduler (PageUrl)

variable {Url Document : Type}

/-! ## Resolving references -/

section Resolve

variable [Sha256] {tools : RenderTools Url Document} {context : RenderContext} {frameId : Nat}
  {unsettled : Finset Nat} {state : ResourceState Url}
  {child : Bytes → Url → Nat → Nat → Render Url String} {id : Nat}

/-- Exactly the given references are left open. -/
abbrev Leaves {α : Type} (limits : CaptureLimits) (unsettled : Finset Nat) (_ : α)
    (after : ResourceState Url) : Prop :=
  Accounted limits unsettled after

/-- A resolution closes its reference or runs into a limit. -/
def Closes (context : RenderContext)
    (resolve : ActiveDocuments → Url → RenderingRole → Nat → Render Url String) : Prop :=
  ∀ active url role id unsettled state, Accounted context.limits unsettled state →
    id ∈ unsettled →
      Ensures (resolve active url role id)
        (fun _ after => Accounted context.limits (unsettled.erase id) after) HitsLimit state

section Accounts

variable {nested : ActiveDocuments → Url → RenderingRole → Nat → Render Url String}
  (accounted : Accounted context.limits unsettled state)
include accounted

theorem ensures_load (url : Url)
    (role : RenderingRole) (id : Nat) : Ensures (load tools context url role id)
      (fun loaded after => Accounted context.limits unsettled after ∧
        after.store.Holds loaded.content loaded.bytes)
      (Leaves context.limits unsettled) state := by
  unfold load onStore onBudget
  refine ensures_ofExcept_bind (fun retrieval _ => ?_) fun _ _ => accounted
  rw [ensures_bind, ensures_focus]
  apply (ContentStore.ensures_storeBody context.limits retrieval.body accounted.store).mono
  · rintro ⟨bytes, content⟩ store ⟨grown, holds⟩
    simp only [ensures_bind, ensures_focus]
    apply (CaptureBudget.ensures_reserveResourceBytes context.limits content.bytes
      state.budget).mono
    · intro _ budget resources
      exact ⟨accounted.carry resources grown _ _ _, holds⟩
    · intro _ budget resources
      exact accounted.carry resources grown _ _ _
  · intro error store grown
    exact accounted.carry rfl grown _ _ _

theorem ensures_resolveNested (closes : Closes context nested) (active : ActiveDocuments)
    (kind : DocumentKind) (reference : Reference Url) :
    Ensures (resolveNested context nested active kind reference)
      (Leaves context.limits unsettled) HitsLimit state := by
  refine (ensures_beginReference accounted).bind ?_
  rintro id opened ⟨fresh, accounted⟩
  refine (closes _ _ _ id _ _ accounted (Finset.mem_insert_self id unsettled)).bind ?_
  intro replacement closed accounted
  rw [Finset.erase_insert fresh] at accounted
  exact accounted

theorem ensures_warnPreserved (kind : DocumentKind) (inventory : Inventory Url) (id : Nat)
    (bad : OffprintError → ResourceState Url → Prop) :
    Ensures (warnPreserved frameId kind inventory id)
      (Leaves context.limits unsettled) bad state := by
  unfold warnPreserved
  split
  · exact accounted.carry rfl (.refl accounted.store) _ _ _
  · exact accounted

theorem ensures_open
    (references : List (Reference Url)) : Ensures (collect (openReference context) references)
      (fun opened after => (opened.map snd).Nodup ∧
        (∀ id ∈ opened.map snd, id ∉ unsettled) ∧
        Accounted context.limits (unsettled ∪ (opened.map snd).toFinset) after)
      HitsLimit state := by
  induction references generalizing unsettled state with
  | nil => simpa [collect] using accounted
  | cons reference rest ih =>
    rw [collect, openReference, ensures_bind]
    refine (ensures_beginReference accounted).bind ?_
    rintro id opened ⟨fresh, accounted⟩
    refine (ih accounted).bind ?_
    rintro others after ⟨distinct, apart, accounted⟩
    simp only [ensures_pure, map_cons, nodup_cons, mem_cons]
    refine ⟨⟨?_, distinct⟩, ?_, ?_⟩
    · intro member
      exact apart id member (Finset.mem_insert_self id unsettled)
    · rintro other (rfl | member)
      · exact fresh
      · exact fun isOpen => apart other member (Finset.mem_insert_of_mem isOpen)
    · rw [toFinset_cons, Finset.union_insert, ← Finset.insert_union]
      exact accounted

variable [PageUrl Url]

theorem ensures_recordEmbedded (isOpen : id ∈ unsettled) (url : Url) (mediaType : String)
    (bytes : Bytes) (stored : Option StoredContent)
    (fits : ∀ content ∈ stored, state.store.Holds content bytes) :
    Ensures (recordEmbedded tools context frameId url id mediaType bytes stored)
      (Leaves context.limits (unsettled.erase id)) HitsLimit state := by
  unfold recordEmbedded onStore
  rw [ensures_bind, ensures_focus]
  apply (ContentStore.ensures_commitBytes context.limits bytes stored accounted.store fits).mono
  · rintro content store ⟨grown, member⟩
    have settled := accounted.settle_embedded
      ⟨id, frameId, url, .embedded content.digest mediaType content.bytes⟩ grown member rfl isOpen
    simp only [ensures_bind, ensures_modify, ensures_get]
    split
    · next known =>
      simp only [ensures_bind]
      apply ensures_record (accounted.apart id isOpen)
      simpa only [ensures_pure, if_pos known] using settled
    · next unknown =>
      simp only [ensures_bind, ensures_modify]
      apply ensures_record (accounted.apart id isOpen)
      simpa only [ensures_pure, if_neg unknown] using settled
  · exact fun _ _ failed => failed

/-- A transformed document has closed what it opened; one that failed for
another reason than a limit has done so, too. -/
theorem ensures_transform (closes : Closes context nested) (active : ActiveDocuments) (url : Url)
    (kind : DocumentKind) (bytes : Bytes) (id : Nat) :
    Ensures (transform tools context frameId nested active url kind bytes id)
      (Leaves context.limits unsettled)
      (fun error after => HitsLimit error after ∨ Accounted context.limits unsettled after)
      state := by
  refine ensures_ofExcept_bind (fun _ _ => ?_) fun _ _ => .inr accounted
  refine (ensures_remainingResources context.limits).or.bind ?_
  rintro remaining state rfl
  refine ensures_ofExcept_bind (fun inventory _ => ?_) fun _ _ => .inr accounted
  refine (ensures_warnPreserved accounted kind inventory id _).bind fun _ warned accounted => ?_
  refine (ensures_collect (Leaves context.limits unsettled)
    (fun reference _ _ accounted => ensures_resolveNested accounted closes
      ((kind, urlKey url) :: active) kind reference) accounted).or.bind ?_
  intro replacements after accounted
  rw [ensures_ofExcept]
  exact ⟨fun _ _ => accounted, fun _ _ => .inr accounted⟩

theorem ensures_loadOnce (url : Url)
    (role : RenderingRole) (id : Nat) : Ensures (loadOnce tools context url role id)
      (fun loaded after => Accounted context.limits unsettled after ∧
        after.store.Holds loaded.content loaded.bytes)
      (Leaves context.limits unsettled) state := by
  simp only [loadOnce, ensures_bind, ensures_get]
  split
  · exact accounted
  · exact ensures_load accounted url role id

theorem ensures_rememberFailure (url : Url)
    (error : OffprintError) (bad : OffprintError → ResourceState Url → Prop) :
    Ensures (rememberFailure context url error)
      (Leaves context.limits unsettled) bad state := by
  simp only [rememberFailure, ensures_modify]
  split
  · exact accounted
  · exact accounted.carry rfl (.refl accounted.store) _ _ _

end Accounts

section References

variable {nested : ActiveDocuments → Url → RenderingRole → Nat → Render Url String}
  (tolerated : context.missingResources = .warn)
include tolerated

theorem ensures_missing (accounted : Accounted context.limits unsettled state)
    (isOpen : id ∈ unsettled) (url : Url) (role : RenderingRole) (error : OffprintError)
    (bad : OffprintError → ResourceState Url → Prop) :
    Ensures (missing tools context frameId url role id error)
      (Leaves context.limits (unsettled.erase id)) bad state := by
  unfold missing
  rw [ensures_bind]
  apply ensures_record (accounted.apart id isOpen)
  simp only [tolerated, ensures_bind, ensures_modify, warn, ensures_pure]
  have settled := accounted.settle_failed
    ⟨id, frameId, url, .failed ⟨error.code, error.message, error.retryable⟩⟩ rfl isOpen
  exact settled.carry rfl (.refl settled.store) _ _ _

variable [PageUrl Url] {nestedDepth : Nat}

theorem ensures_embed
    (closes : (∃ kind, nestedDepth < context.limits.depthOf kind) → Closes context nested)
    (accounted : Accounted context.limits unsettled state) (isOpen : id ∈ unsettled)
    (active : ActiveDocuments) (url : Url) (role : RenderingRole) {loaded : LoadedResourceData}
    (holds : state.store.Holds loaded.content loaded.bytes) :
    Ensures (embed tools context frameId nested nestedDepth active url role id loaded)
      (Leaves context.limits (unsettled.erase id)) HitsLimit state := by
  unfold embed
  split
  · apply ensures_recordEmbedded accounted isOpen
    intro content isContent
    obtain rfl := Option.some.inj isContent
    exact holds
  · next kind _ =>
    split_ifs with deep cycle
    · exact ensures_missing tolerated accounted isOpen url role _ _
    · exact ensures_missing tolerated accounted isOpen url role _ _
    · rw [ensures_bind, ensures_attempt]
      have closes := closes ⟨kind, Nat.lt_of_not_le deep⟩
      apply (ensures_transform accounted closes active url kind loaded.bytes id).mono
      · intro bytes after accounted
        exact ensures_recordEmbedded accounted isOpen url loaded.mediaType bytes none nofun
      · intro error after failed
        simp only
        split_ifs with limit
        · exact limit
        · exact ensures_missing tolerated (failed.resolve_left limit) isOpen url role error _

theorem closes_resolveWith
    (closes : (∃ kind, nestedDepth < context.limits.depthOf kind) → Closes context nested) :
    Closes context (resolveWith tools context frameId nested nestedDepth) := by
  intro active url role id unsettled state accounted isOpen
  unfold resolveWith
  rw [ensures_bind, ensures_attempt]
  apply (ensures_loadOnce accounted url role id).mono
  · rintro loaded after ⟨accounted, holds⟩
    exact ensures_embed tolerated closes accounted isOpen active url role holds
  · intro error after accounted
    refine (ensures_rememberFailure accounted url error _).bind fun _ remembered accounted => ?_
    exact ensures_missing tolerated accounted isOpen url role error _

theorem closes_resolveAt (levels : Nat) :
    Closes context (resolveAt tools context frameId levels) := by
  induction levels with
  | zero =>
    apply closes_resolveWith tolerated
    rintro ⟨kind, shallow⟩
    have bound := context.limits.depthOf_le kind
    omega
  | succ levels ih =>
    apply closes_resolveWith tolerated
    intro _
    exact ih

theorem ensures_resolveReferences
    (accounted : Accounted context.limits unsettled state) (references : List (Reference Url)) :
    Ensures (resolveReferences tools context frameId references)
      (Leaves context.limits unsettled) HitsLimit state := by
  refine (ensures_open accounted references).bind ?_
  rintro opened openedState ⟨distinct, apart, accounted⟩
  -- What is left of the loop is still open, and nothing else of the frame.
  apply (ensures_collect
    (fun left after => (left.map snd).Nodup ∧
      (∀ id ∈ left.map snd, id ∉ unsettled) ∧
      Accounted context.limits (unsettled ∪ (left.map snd).toFinset) after)
    ?_ ⟨distinct, apart, accounted⟩).mono
  · rintro replacements after ⟨-, -, accounted⟩
    simpa using accounted
  · exact fun _ _ failed => failed
  · rintro ⟨reference, id⟩ rest state ⟨distinct, apart, accounted⟩
    simp only [map_cons, nodup_cons, mem_cons] at distinct apart accounted
    have others : (unsettled ∪ (id :: rest.map snd).toFinset).erase id =
        unsettled ∪ (rest.map snd).toFinset := by
      rw [toFinset_cons, Finset.union_insert, Finset.erase_insert]
      simp only [Finset.mem_union, mem_toFinset, not_or]
      exact ⟨apart id (.inl rfl), distinct.1⟩
    have isOpen : id ∈ unsettled ∪ (id :: rest.map snd).toFinset := by simp
    refine (closes_resolveAt tolerated context.limits.deepest [] reference.url reference.role id
      _ _ accounted isOpen).bind fun replacement after closed => ?_
    rw [others] at closed
    exact ⟨distinct.2, fun other member => apart other (.inr member), closed⟩

end References

/-! ## Frames -/

/-- What is wrong with a frame document itself: frames that are nested too
deep, have no base or no identifier left, and errors of finding or replacing
its frames and references. -/
inductive DocumentFault (tools : RenderTools Url Document) : OffprintError → Prop where
  | frameDepth {error} : error.code = "offprint.frame.depth" → DocumentFault tools error
  | frameLimit {error} : error.code = "offprint.frame.limit" → DocumentFault tools error
  | frameBase {error} : error.code = "offprint.collector.base_url" → DocumentFault tools error
  | frames {error} (source frames replacements) :
      tools.replaceInlineFrames source frames replacements = .error error →
        DocumentFault tools error
  | references {error} (document baseUrl maximum) :
      tools.discoverDocument document baseUrl maximum = .error error → DocumentFault tools error
  | rewriting {error} (document baseUrl maximum replacements) :
      tools.rewriteDocument document baseUrl maximum replacements = .error error →
        DocumentFault tools error

/-- A rendering that leaves the accounts as complete as it found them. -/
def Balanced (tools : RenderTools Url Document) (context : RenderContext)
    (render : Bytes → Url → Nat → Nat → Render Url String) (depth : Nat) : Prop :=
  ∀ source baseUrl frameId unsettled state, Accounted context.limits unsettled state →
    Ensures (render source baseUrl frameId depth)
      (fun _ after => Accounted context.limits unsettled after)
      (fun error after => HitsLimit error after ∨ DocumentFault tools error) state

theorem ensures_renderInlineFrame {depth : Nat}
    (balanced : depth + 1 ≤ context.limits.frameDepth → Balanced tools context child (depth + 1))
    (accounted : Accounted context.limits unsettled state) (baseUrl : Url) (frame : InlineFrame) :
    Ensures (renderInlineFrame tools context child baseUrl depth frame)
      (Leaves context.limits unsettled)
      (fun error after => HitsLimit error after ∨ DocumentFault tools error) state := by
  unfold renderInlineFrame
  split_ifs with numeric deep
  · exact .inr (.frameDepth (by simp))
  · exact .inr (.frameDepth (by simp [frameDepthError]))
  · have based : Ensures (frameBase tools baseUrl frame) (fun _ after => after = state)
        (fun error after => HitsLimit error after ∨ DocumentFault tools error) state := by
      unfold frameBase
      split
      · split
        · rfl
        · exact .inr (.frameBase (by simp))
      · rfl
    refine based.bind ?_
    rintro base _ rfl
    simp only [beginInlineFrame, ensures_bind, ensures_get]
    split
    · exact .inr (.frameLimit (by simp))
    · simp only [ensures_bind, ensures_modify, ensures_pure]
      exact (balanced (Nat.le_of_not_lt deep) _ _ _ _ _
        (accounted.carry rfl (.refl accounted.store) _ _ _)).mono
        (fun _ _ accounted => accounted) fun _ _ failed => failed

section Frames

variable [PageUrl Url] (tolerated : context.missingResources = .warn)
include tolerated

theorem balanced_renderWith {depth : Nat}
    (balanced : depth + 1 ≤ context.limits.frameDepth → Balanced tools context child (depth + 1)) :
    Balanced tools context (renderWith tools context child) depth := by
  intro source baseUrl frameId unsettled state accounted
  simp only [renderWith]
  refine (ensures_collect (Leaves context.limits unsettled)
    (fun frame _ _ accounted => ensures_renderInlineFrame balanced accounted baseUrl frame)
    accounted).bind fun inlined framed accounted => ?_
  refine ensures_ofExcept_bind (fun document _ => ?_) fun _ failed => .inr (.frames _ _ _ failed)
  refine (ensures_remainingResources context.limits).or.bind ?_
  rintro remaining _ rfl
  refine ensures_ofExcept_bind (fun references _ => ?_)
    fun _ failed => .inr (.references _ _ _ failed)
  refine (ensures_resolveReferences tolerated accounted references).or.bind ?_
  intro replacements after accounted
  rw [ensures_ofExcept]
  exact ⟨fun _ _ => accounted, fun error failed => .inr (.rewriting _ _ _ _ failed)⟩

theorem balanced_renderAt (levels depth : Nat)
    (reach : context.limits.frameDepth ≤ depth + levels) :
    Balanced tools context (renderAt tools context levels) depth := by
  induction levels generalizing depth with
  | zero =>
    apply balanced_renderWith tolerated
    omega
  | succ levels ih =>
    apply balanced_renderWith tolerated
    intro _
    exact ih (depth + 1) (by omega)

theorem balanced_renderFrameDocument (depth : Nat) :
    Balanced tools context (renderFrameDocument tools context) depth := by
  intro source baseUrl frameId unsettled state accounted
  exact balanced_renderAt tolerated _ depth (by omega) source baseUrl frameId unsettled state
    accounted

end Frames

end Resolve

/-! ## The accounts of a capture -/

section Capture

variable [PageUrl Url] [Sha256] {tools : RenderTools Url Document} {context : RenderContext}
  {state : ResourceState Url} {limits : CaptureLimits}

/-- Exactly one terminal record per discovered reference, with identifiers from
zero on, and counters that agree with the records. -/
structure CompleteAccounting (state : ResourceState Url) : Prop where
  identifiers : state.records.keys.Perm (List.range state.summary.discovered)
  outcomes : state.summary.discovered = state.summary.embedded + state.summary.failed
  embedded : state.summary.embedded = (embeddedBodies state.records).length
  embeddedBytes : state.summary.embeddedBytes =
    ((embeddedBodies state.records).dedup.map snd).sum
  sizes : ∀ left ∈ embeddedBodies state.records, ∀ right ∈ embeddedBodies state.records,
    left.1 = right.1 → left = right

omit [PageUrl Url] in
theorem Accounted.complete (accounted : Accounted limits ∅ state) :
    CompleteAccounting state where
  identifiers := by
    rw [perm_ext_iff_of_nodup accounted.distinct nodup_range]
    intro id
    rw [mem_range, accounted.identifiers id]
    simp
  outcomes := by
    have card := accounted.card
    rw [Finset.card_empty, Nat.zero_add] at card
    rw [accounted.failed, card]
  embedded := accounted.embedded
  embeddedBytes := accounted.embeddedBytes
  sizes := fun left isLeft right isRight same =>
    accounted.store.eq_of_mem_sizes (accounted.bodies left isLeft)
      (accounted.bodies right isRight) same

/-- The resource states of a capture: a new one, and what rendering one frame
after another makes of it. -/
inductive Reached (tools : RenderTools Url Document) (limits : CaptureLimits) :
    ResourceState Url → Prop where
  | new (nextFrameId) : Reached tools limits (new nextFrameId)
  | rendered {state after html} (context : RenderContext) (source baseUrl frameId depth) :
      Reached tools limits state → context.limits = limits → context.missingResources = .warn →
        renderFrameDocument tools context source baseUrl frameId depth state = (.ok html, after) →
          Reached tools limits after

theorem Reached.accounted (reached : Reached tools limits state) : Accounted limits ∅ state := by
  induction reached with
  | new nextFrameId => exact accounted_new nextFrameId
  | rendered context source baseUrl frameId depth _ sameLimits tolerated result
      ih =>
      subst sameLimits
      have balanced : Balanced tools context (renderFrameDocument tools context) depth :=
        balanced_renderFrameDocument tolerated depth
      have ensured := balanced source baseUrl frameId _ _ ih
      rw [Ensures, result] at ensured
      exact ensured

end Capture

/-! ## A page with one image -/

section Sample

structure ImageUrl where
  text : String
  deriving Repr, DecidableEq

instance : PageUrl ImageUrl where
  asStr := ImageUrl.text
  scheme _ := "https"
  fragment _ := none
  withoutFragment url := url
  sameOrigin _ _ := true
  pathSegments _ := none
  hostStr _ := none

@[reducible]
def constantSha256 : Sha256 where
  digest _ := .zero

attribute [local instance] constantSha256

/-- Documents with the given references, all of them to one image. -/
def imageTools (references : Except OffprintError (List (Reference ImageUrl))) :
    RenderTools ImageUrl Unit where
  retrieve _ _ _ := .ok ⟨"image/png", ⟨[[1, 2], [3]], none⟩⟩
  dataUrl mediaType _ := "data:" ++ mediaType ++ ";base64,"
  emptyResourceDataUrl _ := "data:application/octet-stream;base64,"
  inspect _ _ := .ok ()
  discover _ _ _ _ := .ok ⟨[], false⟩
  rewrite _ bytes _ _ := .ok bytes
  parseUrl text := .ok ⟨text⟩
  inlineFrames _ := []
  replaceInlineFrames _ _ _ := .ok ()
  discoverDocument _ _ _ := references
  rewriteDocument _ _ _ replacements := .ok (", ".intercalate (replacements.map snd))

def imageContext : RenderContext :=
  ⟨⟨10, 100, 100, 4, 4, by decide⟩, .warn, "session", "frame"⟩

def twoImages : RenderTools ImageUrl Unit :=
  imageTools (.ok [⟨0, ⟨"a.png"⟩, .image⟩, ⟨1, ⟨"b.png"⟩, .image⟩])

/-- A page with two references to one image. -/
def imagePage : Except OffprintError String × ResourceState ImageUrl :=
  renderFrameDocument twoImages imageContext [] ⟨"https://example.com/"⟩ 1 0 (new 2)

/-- The page has an image whose URL cannot be resolved. -/
def unresolvable : OffprintError :=
  .new "offprint.resource.url" .resource
    "resource URL http://[ cannot be resolved: invalid IPv6 address"

end Sample
end Offprint.Pipeline
