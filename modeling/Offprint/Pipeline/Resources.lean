import Offprint.Pipeline.ContentStore
import Offprint.Scheduler.Manifest

/-!
# Rendering a frame with its resources

A frame document is rendered by resolving every reference it makes into a data
URL.  A stylesheet, an SVG image or an HTML document that is embedded has
references of its own, so resolution nests; the depth limits of the capture
bound how far.

`RenderTools` stands for what the functions below call: retrieving a URL, and
the parser with its discovery and rewriting of references.  A retrieval may
answer each reference differently, also for the same URL.
-/

namespace Offprint.Pipeline

open Data Effect Model OrderedMap
open Offprint.Scheduler (PageUrl)

inductive RenderingRole where
  | image
  | font
  | stylesheet
  | media
  | frame
  | svg
  | cursor
  | other
  deriving Repr, DecidableEq

/-- The media types whose bodies make references of their own. -/
inductive DocumentKind where
  | css
  | svg
  | html
  deriving Repr, DecidableEq

/-- A media type is of one kind at most. -/
def documentKind (mediaType : String) : Option DocumentKind :=
  let mediaType := mediaType.toLower
  if mediaType = "text/css" then some .css
  else if mediaType = "image/svg+xml" then some .svg
  else if mediaType = "text/html" ∨ mediaType = "application/xhtml+xml" then some .html
  else none

/-! ## Tools -/

variable {Url Document : Type}

structure Reference (Url : Type) where
  id : Nat
  url : Url
  role : RenderingRole

/-- The references of a document; `preserved` says that a stylesheet was read
by the source-preserving fallback. -/
structure Inventory (Url : Type) where
  references : List (Reference Url)
  preserved : Bool

/-- What a retrieval answers: the effective media type and the body. -/
structure Retrieval where
  mediaType : String
  body : BodyStream

structure InlineFrame where
  nodeId : Nat
  html : Bytes
  baseUrl : Option String
  captured : Bool

structure InlineFrameReplacement where
  nodeId : Nat
  html : String
  frameId : Nat

/-- Everything around the resolution of references.  `inspect` and `discover`
are the first pass over an embedded document, `rewrite` the second one. -/
structure RenderTools (Url Document : Type) where
  retrieve : Nat → Url → RenderingRole → Except OffprintError Retrieval
  dataUrl : String → Bytes → String
  emptyResourceDataUrl : RenderingRole → String
  inspect : DocumentKind → Bytes → Except OffprintError Unit
  discover : DocumentKind → Bytes → Url → Nat → Except OffprintError (Inventory Url)
  rewrite : DocumentKind → Bytes → Url → List (Nat × String) → Except OffprintError Bytes
  parseUrl : String → Except String Url
  inlineFrames : Bytes → List InlineFrame
  replaceInlineFrames : Bytes → List InlineFrame → List InlineFrameReplacement →
    Except OffprintError Document
  discoverDocument : Document → Url → Nat → Except OffprintError (List (Reference Url))
  rewriteDocument : Document → Url → Nat → List (Nat × String) → Except OffprintError String

/-! ## State -/

structure ResourceError where
  code : String
  message : String
  retryable : Bool
  deriving Repr, DecidableEq

inductive ResourceOutcome where
  | embedded (digest : ContentDigest) (mediaType : String) (bytes : Nat)
  | failed (error : ResourceError)
  deriving Repr, DecidableEq

structure ResourceRecord (Url : Type) where
  id : Nat
  frameId : Nat
  requestedUrl : Url
  outcome : ResourceOutcome

structure ResourceSummary where
  discovered : Nat
  embedded : Nat
  failed : Nat
  embeddedBytes : Nat
  deriving Repr, DecidableEq

structure CaptureWarning where
  code : String
  message : String
  frameId : Option Nat
  resourceId : Option Nat
  deriving Repr, DecidableEq

structure ResourceLoadKey where
  sessionId : String
  browserFrameId : String
  url : String
  deriving Repr, DecidableEq

structure ResourceState (Url : Type) where
  budget : CaptureBudget
  store : ContentStore
  summary : ResourceSummary
  warnings : List CaptureWarning
  records : OrderedMap Nat (ResourceRecord Url)
  failedLoads : List (ResourceLoadKey × OffprintError)
  embeddedDigests : List ContentDigest
  nextResourceId : Nat
  nextFrameId : Nat

def ResourceState.new (nextFrameId : Nat) : ResourceState Url where
  budget := ⟨0, 0⟩
  store := .empty
  summary := ⟨0, 0, 0, 0⟩
  warnings := []
  records := []
  failedLoads := []
  embeddedDigests := []
  nextResourceId := 0
  nextFrameId := nextFrameId

abbrev Render (Url : Type) : Type → Type :=
  Fallible (ResourceState Url) OffprintError

def onStore {α : Type} (program : Fallible ContentStore OffprintError α) : Render Url α :=
  Fallible.focus ResourceState.store (fun store state => { state with store := store }) program

def onBudget {α : Type} (program : Fallible CaptureBudget OffprintError α) : Render Url α :=
  Fallible.focus ResourceState.budget (fun budget state => { state with budget := budget }) program

/-- Addition that stops at the largest value of a counter. -/
def saturatingAdd (width left right : Nat) : Nat :=
  min (left + right) (2 ^ width - 1)

theorem saturatingAdd_eq {width left right : Nat} (fits : left + right < 2 ^ width) :
    saturatingAdd width left right = left + right := by
  unfold saturatingAdd
  omega

def beginReference (limits : CaptureLimits) : Render Url Nat := do
  onBudget (CaptureBudget.addResource limits)
  Fallible.modify fun state =>
    { state with
      summary.discovered := saturatingAdd 32 state.summary.discovered 1 }
  let state ← Fallible.get
  if 2 ^ 32 ≤ state.nextResourceId + 1 then
    Fallible.throw (.new limitCode .resource "resource identifiers are exhausted")
  else
    Fallible.modify fun state => { state with nextResourceId := state.nextResourceId + 1 }
    return state.nextResourceId

def remainingResources (limits : CaptureLimits) : Render Url Nat := do
  let state ← Fallible.get
  if limits.resources < state.budget.resources then
    Fallible.throw
      ((OffprintError.new limitCode .resource "resource count exceeds the configured limit")
        |>.withDetail "attempted" (numberDetail state.budget.resources)
        |>.withDetail "limit" (numberDetail limits.resources))
  else
    return limits.resources - state.budget.resources

def record (record : ResourceRecord Url) : Render Url Unit := do
  let state ← Fallible.get
  Fallible.modify fun state =>
    { state with records := insert record.id record state.records }
  if (get? record.id state.records).isSome then
    Fallible.throw (.new "offprint.resource.terminal" .resource
      s!"resource {record.id} already has a terminal outcome")
  else
    return ()

def beginInlineFrame : Render Url Nat := do
  let state ← Fallible.get
  if 2 ^ 64 ≤ state.nextFrameId + 1 then
    Fallible.throw (.new "offprint.frame.limit" .collection "frame identifiers are exhausted")
  else
    Fallible.modify fun state => { state with nextFrameId := state.nextFrameId + 1 }
    return state.nextFrameId

def warn (warning : CaptureWarning) : Render Url Unit :=
  Fallible.modify fun state => { state with warnings := state.warnings ++ [warning] }

section Rules

open Fallible

variable {state : ResourceState Url}

theorem ensures_remainingResources (limits : CaptureLimits) :
    Ensures (remainingResources limits) (fun _ after => after = state)
      (fun error _ => error.code = limitCode) state := by
  simp only [remainingResources, ensures_bind, ensures_get]
  split <;> simp

theorem ensures_record {good : Unit → ResourceState Url → Prop}
    {bad : OffprintError → ResourceState Url → Prop} {terminal : ResourceRecord Url}
    (fresh : terminal.id ∉ state.records.keys)
    (recorded : good () { state with
      records := insert terminal.id terminal state.records }) :
    Ensures (record terminal) good bad state := by
  have absent : get? terminal.id state.records = none := by
    apply get?_eq_none
    intro other member
    exact fresh (List.mem_map_of_mem (f := Prod.fst) member)
  simp only [record, ensures_bind, ensures_get, ensures_modify, absent]
  exact recorded

end Rules

/-! ## Resolution -/

inductive MissingResourcePolicy where
  | fail
  | warn
  deriving Repr, DecidableEq

structure RenderContext where
  limits : CaptureLimits
  missingResources : MissingResourcePolicy
  sessionId : String
  browserFrameId : String

/-- How deep the documents of a kind may be nested. -/
def CaptureLimits.depthOf (limits : CaptureLimits) : DocumentKind → Nat
  | .css | .svg => limits.resourceRecursionDepth
  | .html => limits.frameDepth

/-- The depth at which no document may be embedded. -/
def CaptureLimits.deepest (limits : CaptureLimits) : Nat :=
  max limits.resourceRecursionDepth limits.frameDepth

theorem CaptureLimits.depthOf_le (limits : CaptureLimits) (kind : DocumentKind) :
    limits.depthOf kind ≤ limits.deepest := by
  cases kind <;> simp only [depthOf, deepest] <;> omega

def DocumentKind.depthError : DocumentKind → OffprintError
  | .css => .new "offprint.resource.css_depth" .resource
      "CSS resource recursion exceeds the configured limit"
  | .svg => .new "offprint.resource.svg_depth" .resource
      "SVG resource depth exceeds the configured limit"
  | .html => .new "offprint.resource.html_depth" .resource
      "embedded HTML depth exceeds the configured frame limit"

def DocumentKind.cycleError : DocumentKind → OffprintError
  | .css => .new "offprint.resource.css_cycle" .resource "CSS imports contain a cycle"
  | .svg => .new "offprint.resource.svg_cycle" .resource "SVG resources contain a cycle"
  | .html => .new "offprint.resource.html_cycle" .resource
      "embedded HTML resources contain a cycle"

/-- The role of a reference inside a document of the kind. -/
def DocumentKind.roleOf (kind : DocumentKind) (reference : Reference Url) : RenderingRole :=
  match kind with
  | .css => .other
  | .svg | .html => reference.role

/-- The documents that are being embedded around the current one. -/
abbrev ActiveDocuments : Type :=
  List (DocumentKind × String)

section Resolve

variable [PageUrl Url] [Sha256] (tools : RenderTools Url Document) (context : RenderContext)
  (frameId : Nat)

def urlKey (url : Url) : String :=
  PageUrl.asStr (PageUrl.withoutFragment url)

def loadKey (url : Url) : ResourceLoadKey :=
  ⟨context.sessionId, context.browserFrameId, urlKey url⟩

structure LoadedResourceData where
  bytes : Bytes
  content : StoredContent
  mediaType : String

def load (url : Url) (role : RenderingRole) (id : Nat) : Render Url LoadedResourceData := do
  let retrieval ← Fallible.ofExcept (tools.retrieve id url role)
  let (bytes, content) ← onStore (ContentStore.storeBody context.limits retrieval.body)
  onBudget (CaptureBudget.reserveResourceBytes context.limits content.bytes)
  return ⟨bytes, content, retrieval.mediaType⟩

def recordEmbedded (url : Url) (id : Nat) (mediaType : String) (bytes : Bytes)
    (stored : Option StoredContent) : Render Url String := do
  let content ← onStore (ContentStore.commitBytes context.limits bytes stored)
  Fallible.modify fun state =>
    { state with
      summary.embedded := saturatingAdd 32 state.summary.embedded 1 }
  let state ← Fallible.get
  if content.digest ∈ state.embeddedDigests then
    pure ()
  else
    Fallible.modify fun state =>
      { state with
        embeddedDigests := content.digest :: state.embeddedDigests
        summary.embeddedBytes := saturatingAdd 64 state.summary.embeddedBytes content.bytes }
  record ⟨id, frameId, url, .embedded content.digest mediaType content.bytes⟩
  return match PageUrl.fragment url with
    | some fragment => tools.dataUrl mediaType bytes ++ "#" ++ fragment
    | none => tools.dataUrl mediaType bytes

def missing (url : Url) (role : RenderingRole) (id : Nat) (error : OffprintError) :
    Render Url String := do
  record ⟨id, frameId, url, .failed ⟨error.code, error.message, error.retryable⟩⟩
  Fallible.modify fun state =>
    { state with
      summary.failed := saturatingAdd 32 state.summary.failed 1 }
  match context.missingResources with
  | .fail => Fallible.throw error
  | .warn =>
    warn ⟨error.code, error.message, some frameId, some id⟩
    return tools.emptyResourceDataUrl role

variable (nested : ActiveDocuments → Url → RenderingRole → Nat → Render Url String)

/-- Open a reference of an embedded document and resolve it. -/
def resolveNested (active : ActiveDocuments) (kind : DocumentKind) (reference : Reference Url) :
    Render Url (Nat × String) := do
  let id ← beginReference context.limits
  let replacement ← nested active reference.url (kind.roleOf reference) id
  return (reference.id, replacement)

def warnPreserved (kind : DocumentKind) (inventory : Inventory Url) (id : Nat) : Render Url Unit :=
  if kind = .css ∧ inventory.preserved = true then
    warn ⟨"offprint.resource.css_preservation",
      "stylesheet uses source-preserving CSS resource discovery", some frameId, some id⟩
  else
    pure ()

/-- An embedded document with its references replaced. -/
def transform (active : ActiveDocuments) (url : Url) (kind : DocumentKind) (bytes : Bytes)
    (id : Nat) : Render Url Bytes := do
  Fallible.ofExcept (tools.inspect kind bytes)
  let remaining ← remainingResources context.limits
  let inventory ← Fallible.ofExcept (tools.discover kind bytes url remaining)
  warnPreserved frameId kind inventory id
  let replacements ←
    Fallible.collect (resolveNested context nested ((kind, urlKey url) :: active) kind)
      inventory.references
  Fallible.ofExcept (tools.rewrite kind bytes url replacements)

/-- Embed what was loaded, with `nested` for the references inside it. -/
def embed (nestedDepth : Nat) (active : ActiveDocuments) (url : Url) (role : RenderingRole)
    (id : Nat) (loaded : LoadedResourceData) : Render Url String :=
  match documentKind loaded.mediaType with
  | none =>
    recordEmbedded tools context frameId url id loaded.mediaType loaded.bytes
      (some loaded.content)
  | some kind =>
    if context.limits.depthOf kind ≤ nestedDepth then
      missing tools context frameId url role id kind.depthError
    else if (kind, urlKey url) ∈ active then
      missing tools context frameId url role id kind.cycleError
    else do
      match ← Fallible.attempt
        (transform tools context frameId nested active url kind loaded.bytes id) with
      | .ok bytes => recordEmbedded tools context frameId url id loaded.mediaType bytes none
      | .error error =>
        if error.code = limitCode then Fallible.throw error
        else missing tools context frameId url role id error

/-- Load a URL, unless loading it has failed before. -/
def loadOnce (url : Url) (role : RenderingRole) (id : Nat) : Render Url LoadedResourceData := do
  let state ← Fallible.get
  match (state.failedLoads.find? fun failed => failed.1 = loadKey context url).map Prod.snd with
  | some error => Fallible.throw error
  | none => load tools context url role id

def rememberFailure (url : Url) (error : OffprintError) : Render Url Unit :=
  Fallible.modify fun state =>
    if (state.failedLoads.find? fun failed => failed.1 = loadKey context url).isSome then
      state
    else
      { state with failedLoads := (loadKey context url, error) :: state.failedLoads }

def resolveWith (nestedDepth : Nat) (active : ActiveDocuments) (url : Url) (role : RenderingRole)
    (id : Nat) : Render Url String := do
  match ← Fallible.attempt (loadOnce tools context url role id) with
  | .error error => do
      rememberFailure context url error
      missing tools context frameId url role id error
  | .ok loaded => embed tools context frameId nested nestedDepth active url role id loaded

/-- Resolution with a number of levels left; on the last one nothing nested is
reached, because every depth limit is. -/
def resolveAt : Nat → ActiveDocuments → Url → RenderingRole → Nat → Render Url String
  | 0 =>
    resolveWith tools context frameId (fun _ _ _ _ => Fallible.throw DocumentKind.css.depthError)
      context.limits.deepest
  | levels + 1 =>
    resolveWith tools context frameId (resolveAt levels)
      (context.limits.deepest - (levels + 1))

def resolve (url : Url) (role : RenderingRole) (id : Nat) : Render Url String :=
  resolveAt tools context frameId context.limits.deepest [] url role id

def openReference (reference : Reference Url) : Render Url (Reference Url × Nat) := do
  let id ← beginReference context.limits
  return (reference, id)

def resolveOpened (opened : Reference Url × Nat) : Render Url (Nat × String) := do
  let replacement ← resolve tools context frameId opened.1.url opened.1.role opened.2
  return (opened.1.id, replacement)

/-- The references of a frame document, opened all at once and then resolved
one after another. -/
def resolveReferences (references : List (Reference Url)) : Render Url (List (Nat × String)) := do
  let opened ← Fallible.collect (openReference context) references
  Fallible.collect (resolveOpened tools context frameId) opened

end Resolve

/-! ## Frames -/

section Frames

variable [PageUrl Url] [Sha256] (tools : RenderTools Url Document) (context : RenderContext)

def frameDepthError (context : RenderContext) (depth : Nat) : OffprintError :=
  (OffprintError.new "offprint.frame.depth" .collection "frame depth exceeds the configured limit")
    |>.withDetail "depth" (numberDetail depth)
    |>.withDetail "limit" (numberDetail context.limits.frameDepth)

def frameBase (baseUrl : Url) (frame : InlineFrame) : Render Url Url :=
  match frame.baseUrl with
  | some text =>
    match tools.parseUrl text with
    | .ok base => pure base
    | .error reason =>
      Fallible.throw (.new "offprint.collector.base_url" .collection
        ("collector returned an invalid frame base URL: " ++ reason))
  | none => pure baseUrl

/-- An inline frame that the collector left to its document. -/
def renderInlineFrame (child : Bytes → Url → Nat → Nat → Render Url String) (baseUrl : Url)
    (depth : Nat) (frame : InlineFrame) : Render Url InlineFrameReplacement := do
  if 2 ^ 16 ≤ depth + 1 then
    Fallible.throw (.new "offprint.frame.depth" .collection
      "frame depth exceeds the supported numeric range")
  else if context.limits.frameDepth < depth + 1 then
    Fallible.throw (frameDepthError context (depth + 1))
  else
    let base ← frameBase tools baseUrl frame
    let frameId ← beginInlineFrame
    let html ← child frame.html base frameId (depth + 1)
    return ⟨frame.nodeId, html, frameId⟩

/-- A frame document, with `child` for the frames inside it. -/
def renderWith (child : Bytes → Url → Nat → Nat → Render Url String) (source : Bytes)
    (baseUrl : Url) (frameId depth : Nat) : Render Url String := do
  let frames := tools.inlineFrames source
  let inlined ← Fallible.collect (renderInlineFrame tools context child baseUrl depth)
    (frames.filter fun frame => !frame.captured)
  let document ← Fallible.ofExcept (tools.replaceInlineFrames source frames inlined)
  let remaining ← remainingResources context.limits
  let references ← Fallible.ofExcept (tools.discoverDocument document baseUrl remaining)
  let replacements ← resolveReferences tools context frameId references
  Fallible.ofExcept (tools.rewriteDocument document baseUrl references.length replacements)

/-- Rendering with a number of levels left; on the last one every inline frame
is too deep. -/
def renderAt : Nat → Bytes → Url → Nat → Nat → Render Url String
  | 0 => renderWith tools context fun _ _ _ depth => Fallible.throw (frameDepthError context depth)
  | levels + 1 => renderWith tools context (renderAt levels)

def renderFrameDocument (source : Bytes) (baseUrl : Url) (frameId depth : Nat) :
    Render Url String :=
  renderAt tools context (context.limits.frameDepth - depth) source baseUrl frameId depth

end Frames
end Offprint.Pipeline
