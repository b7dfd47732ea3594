import Offprint.Document.Discover
import Offprint.Effect.Budget

/-!
# The bound on discovered resources

The discovery visits the places of a document that may hold references, one after the other.
Every place asks for the room its references take, and finds too little exactly if the bound is
passed.  A `srcset` attribute asks for more: for a candidate that is blank, and that the discovery
then passes over.
-/

namespace Offprint.Document

open Data Effect Model List Nat
open Offprint.Pipeline (RenderingRole)
open Offprint.Effect.Checked (failIf)

variable {Url : Type}

/-- A place that may hold references, or a stylesheet that has no base to resolve them. -/
inductive Site (Url : Type) where
  | css (nodeId : NodeId) (container : TextContainer) (text : List Char) (role : RenderingRole)
      (base : Url)
  | srcset (nodeId : NodeId) (index : Nat) (text : List Char) (base : Url)
  | direct (nodeId : NodeId) (index : Nat) (text : List Char) (role : RenderingRole)
      (fragmentIsLocal : Bool) (base : Url)
  | broken (error : OffprintError)

section Sites

variable [UrlParser Url] (found : DocumentResources Url) (document : Document) (base : Url)
  (maximum : Nat)

def attributeSite (nodeId : NodeId) (name : QualName) (attrs : List Attribute)
    (attr : Attribute × Nat) : Option (Site Url) :=
  (attributeKind name attrs attr.1).map fun
    | .css role => .css nodeId (.attribute nodeId attr.2) attr.1.value role base
    | .srcset => .srcset nodeId attr.2 attr.1.value base
    | .direct role fragmentIsLocal =>
      .direct nodeId attr.2 attr.1.value role fragmentIsLocal base

def styleSites (nodeId : NodeId) (attrs : List Attribute) (children : List NodeId) :
    List (Site Url) :=
  match stylesheetBaseUrl attrs with
  | .ok cssBase => children.filterMap fun child =>
    (textOf document child).map fun contents =>
      .css nodeId (.text child) contents .other (cssBase.getD base)
  | .error error => [.broken error]

def nodeSites (nodeId : NodeId) : List (Site Url) :=
  match document.node nodeId with
  | some ⟨_, children, .element name attrs _⟩ =>
    attrs.zipIdx.filterMap (attributeSite base nodeId name attrs) ++
      if isStyleElement name then styleSites document base nodeId attrs children else []
  | _ => []

def sites : List (Site Url) :=
  document.walk.flatMap (nodeSites document base)

def visitSite (found : DocumentResources Url) :
    Site Url → Checked OffprintError (DocumentResources Url)
  | .css nodeId container text role base =>
    addCssContainer maximum nodeId container text role base found
  | .srcset nodeId index text base =>
    addSrcset maximum nodeId (.attribute nodeId index) text base found
  | .direct nodeId index text role fragmentIsLocal base =>
    addReference maximum found nodeId text role (.attribute nodeId index) fragmentIsLocal base
  | .broken error => .error error

variable {maximum : Nat} {document : Document} {base : Url} {nodeId : NodeId}
  {attrs : List Attribute}

theorem foldlM_attributeSite {name : QualName} (listed : List (Attribute × Nat))
    (found : DocumentResources Url) :
    (listed.filterMap (attributeSite base nodeId name attrs)).foldlM (visitSite maximum) found =
      listed.foldlM (discoverAttribute maximum base nodeId name attrs) found := by
  rw [foldlM_filterMap]
  congr 1
  funext found attr
  rw [discoverAttribute, attributeSite]
  cases attributeKind name attrs attr.1 with
  | none => rfl
  | some kind => cases kind <;> rfl

theorem foldlM_styleSites {children : List NodeId} :
    (styleSites document base nodeId attrs children).foldlM (visitSite maximum) found =
      discoverStyle maximum document base nodeId attrs children found := by
  rw [discoverStyle, styleSites]
  generalize (stylesheetBaseUrl attrs : Except OffprintError (Option Url)) = result
  cases result with
  | error error => rfl
  | ok cssBase =>
    rw [foldlM_filterMap]
    change _ = children.foldlM (discoverStyleText maximum document (cssBase.getD base) nodeId)
      found
    congr 1
    funext found child
    rw [discoverStyleText]
    cases textOf document child <;> rfl

theorem foldlM_nodeSites :
    (nodeSites document base nodeId).foldlM (visitSite maximum) found =
      discoverNode maximum document base found nodeId := by
  rw [nodeSites, discoverNode]
  cases document.node nodeId with
  | none => rfl
  | some node =>
    obtain ⟨parent, children, data⟩ := node
    cases data with
    | element name attrs template =>
      dsimp only
      rw [foldlM_append, foldlM_attributeSite]
      congr 1
      funext found
      split
      · exact foldlM_styleSites found
      · rfl
    | _ => rfl

theorem discoverDocumentResourcesBounded_eq (document : Document) (base : Url) (maximum : Nat) :
    discoverDocumentResourcesBounded document base maximum =
      (sites document base).foldlM (visitSite maximum) ⟨[], []⟩ := by
  rw [discoverDocumentResourcesBounded, sites]
  generalize (⟨[], []⟩ : DocumentResources Url) = found
  induction document.walk generalizing found with
  | nil => rfl
  | cons id ids ih =>
    rw [foldlM_cons, flatMap_cons, foldlM_append, foldlM_nodeSites]
    congr 1
    funext next
    exact ih next

end Sites

variable [UrlParser Url] {references : List Reference}

section Push

/-- Add a reference, however many there are. -/
def pushReference (found : DocumentResources Url) (nodeId : NodeId) (original : List Char)
    (role : RenderingRole) (target : RewriteTarget) (fragmentIsLocal : Bool) (base : Url) :
    Checked OffprintError (DocumentResources Url) :=
  if isSkipped fragmentIsLocal original then
    return found
  else do
    let resolvedUrl ← resolve "resource URL" base (Text.trim original)
    failIf (found.resources.length > u32Max) identifierRangeError
    return ⟨found.resources ++ [⟨nodeId, original, resolvedUrl, role⟩], found.targets ++ [target]⟩

def pushReferences (nodeId : NodeId) (container : TextContainer) (role : RenderingRole)
    (replacement : ReplacementSyntax) (base : Url) :
    List Reference → DocumentResources Url → Checked OffprintError (DocumentResources Url)
  | [], found => return found
  | reference :: rest, found => do
      let found ← pushReference found nodeId reference.value role
        (.range container reference.range replacement) (replacement = .cssUrl) base
      pushReferences nodeId container role replacement base rest found

def referenceCount (fragmentIsLocal : Bool) (original : List Char) : Nat :=
  if isSkipped fragmentIsLocal original then 0 else 1

def countReferences (fragmentIsLocal : Bool) (references : List Reference) : Nat :=
  (references.map fun reference => referenceCount fragmentIsLocal reference.value).sum

variable {maximum : Nat} {found next : DocumentResources Url} {nodeId : NodeId}
  {original : List Char} {role : RenderingRole} {target : RewriteTarget} {fragmentIsLocal : Bool}
  {base : Url} {container : TextContainer} {replacement : ReplacementSyntax}

theorem addReference_eq (within : found.resources.length ≤ maximum) :
    addReference maximum found nodeId original role target fragmentIsLocal base =
      if found.resources.length + referenceCount fragmentIsLocal original ≤ maximum then
        pushReference found nodeId original role target fragmentIsLocal base
      else .error srcsetLimitError := by
  unfold addReference pushReference referenceCount
  by_cases skipped : isSkipped fragmentIsLocal original = true
  · rw [if_pos skipped, if_pos skipped, if_pos skipped, add_zero, if_pos within]
  · rw [if_neg skipped, if_neg skipped, if_neg skipped]
    by_cases full : found.resources.length ≥ maximum
    · rw [if_neg (by omega), failIf, if_pos full]
      rfl
    · rw [if_pos (by omega), Checked.failIf_bind_of_not full]

theorem length_pushReference
    (pushed : pushReference found nodeId original role target fragmentIsLocal base = .ok next) :
    next.resources.length = found.resources.length + referenceCount fragmentIsLocal original := by
  unfold pushReference at pushed
  unfold referenceCount
  by_cases skipped : isSkipped fragmentIsLocal original = true
  · rw [if_pos skipped] at pushed ⊢
    rw [Checked.ok.inj pushed, add_zero]
  · rw [if_neg skipped] at pushed ⊢
    obtain ⟨url, -, pushed⟩ := Checked.of_bind pushed
    obtain ⟨-, -, pushed⟩ := Checked.of_bind pushed
    rw [← Checked.ok.inj pushed, length_append, length_singleton]

theorem length_pushReferences
    (pushed : pushReferences nodeId container role replacement base references found = .ok next) :
    next.resources.length =
      found.resources.length + countReferences (replacement = .cssUrl) references := by
  induction references generalizing found with
  | nil => rw [← Checked.ok.inj pushed, countReferences, map_nil, sum_nil, add_zero]
  | cons reference rest ih =>
    obtain ⟨middle, first, others⟩ := Checked.of_bind pushed
    rw [ih others, length_pushReference first, countReferences,
      countReferences, map_cons, sum_cons, add_assoc]

theorem addReferences_eq
    (room : found.resources.length + countReferences (replacement = .cssUrl) references ≤ maximum) :
    addReferences maximum nodeId container role replacement base references found =
      pushReferences nodeId container role replacement base references found := by
  induction references generalizing found with
  | nil => rfl
  | cons reference rest ih =>
    rw [countReferences, map_cons, sum_cons, ← countReferences] at room
    rw [addReferences, pushReferences, addReference_eq (by omega), if_pos (by omega)]
    cases pushed : pushReference found nodeId reference.value role
        (.range container reference.range replacement) (replacement = .cssUrl) base with
    | ok middle =>
      have grown := length_pushReference pushed
      exact ih (by omega)
    | error problem => rfl
    | panic => rfl

end Push

section Meter

theorem isCssResource_eq (value : List Char) : isCssResource value = !isSkipped true value := by
  simp [isCssResource, isSkipped, bne]

theorem countCssResources_eq (references : List Reference) :
    countCssResources references = countReferences true references := by
  induction references with
  | nil => rfl
  | cons reference rest ih =>
    rw [countReferences, map_cons, sum_cons, ← countReferences, ← ih,
      countCssResources, countP_cons, isCssResource_eq, referenceCount, countCssResources]
    cases isSkipped true reference.value <;> simp [add_comm]

theorem countReferences_le_length (fragmentIsLocal : Bool) (references : List Reference) :
    countReferences fragmentIsLocal references ≤ references.length := by
  induction references with
  | nil => exact le_refl 0
  | cons reference rest ih =>
    have one : referenceCount fragmentIsLocal reference.value ≤ 1 := by
      unfold referenceCount
      split <;> omega
    rw [countReferences, map_cons, sum_cons, ← countReferences, length_cons]
    omega

namespace Site

/-- How many references of a place are discovered. -/
def count : Site Url → Nat
  | .css _ _ text _ _ => countReferences true (cssReferences text)
  | .srcset _ _ text _ => countReferences false (srcsetCandidates text)
  | .direct _ _ text _ fragmentIsLocal _ => referenceCount fragmentIsLocal text
  | .broken _ => 0

/-- How many references of a place are counted against the bound. -/
def demand : Site Url → Nat
  | .srcset _ _ text _ => (srcsetCandidates text).length
  | site => site.count

def refusal : Site Url → OffprintError
  | .css _ _ _ _ _ => cssLimitError
  | _ => srcsetLimitError

def push (found : DocumentResources Url) :
    Site Url → Checked OffprintError (DocumentResources Url)
  | .css nodeId container text role base =>
    pushReferences nodeId container role .cssUrl base (cssReferences text) found
  | .srcset nodeId index text base =>
    pushReferences nodeId (.attribute nodeId index) .image .srcset base (srcsetCandidates text)
      found
  | .direct nodeId index text role fragmentIsLocal base =>
    pushReference found nodeId text role (.attribute nodeId index) fragmentIsLocal base
  | .broken error => .error error

end Site

def siteMeter : Metered OffprintError (DocumentResources Url) (Site Url) where
  push := Site.push
  size found := found.resources.length
  count := Site.count
  demand := Site.demand
  refusal := Site.refusal
  count_le_demand site := by
    cases site with
    | srcset nodeId index text base => exact countReferences_le_length false _
    | _ => exact Nat.le_refl _
  size_push {found site next} pushed := by
    cases site with
    | css nodeId container text role base | srcset nodeId index text base =>
      exact length_pushReferences pushed
    | direct nodeId index text role fragmentIsLocal base => exact length_pushReference pushed
    | broken error => cases pushed

variable {maximum : Nat} {found : DocumentResources Url}

theorem visitSite_eq (within : found.resources.length ≤ maximum) (site : Site Url) :
    visitSite maximum found site = siteMeter.visit maximum found site := by
  unfold Metered.visit
  change _ = if found.resources.length + site.demand ≤ maximum then site.push found
    else .error site.refusal
  cases site with
  | css nodeId container text role base =>
    rw [visitSite, addCssContainer, cssReferencesBounded_eq, countCssResources_eq, remaining]
    change _ = if found.resources.length + countReferences true (cssReferences text) ≤ maximum
      then _ else _
    split
    · rw [if_pos (by omega), Checked.ok_bind]
      exact addReferences_eq (by simp; omega)
    · rw [if_neg (by omega)]
      rfl
  | srcset nodeId index text base =>
    have fewer := countReferences_le_length false (srcsetCandidates text)
    rw [visitSite, addSrcset, srcsetReferencesBounded_eq, remaining]
    change _ = if found.resources.length + (srcsetCandidates text).length ≤ maximum
      then _ else _
    split
    · rw [if_pos (by omega), Checked.ok_bind]
      exact addReferences_eq (by simp; omega)
    · rw [if_neg (by omega)]
      rfl
  | direct nodeId index text role fragmentIsLocal base => exact addReference_eq within
  | broken error => exact (if_pos within).symm

theorem foldlM_visitSite_eq (sites : List (Site Url)) (within : found.resources.length ≤ maximum) :
    sites.foldlM (visitSite maximum) found = siteMeter.run maximum found sites := by
  induction sites generalizing found with
  | nil => rfl
  | cons site rest ih =>
    rw [foldlM_cons, Metered.run_cons, visitSite_eq within]
    cases visited : siteMeter.visit maximum found site with
    | ok next => exact ih (siteMeter.size_le_of_visit visited)
    | error problem => rfl
    | panic => rfl

end Meter

section Sharp

/-- The bounded discovery gives the unbounded result if that is within the bound, and reports
too many resources otherwise. -/
def BoundIsSharp {α : Type} (size : Nat) (result : α)
    (bounded : Nat → Checked OffprintError α) (maximum : Nat) : Prop :=
  (size ≤ maximum → bounded maximum = .ok result) ∧
    (maximum < size →
      ∃ error, bounded maximum = .error error ∧ error.code = "offprint.resource.limit")

/-- Every `srcset` attribute finds room for all its candidates behind the references that stand
before it. -/
def SrcsetsFit (document : Document) (base : Url) (maximum : Nat) : Prop :=
  ∀ before nodeId index text here after,
    sites document base = before ++ .srcset nodeId index text here :: after →
      (before.map Site.count).sum + (srcsetCandidates text).length ≤ maximum

theorem fits_iff_srcsetsFit {document : Document} {base : Url} {maximum : Nat}
    (room : ((sites document base).map Site.count).sum ≤ maximum) :
    siteMeter.Fits maximum 0 (sites document base) ↔ SrcsetsFit document base maximum := by
  rw [siteMeter.fits_iff (by rwa [zero_add])]
  constructor
  · intro fits before nodeId index text here after parts
    have bound := fits before _ after parts
    rwa [zero_add] at bound
  · intro fits before site after parts
    have whole : (before.map Site.count).sum + site.count + (after.map Site.count).sum ≤
        maximum := by
      rw [parts] at room
      simpa [add_assoc] using room
    rw [zero_add]
    change (before.map Site.count).sum + site.demand ≤ maximum
    cases site with
    | srcset nodeId index text here => exact fits before nodeId index text here after parts
    | _ => exact le_trans (le_add_right _ _) whole

omit [UrlParser Url] in
theorem code_refusal (site : Site Url) : site.refusal.code = "offprint.resource.limit" := by
  cases site <;> rfl

variable {document : Document} {base : Url} {result : DocumentResources Url}

theorem length_discoverDocumentResources
    (discovered : discoverDocumentResources document base = .ok result) :
    siteMeter.run usizeMax ⟨[], []⟩ (sites document base) = .ok result ∧
      result.resources.length = ((sites document base).map Site.count).sum := by
  rw [discoverDocumentResources, discoverDocumentResourcesBounded_eq,
    foldlM_visitSite_eq _ (zero_le _)] at discovered
  exact ⟨discovered, (siteMeter.size_run discovered).trans (zero_add _)⟩

theorem documentBound_sharp_iff (maximum : Nat)
    (discovered : discoverDocumentResources document base = .ok result) :
    BoundIsSharp result.resources.length result (discoverDocumentResourcesBounded document base)
        maximum ↔
      (((sites document base).map Site.count).sum ≤ maximum →
        SrcsetsFit document base maximum) := by
  obtain ⟨ran, length⟩ := length_discoverDocumentResources discovered
  obtain ⟨fine, refused⟩ := siteMeter.run_of_run maximum ran
  have bounded : discoverDocumentResourcesBounded document base maximum =
      siteMeter.run maximum ⟨[], []⟩ (sites document base) := by
    rw [discoverDocumentResourcesBounded_eq, foldlM_visitSite_eq _ (zero_le _)]
  rw [BoundIsSharp, bounded, length]
  constructor
  · rintro ⟨within, -⟩ room
    rw [← fits_iff_srcsetsFit room]
    by_contra misfit
    obtain ⟨site, -, error⟩ := refused misfit
    rw [within room] at error
    cases error
  · intro fits
    refine ⟨fun room => fine ((fits_iff_srcsetsFit room).mpr (fits room)), fun many => ?_⟩
    have misfit : ¬siteMeter.Fits maximum 0 (sites document base) := by
      intro inside
      have room := siteMeter.total_le_of_fits inside (zero_le maximum)
      rw [zero_add] at room
      exact absurd room (not_le.mpr many)
    obtain ⟨site, -, error⟩ := refused misfit
    exact ⟨site.refusal, error, code_refusal site⟩

theorem length_addCssResources {found next : CssResources Url}
    (added : addCssResources base references found = .ok next) :
    next.resources.length = found.resources.length + countReferences true references := by
  induction references generalizing found with
  | nil =>
    rw [← Checked.ok.inj added]
    rfl
  | cons reference rest ih =>
    rw [countReferences, map_cons, sum_cons, ← countReferences, referenceCount]
    unfold addCssResources at added
    by_cases skipped : isSkipped true reference.value = true
    · rw [if_pos skipped] at added ⊢
      rw [ih added, zero_add]
    · rw [if_neg skipped] at added ⊢
      obtain ⟨url, -, added⟩ := Checked.of_bind added
      obtain ⟨-, -, added⟩ := Checked.of_bind added
      rw [ih added, length_append, length_singleton, add_assoc]

theorem cssBound_sharp [StylesheetParser] {css : List Char} {result : CssResources Url}
    (maximum : Nat) (discovered : discoverCssResources css base = .ok result) :
    BoundIsSharp result.resources.length result (discoverCssResourcesBounded css base) maximum := by
  have bounded : ∀ maximum, discoverCssResourcesBounded css base maximum =
      if countReferences true (cssReferences css) ≤ maximum then
        addCssResources base (cssReferences css) ⟨css, [], [], cssParseMode css (cssReferences css)⟩
      else .error cssLimitError := by
    intro maximum
    rw [discoverCssResourcesBounded, cssReferencesBounded_eq, countCssResources_eq]
    split <;> rfl
  rw [discoverCssResources, bounded] at discovered
  split at discovered
  · have length := (length_addCssResources discovered).trans (zero_add _)
    rw [BoundIsSharp, bounded, length]
    refine ⟨fun room => ?_, fun many => ?_⟩
    · rw [if_pos room, discovered]
    · exact ⟨cssLimitError, if_neg (not_le.mpr many), rfl⟩
  · cases discovered

/-- The bound on the resources of a stylesheet is sharp.  The bound on those of a document is
sharp exactly if, with no more references than the bound in the document, no `srcset` attribute
has more candidates, the blank ones among them, than are left. -/
theorem bounded_discovery_sharp_iff [StylesheetParser] :
    (∀ (css : List Char) (base : Url) (maximum : Nat) (result : CssResources Url),
      discoverCssResources css base = .ok result →
        BoundIsSharp result.resources.length result (discoverCssResourcesBounded css base)
          maximum) ∧
    ∀ (document : Document) (base : Url) (maximum : Nat) (result : DocumentResources Url),
      discoverDocumentResources document base = .ok result →
        (BoundIsSharp result.resources.length result
            (discoverDocumentResourcesBounded document base) maximum ↔
          (((sites document base).map Site.count).sum ≤ maximum →
            SrcsetsFit document base maximum)) :=
  ⟨fun _ _ maximum _ discovered => cssBound_sharp maximum discovered,
    fun _ _ maximum _ discovered => documentBound_sharp_iff maximum discovered⟩

end Sharp

section Samples

abbrev plainUrls : UrlParser (List Char) where
  parse := .ok
  join _ text := .ok text

/-- A stylesheet parser that reads nothing. -/
abbrev noStylesheets : StylesheetParser where
  dependencies _ := none

/-- An image with a `srcset` attribute. -/
def imageDocument (srcset : String) : Document where
  nodes := [⟨none, [1], .document⟩,
    ⟨some 0, [], .element ⟨.html, "img"⟩ [⟨⟨.none, "srcset"⟩, srcset.toList⟩] none⟩]
  root := 0
  tree := ⟨[0, 1], rfl, by decide⟩

theorem bounded_discovery_sharp_image : BoundIsSharp 1
      ⟨[⟨1, "a.png".toList, "a.png".toList, .image⟩], [.range (.attribute 1 0) ⟨0, 5⟩ .srcset]⟩
      (@discoverDocumentResourcesBounded _ plainUrls (imageDocument "a.png 1x") []) 1 := by
  apply ((@bounded_discovery_sharp_iff _ plainUrls noStylesheets).2
    (imageDocument "a.png 1x") [] 1 _ rfl).mpr
  rintro - before nodeId index text here after parts
  have one : @sites _ plainUrls (imageDocument "a.png 1x") [] =
      [.srcset 1 0 "a.png 1x".toList []] := rfl
  rw [one] at parts
  cases before with
  | nil =>
    injection parts with same
    injection same with _ _ same
    rw [← same]
    decide
  | cons first others => simp at parts

/-- A candidate of a single no-break space is no reference, but it is counted as one. -/
theorem bounded_discovery_refuses_blank :
    @discoverDocumentResources _ plainUrls (imageDocument "\u00a0") [] = .ok ⟨[], []⟩ ∧
      @discoverDocumentResourcesBounded _ plainUrls (imageDocument "\u00a0") [] 0 =
        .error srcsetLimitError :=
  ⟨rfl, rfl⟩

end Samples
end Offprint.Document
