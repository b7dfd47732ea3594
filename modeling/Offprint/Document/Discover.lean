import Offprint.Document.CssReferences
import Offprint.Document.Policy
import Offprint.Pipeline.Resources

/-!
# Discovering resources

A document refers to resources in attributes that are URLs, in `srcset` attributes, in inline
styles and presentation attributes, and in the text of its style elements.  The walk over the
document resolves every reference, and stops at a reference too many.
-/

namespace Offprint.Document

open Data Effect Model
open Offprint.Effect.Checked (failIf)
open Offprint.Pipeline (RenderingRole)

/-- The URL library: parsing a text on its own or against a base, with the text of an error. -/
class UrlParser (Url : Type) where
  parse : List Char → Except String Url
  join : Url → List Char → Except String Url

section Roles

def htmlDirectResourceRole (element : String) (attrs : List Attribute) (attr : Attribute) :
    Option RenderingRole :=
  if attr.name.ns ≠ .none then none
  else
    let name := attr.name.localName
    if name = "src" then
      if element = "img" ∨ element = "input" then some .image
      else if ["video", "audio", "source", "track"].contains element then some .media
      else if element = "iframe" ∨ element = "frame" then some .frame
      else if element = "embed" then some .other
      else none
    else if element = "video" ∧ name = "poster" then some .image
    else if element = "link" ∧ name = "href" then
      match linkRel attrs with
      | .stylesheet => some .stylesheet
      | .icon => some .image
      | .other | .requestTrigger => none
    else if element = "object" ∧ name = "data" then some .other
    else if name = "background" then some .image
    else none

def presentationResourceRole (attr : String) : Option RenderingRole :=
  if ["clip-path", "fill", "filter", "marker", "marker-end", "marker-mid", "marker-start", "mask",
      "stroke"].contains attr then some .svg
  else if attr = "cursor" then some .cursor
  else none

def svgDirectResourceRole (element : String) (attr : Attribute) : Option RenderingRole :=
  if attr.name.localName ≠ "href" ∨
      ¬(attr.name.ns = .none ∨ attr.name.ns = .xlink) then none
  else if element = "feImage" ∨ element = "image" then some .image
  else if element = "cursor" then some .cursor
  else if ["altGlyph", "color-profile", "filter", "font-face-uri", "glyphRef", "linearGradient",
      "mpath", "pattern", "radialGradient", "textPath", "tref", "use"].contains element then
    some .svg
  else none

/-- How the value of an attribute refers to resources. -/
inductive AttributeKind where
  | css (role : RenderingRole)
  | srcset
  | direct (role : RenderingRole) (fragmentIsLocal : Bool)
  deriving Repr, DecidableEq

def attributeKind (name : QualName) (attrs : List Attribute) (attr : Attribute) :
    Option AttributeKind :=
  if attr.name = ⟨.none, "style"⟩ then some (.css .other)
  else
    match if name.ns = .svg ∧ attr.name.ns = .none then
        presentationResourceRole attr.name.localName else none with
    | some role => some (.css role)
    | none =>
      if attr.name = ⟨.none, "srcset"⟩ then some .srcset
      else if name.ns = .svg then
        (svgDirectResourceRole name.localName attr).map (.direct · true)
      else
        (htmlDirectResourceRole name.localName attrs attr).map (.direct · false)

end Roles

inductive TextContainer where
  | attribute (node : NodeId) (index : Nat)
  | text (node : NodeId)
  deriving Repr, DecidableEq

inductive ReplacementSyntax where
  | cssUrl
  | srcset
  deriving Repr, DecidableEq

inductive RewriteTarget where
  | attribute (node : NodeId) (index : Nat)
  | range (container : TextContainer) (range : ByteRange) (replacement : ReplacementSyntax)
  deriving Repr, DecidableEq

variable {Url : Type}

/-- A resource; its identifier is its place among the resources. -/
structure DiscoveredDocumentResource (Url : Type) where
  nodeId : NodeId
  original : List Char
  resolvedUrl : Url
  role : RenderingRole
  deriving Repr, DecidableEq

/-- The resources of a document and what to rewrite for each of them. -/
structure DocumentResources (Url : Type) where
  resources : List (DiscoveredDocumentResource Url)
  targets : List RewriteTarget
  deriving Repr, DecidableEq

def cssBaseAttribute : String := "data-offprint-css-base"

def intRangeText : String := "out of range integral type conversion attempted"

section Discovery

variable [UrlParser Url]

def resolve (what : String) (base : Url) (trimmed : List Char) : Checked OffprintError Url :=
  match UrlParser.join base trimmed with
  | .ok url => .ok url
  | .error reason =>
    .error (resourceError "offprint.resource.url"
      (what ++ " `" ++ String.ofList trimmed ++ "` cannot be resolved: " ++ reason))

/-- Whether a reference is passed over: it is blank, or a fragment of the same document. -/
def isSkipped (fragmentIsLocal : Bool) (original : List Char) : Bool :=
  let trimmed := Text.trim original
  trimmed == [] || (fragmentIsLocal && trimmed.head? == some '#')

def identifierRangeError : OffprintError :=
  resourceError "offprint.resource.limit"
    ("resource count exceeds the identifier range: " ++ intRangeText)

variable (maximum : Nat) (document : Document) (base : Url)

def addReference (found : DocumentResources Url) (nodeId : NodeId) (original : List Char)
    (role : RenderingRole) (target : RewriteTarget) (fragmentIsLocal : Bool) (base : Url) :
    Checked OffprintError (DocumentResources Url) :=
  if isSkipped fragmentIsLocal original then
    return found
  else do
    failIf (found.resources.length ≥ maximum) srcsetLimitError
    let resolvedUrl ← resolve "resource URL" base (Text.trim original)
    failIf (found.resources.length > u32Max) identifierRangeError
    return ⟨found.resources ++ [⟨nodeId, original, resolvedUrl, role⟩], found.targets ++ [target]⟩

/-- Add the references of a container one after the other. -/
def addReferences (maximum : Nat) (nodeId : NodeId) (container : TextContainer)
    (role : RenderingRole) (replacement : ReplacementSyntax) (base : Url) :
    List Reference → DocumentResources Url → Checked OffprintError (DocumentResources Url)
  | [], found => return found
  | reference :: rest, found => do
      let found ← addReference maximum found nodeId reference.value role
        (.range container reference.range replacement) (replacement = .cssUrl) base
      addReferences maximum nodeId container role replacement base rest found

def remaining (found : DocumentResources Url) : Nat :=
  maximum - found.resources.length

def addCssContainer (nodeId : NodeId) (container : TextContainer) (css : List Char)
    (role : RenderingRole) (base : Url) (found : DocumentResources Url) :
    Checked OffprintError (DocumentResources Url) := do
  let references ← cssReferencesBounded css (remaining maximum found)
  addReferences maximum nodeId container role .cssUrl base references found

def addSrcset (nodeId : NodeId) (container : TextContainer) (srcset : List Char) (base : Url)
    (found : DocumentResources Url) : Checked OffprintError (DocumentResources Url) := do
  let references ← srcsetReferencesBounded srcset (remaining maximum found)
  addReferences maximum nodeId container .image .srcset base references found

def discoverAttribute (nodeId : NodeId) (name : QualName) (attrs : List Attribute)
    (found : DocumentResources Url) (attr : Attribute × Nat) :
    Checked OffprintError (DocumentResources Url) :=
  let (attr, index) := attr
  match attributeKind name attrs attr with
  | some (.css role) =>
    addCssContainer maximum nodeId (.attribute nodeId index) attr.value role base found
  | some .srcset => addSrcset maximum nodeId (.attribute nodeId index) attr.value base found
  | some (.direct role fragmentIsLocal) =>
    addReference maximum found nodeId attr.value role (.attribute nodeId index)
      fragmentIsLocal base
  | none => return found

def stylesheetBaseUrl (attrs : List Attribute) : Except OffprintError (Option Url) :=
  match attributeValue attrs cssBaseAttribute with
  | none => return none
  | some value =>
    match UrlParser.parse value with
    | .ok url => return some url
    | .error reason =>
      .error (resourceError "offprint.resource.url"
        ("stylesheet base URL `" ++ String.ofList value ++ "` is invalid: " ++ reason))

def isStyleElement (name : QualName) : Bool :=
  (name.ns == .html || name.ns == .svg) && name.localName == "style"

/-- The text of a child that is a text node. -/
def textOf (child : NodeId) : Option (List Char) :=
  match (document.node child).map Node.data with
  | some (.text contents) => some contents
  | _ => none

def discoverStyleText (nodeId : NodeId) (found : DocumentResources Url) (child : NodeId) :
    Checked OffprintError (DocumentResources Url) :=
  match textOf document child with
  | some contents => addCssContainer maximum nodeId (.text child) contents .other base found
  | none => return found

def discoverStyle (nodeId : NodeId) (attrs : List Attribute) (children : List NodeId)
    (found : DocumentResources Url) : Checked OffprintError (DocumentResources Url) := do
  let cssBase ← .ofExcept (stylesheetBaseUrl attrs)
  children.foldlM (discoverStyleText maximum document (cssBase.getD base) nodeId) found

def discoverNode (found : DocumentResources Url) (nodeId : NodeId) :
    Checked OffprintError (DocumentResources Url) :=
  match document.node nodeId with
  | some ⟨_, children, .element name attrs _⟩ => do
      let found ← attrs.zipIdx.foldlM (discoverAttribute maximum base nodeId name attrs) found
      if isStyleElement name then discoverStyle maximum document base nodeId attrs children found
      else return found
  | _ => return found

def discoverDocumentResourcesBounded (maximum : Nat) :
    Checked OffprintError (DocumentResources Url) :=
  document.walk.foldlM (discoverNode maximum document base) ⟨[], []⟩

def discoverDocumentResources : Checked OffprintError (DocumentResources Url) :=
  discoverDocumentResourcesBounded document base usizeMax

end Discovery

section Css

inductive CssParseMode where
  | typed
  | preservationFallback
  deriving Repr, DecidableEq

structure DiscoveredCssResource (Url : Type) where
  original : List Char
  resolvedUrl : Url
  deriving Repr, DecidableEq

structure CssResources (Url : Type) where
  source : List Char
  resources : List (DiscoveredCssResource Url)
  ranges : List ByteRange
  parseMode : CssParseMode
  deriving Repr, DecidableEq

/-- A parser of stylesheets that lists what a stylesheet depends on, if it can read it. -/
class StylesheetParser where
  dependencies : List Char → Option (List (List Char))

/-- Whether both parsers find the same references, in any order. -/
def cssParseMode [StylesheetParser] (css : List Char) (references : List Reference) :
    CssParseMode :=
  match StylesheetParser.dependencies css with
  | some dependencies =>
    if (references.map Reference.value).Perm dependencies then .typed else .preservationFallback
  | none => .preservationFallback

variable [UrlParser Url] [StylesheetParser]

def cssIdentifierRangeError : OffprintError :=
  resourceError "offprint.resource.limit"
    ("CSS resource count exceeds the identifier range: " ++ intRangeText)

def addCssResources (base : Url) :
    List Reference → CssResources Url → Checked OffprintError (CssResources Url)
  | [], found => return found
  | reference :: rest, found =>
    if isSkipped true reference.value then addCssResources base rest found
    else do
      let resolvedUrl ← resolve "CSS resource URL" base (Text.trim reference.value)
      failIf (found.resources.length > u32Max) cssIdentifierRangeError
      addCssResources base rest
        { found with
          resources := found.resources ++ [⟨reference.value, resolvedUrl⟩]
          ranges := found.ranges ++ [reference.range] }

def discoverCssResourcesBounded (css : List Char) (base : Url) (maximum : Nat) :
    Checked OffprintError (CssResources Url) := do
  let references ← cssReferencesBounded css maximum
  addCssResources base references ⟨css, [], [], cssParseMode css references⟩

def discoverCssResources (css : List Char) (base : Url) :
    Checked OffprintError (CssResources Url) :=
  discoverCssResourcesBounded css base usizeMax

end Css
end Offprint.Document
