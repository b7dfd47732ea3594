import Offprint.Document.CssString
import Offprint.Document.Srcset
import Offprint.Document.Page

/-!
# The safe-static policy

Which elements and attributes may run programs, load documents or trigger requests.
-/

namespace Offprint.Document

open Data

def isUnsupportedRequestToken (token : List Char) : Bool :=
  ["compression-dictionary", "dns-prefetch", "import", "manifest", "modulepreload", "preconnect",
    "prefetch", "preload", "prerender", "serviceworker", "subresource", "webbundle"].any
      (Css.eqIgnoreAsciiCase token)

def isIconToken (token : List Char) : Bool :=
  ["icon", "apple-touch-icon", "apple-touch-icon-precomposed", "mask-icon"].any
    (Css.eqIgnoreAsciiCase token)

inductive LinkRelPolicy where
  | other
  | stylesheet
  | icon
  | requestTrigger
  deriving Repr, DecidableEq

def splitAsciiWhitespace (text : List Char) : List (List Char) :=
  (text.splitOnP isHtmlWhitespace).filter (· != [])

def classifyLinkRel (value : List Char) : LinkRelPolicy :=
  let tokens := splitAsciiWhitespace value
  if tokens.any isUnsupportedRequestToken then .requestTrigger
  else if tokens.any (Css.eqIgnoreAsciiCase · "stylesheet") then .stylesheet
  else if tokens.any isIconToken then .icon
  else .other

def attributeValue (attrs : List Attribute) (name : String) : Option (List Char) :=
  (attrs.find? fun attr => attr.name = ⟨.none, name⟩).map Attribute.value

def linkRel (attrs : List Attribute) : LinkRelPolicy :=
  ((attributeValue attrs "rel").map classifyLinkRel).getD .other

section Elements

def isRequestTriggeringLink (name : QualName) (attrs : List Attribute) : Bool :=
  name == ⟨.html, "link"⟩ && linkRel attrs == .requestTrigger

def isScriptElement (name : QualName) : Bool :=
  (name.ns == .html || name.ns == .svg) && name.localName == "script"

/-- The type a script declares, without its parameters. -/
def mediaType (value : List Char) : List Char :=
  (Text.trim (value.takeWhile (· != ';'))).map Char.toLower

def isStructuredMetadataScript (attrs : List Attribute) : Bool :=
  (attributeValue attrs "type").any fun value =>
    ["application/json", "application/ld+json", "application/vnd.offprint.manifest+json",
      "application/vnd.offprint.repair+json"].any fun allowed => mediaType value == allowed.toList

def isBaseElement (name : QualName) : Bool :=
  name == ⟨.html, "base"⟩

def isMetaRefresh (name : QualName) (attrs : List Attribute) : Bool :=
  name == ⟨.html, "meta"⟩ &&
    (attributeValue attrs "http-equiv").any (Css.eqIgnoreAsciiCase · "refresh")

end Elements

section Attributes

def isEventAttribute (attr : Attribute) : Bool :=
  attr.name.ns == .none &&
    "on".toList.isPrefixOf (attr.name.localName.toList.map Char.toLower)

def isUrlAttribute (attr : Attribute) : Bool :=
  (attr.name.ns == .none &&
    ["action", "cite", "data", "formaction", "href", "poster", "src"].contains
      attr.name.localName) ||
    attr.name == ⟨.xlink, "href"⟩

/-- White space and control characters hide a scheme from no browser. -/
def isJavascriptUrl (value : List Char) : Bool :=
  let compact := value.filter fun char => !isHtmlWhitespace char && !isControl char
  Css.eqIgnoreAsciiCase (compact.take "javascript:".length) "javascript:"

def isJavascriptUrlAttribute (attr : Attribute) : Bool :=
  isUrlAttribute attr && isJavascriptUrl attr.value

end Attributes
end Offprint.Document
