import Offprint.Data.Markup
import Offprint.Document.Page

/-!
# Serialization

A document is written in the order of its tree.  Characters that could be taken for markup are
written as references, except in the text of elements that a parser reads without them.  The
recursion is bounded by the number of nodes.
-/

set_option linter.dupNamespace false

namespace Offprint.Document

open Offprint.Data.Markup Offprint.Data.Traversal

section Escaping

/-- What is written for a value, with the characters since the last replacement. -/
def writeEscapedFrom (replacement : Char → Option (List Char)) (unescaped : List Char) :
    List Char → List Char
  | [] => unescaped
  | char :: rest =>
    match replacement char with
    | none => writeEscapedFrom replacement (unescaped ++ [char]) rest
    | some reference => unescaped ++ reference ++ writeEscapedFrom replacement [] rest

def writeEscaped (replacement : Char → Option (List Char)) (value : List Char) : List Char :=
  writeEscapedFrom replacement [] value

def attributeReplacement : Char → Option (List Char)
  | '&' => some "&amp;".toList
  | '"' => some "&quot;".toList
  | '\u00a0' => some "&nbsp;".toList
  | '<' => some "&lt;".toList
  | '>' => some "&gt;".toList
  | _ => none

def writeEscapedAttribute (value : List Char) : List Char :=
  writeEscaped attributeReplacement value

def textReplacement : Char → Option (List Char)
  | '&' => some "&amp;".toList
  | '\u00a0' => some "&nbsp;".toList
  | '<' => some "&lt;".toList
  | '>' => some "&gt;".toList
  | _ => none

theorem writeEscapedFrom_eq (replacement : Char → Option (List Char))
    (unescaped value : List Char) : writeEscapedFrom replacement unescaped value
      = unescaped ++ value.flatMap fun char => (replacement char).getD [char] := by
  induction value generalizing unescaped with
  | nil => simp [writeEscapedFrom]
  | cons char rest ih =>
    rw [writeEscapedFrom, List.flatMap_cons]
    cases replacement char with
    | none =>
      show writeEscapedFrom replacement (unescaped ++ [char]) rest = _
      rw [ih, Option.getD_none, List.append_assoc]
    | some reference =>
      show unescaped ++ reference ++ writeEscapedFrom replacement [] rest = _
      rw [ih, Option.getD_some, List.nil_append, List.append_assoc]

def attributeEscaping : Escaping where
  replacement := attributeReplacement
  refers := by
    intro char reference replaced
    unfold attributeReplacement at replaced
    split at replaced
    all_goals cases replaced
    all_goals exact ⟨_, rfl, by decide⟩
  ampersand := by decide

def textEscaping : Escaping where
  replacement := textReplacement
  refers := by
    intro char reference replaced
    unfold textReplacement at replaced
    split at replaced
    all_goals cases replaced
    all_goals exact ⟨_, rfl, by decide⟩
  ampersand := by decide

variable (value : List Char)

theorem writeEscapedAttribute_eq : writeEscapedAttribute value = attributeEscaping.escape value :=
  writeEscapedFrom_eq attributeReplacement [] value

theorem writeEscaped_text : writeEscaped textReplacement value = textEscaping.escape value :=
  writeEscapedFrom_eq textReplacement [] value

theorem quote_notMem_writeEscapedAttribute : '"' ∉ writeEscapedAttribute value := by
  rw [writeEscapedAttribute_eq]
  exact attributeEscaping.notMem_escape (by decide) (by decide) (by decide) value

end Escaping

section Nodes

def writeDoctype (name publicId systemId : List Char) : List Char :=
  "<!DOCTYPE ".toList ++ name
    ++ (if publicId ≠ [] then
        " PUBLIC \"".toList ++ writeEscapedAttribute publicId ++ ['"']
          ++ (if systemId ≠ [] then " \"".toList ++ writeEscapedAttribute systemId ++ ['"'] else [])
      else if systemId ≠ [] then
        " SYSTEM \"".toList ++ writeEscapedAttribute systemId ++ ['"']
      else [])
    ++ ['>']

/-- What is written before the local name of an attribute. -/
def attributeQualifier (name : QualName) : List Char :=
  match name.ns with
  | .none => []
  | .xml => "xml:".toList
  | .xmlns => if name.localName ≠ "xmlns" then "xmlns:".toList else []
  | .xlink => "xlink:".toList
  | _ => "unknown_namespace:".toList

def writeAttribute (attr : Attribute) : List Char :=
  ' ' :: attributeQualifier attr.name ++ attr.name.localName.toList ++ "=\"".toList
    ++ writeEscapedAttribute attr.value ++ ['"']

/-- Whether the text of an element is written as it is. -/
def isRawText (name : QualName) : Bool :=
  name.ns == .html
    && ["style", "script", "xmp", "iframe", "noembed", "noframes", "plaintext"].contains
      name.localName

def writeText (value : List Char) (parentName : Option QualName) : List Char :=
  if parentName.any isRawText then value else writeEscaped textReplacement value

def isVoidElement (name : QualName) : Bool :=
  name.ns == .html
    && ["area", "base", "basefont", "bgsound", "br", "col", "embed", "frame", "hr", "img",
      "input", "keygen", "link", "meta", "param", "source", "track", "wbr"].contains name.localName

def writeStartTag (name : QualName) (attrs : List Attribute) : List Char :=
  '<' :: name.localName.toList ++ attrs.flatMap writeAttribute ++ ['>']

def writeEndTag (name : QualName) : List Char :=
  "</".toList ++ name.localName.toList ++ ['>']

/-- The children of a node, one after the other. -/
def serializeChildren (nodes : List Node) (serializeNode : NodeId → Option (List Char))
    (parent : NodeId) : Option (List Char) :=
  ((nodes[parent]?.elim [] Node.children).mapM serializeNode).map List.flatten

/-- The node whose children are written between the tags of an element. -/
def contentsOf (id : NodeId) (name : QualName) (templateContents : Option NodeId) : NodeId :=
  if name = ⟨.html, "template"⟩ then templateContents.getD id else id

def serializeNodeFor (nodes : List Node) :
    Nat → Option QualName → NodeId → Option (List Char)
  | 0, _, _ => none
  | fuel + 1, parentName, id =>
    match nodes[id]?.map Node.data with
    | none => some []
    | some .document => serializeChildren nodes (serializeNodeFor nodes fuel parentName) id
    | some (.doctype name publicId systemId) => some (writeDoctype name publicId systemId)
    | some (.text contents) => some (writeText contents parentName)
    | some (.comment contents) => some ("<!--".toList ++ contents ++ "-->".toList)
    | some (.element name attrs templateContents) =>
      if isVoidElement name then
        some (writeStartTag name attrs)
      else
        (serializeChildren nodes (serializeNodeFor nodes fuel (some name))
          (contentsOf id name templateContents)).map fun contents =>
            writeStartTag name attrs ++ contents ++ writeEndTag name
    | some (.processingInstruction target contents) =>
      some ("<?".toList ++ target ++ ' ' :: contents ++ ['>'])

def serializeDocument (document : Document) : List Char :=
  (serializeChildren document.nodes
    (serializeNodeFor document.nodes document.nodes.length none) document.root).getD []

/-- The name of the element that a node stands in. -/
def parentName (document : Document) (id : NodeId) : Option QualName :=
  (document.node id).bind Node.parent |>.bind fun parent =>
    (document.element? parent).map Prod.fst

def serializeSubtree (document : Document) (root : NodeId) : List Char :=
  (serializeNodeFor document.nodes document.nodes.length (parentName document root) root).getD []

end Nodes

end Offprint.Document
