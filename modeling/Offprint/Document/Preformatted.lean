import Offprint.Document.Serialize

/-!
# Preformatted text

A parser drops a line feed directly behind the start tag of a preformatted element or of a
text area.  The serializer writes no line feed for it to drop.
-/

set_option linter.dupNamespace false

namespace Offprint.Document

open Offprint.Data.Markup List

inductive Preformatted where
  | pre
  | listing
  | textarea
  deriving Repr, DecidableEq

namespace Preformatted

def localName : Preformatted → String
  | .pre => "pre"
  | .listing => "listing"
  | .textarea => "textarea"

def qualName (kind : Preformatted) : QualName :=
  ⟨.html, kind.localName⟩

def ofName? (name : List Char) : Option Preformatted :=
  [pre, listing, textarea].find? fun kind => kind.localName.toList == name

/-- Whether the text of the element ends at a part of the input.  A text area ends only at its
own end tag. -/
def ends (kind : Preformatted) (input : List Char) : Bool :=
  match kind, input with
  | .textarea, '<' :: '/' :: rest =>
    (rest.take 8).map Char.toLower == "textarea".toList
      && (rest.drop 8).head?.any fun next => !isNameCharacter next
  | .textarea, _ => false
  | _, '<' :: next :: _ => next.isAlpha || next == '/' || next == '!' || next == '?'
  | _, _ => false

/-- What becomes of the character U+0000 in the text of the element. -/
def null : Preformatted → List Char
  | .textarea => ['�']
  | _ => []

/-- The text of the element, of the characters between its tags. -/
def textOf (kind : Preformatted) (characters : List Char) : List Char :=
  received kind.null (if characters.head? = some '\n' then characters.tail else characters)

end Preformatted

/-- A preformatted element with nothing but text in it. -/
structure PreformattedElement where
  kind : Preformatted
  attributes : List (List Char × List Char)
  text : List Char
  deriving Repr, DecidableEq

section Parse

variable [NamedReferences]

/-- What a parser makes of one preformatted element, from its name on. -/
def parseNamed (input : List Char) : Option PreformattedElement :=
  (readStartTag input).bind fun (tag, rest) =>
    (Preformatted.ofName? tag.name).bind fun kind =>
      (readCharacters false ['\x00'] kind.ends rest).bind fun (characters, rest) =>
        if rest = writeEndTag kind.qualName then
          some ⟨kind, tag.attributes, kind.textOf characters⟩
        else
          none

/-- What a parser makes of a source that is one preformatted element. -/
def parsePreformatted (source : List Char) : Option PreformattedElement :=
  match normalizeNewlines source with
  | '<' :: input => parseNamed input
  | _ => none

variable (kind : Preformatted) {attrs : List Attribute}

omit [NamedReferences] in
theorem Preformatted.ofName?_localName : ofName? kind.localName.toList = some kind := by
  cases kind <;> decide

theorem Preformatted.readCharacters_escape (text : List Char) :
    readCharacters false ['\x00'] kind.ends
        (textEscaping.escape text ++ writeEndTag kind.qualName)
      = some (text, writeEndTag kind.qualName) := by
  rw [textEscaping.readCharacters_escape, received_null]
  · intro char following kept
    have other : char ≠ '<' := by
      rintro rfl
      exact kept.elim (by decide) (by decide)
    unfold Preformatted.ends
    split
    · rename_i opened
      exact absurd (List.cons.inj opened).1 other
    · rfl
    · rename_i opened
      exact absurd (List.cons.inj opened).1 other
    · rfl
  · cases kind <;> decide
  · exact cons_ne_nil _ _

/-- The attributes that a parser gives an element of the page. -/
structure IsParsed (attrs : List Attribute) : Prop where
  unqualified : ∀ attr ∈ attrs, attr.name.ns = .none
  named : ∀ attr ∈ attrs, isAttributeName attr.name.localName.toList
  distinct : (attrs.map fun attr => attr.name.localName.toList).Nodup

/-- An attribute as a reader of tags sees it. -/
def plainAttribute (attr : Attribute) : List Char × List Char :=
  (attr.name.localName.toList, attr.value)

omit [NamedReferences] in
theorem IsParsed.flatMap_writeAttribute (parsed : IsParsed attrs) : attrs.flatMap writeAttribute
      = (attrs.map plainAttribute).flatMap (writeQuoted attributeEscaping) := by
  rw [flatMap_map]
  apply flatMap_congr
  intro attr present
  simp [writeAttribute, attributeQualifier, parsed.unqualified attr present, plainAttribute,
    writeQuoted, writeEscapedAttribute_eq]

theorem parsePreformatted_written (parsed : IsParsed attrs) {text : List Char}
    (noReturn : '\r' ∉ text) : parsePreformatted (writeStartTag kind.qualName attrs
        ++ (textEscaping.escape text ++ writeEndTag kind.qualName))
      = some ⟨kind, attrs.map fun attr =>
          (attr.name.localName.toList, received ['�'] (normalizeNewlines attr.value)),
        kind.textOf text⟩ := by
  have plain : '\r' ∉ '<' :: kind.localName.toList := by
    cases kind <;> decide
  have named : ∀ one ∈ attrs.map plainAttribute, isAttributeName one.1 := by
    intro one present
    obtain ⟨attr, listed, rfl⟩ := mem_map.mp present
    exact parsed.named attr listed
  have ended : normalizeNewlines (textEscaping.escape text ++ writeEndTag kind.qualName)
      = textEscaping.escape text ++ writeEndTag kind.qualName := by
    rw [normalizeNewlines_append _ (by simp [writeEndTag]),
      textEscaping.normalizeNewlines_escape rfl rfl, normalizeNewlines_eq_self noReturn,
      normalizeNewlines_eq_self]
    cases kind <;> decide
  have input : normalizeNewlines (writeStartTag kind.qualName attrs
        ++ (textEscaping.escape text ++ writeEndTag kind.qualName))
      = '<' :: (kind.localName.toList
        ++ (((attrs.map plainAttribute).map fun one => (one.1, normalizeNewlines one.2)).flatMap
            (writeQuoted attributeEscaping)
          ++ '>' :: (textEscaping.escape text ++ writeEndTag kind.qualName))) := by
    have opened : writeStartTag kind.qualName attrs
          ++ (textEscaping.escape text ++ writeEndTag kind.qualName)
        = ('<' :: kind.localName.toList)
          ++ ((attrs.map plainAttribute).flatMap (writeQuoted attributeEscaping)
            ++ '>' :: (textEscaping.escape text ++ writeEndTag kind.qualName)) := by
      rw [← parsed.flatMap_writeAttribute]
      simp [writeStartTag, Preformatted.qualName]
    rw [opened, normalizeNewlines_append_of_plain plain,
      normalizeNewlines_writeQuoted rfl rfl named, ended, cons_append]
  have normalizedNames : ∀ one ∈ (attrs.map plainAttribute).map
      (fun one => (one.1, normalizeNewlines one.2)), isAttributeName one.1 := by
    intro one present
    obtain ⟨original, listed, rfl⟩ := mem_map.mp present
    exact named original listed
  have distinct : (((attrs.map plainAttribute).map
      fun one => (one.1, normalizeNewlines one.2)).map Prod.fst).Nodup := by
    rw [map_map, map_map]
    exact parsed.distinct
  have quoted : attributeEscaping.replacement '"' ≠ none := by decide
  have tag : readStartTag (kind.localName.toList ++ _) = some (_, _) :=
    readStartTag_writeQuoted quoted (textEscaping.escape text ++ writeEndTag kind.qualName)
      (by cases kind <;> decide) (by cases kind <;> decide) normalizedNames distinct
  rw [parsePreformatted, input]
  show parseNamed _ = _
  rw [parseNamed, tag, Option.bind_some]
  dsimp only
  rw [kind.ofName?_localName, Option.bind_some, kind.readCharacters_escape, Option.bind_some,
    if_pos rfl]
  simp [plainAttribute]

end Parse

section Text

variable {kind : Preformatted} {text : List Char}

theorem received_eq_self_iff {null text : List Char} (other : '\x00' ∉ null) :
    received null text = text ↔ '\x00' ∉ text := by
  constructor
  · intro same present
    rw [← same] at present
    obtain ⟨char, -, read⟩ := List.mem_flatMap.mp present
    split_ifs at read with isNull
    · exact other read
    · exact isNull (List.mem_singleton.mp read).symm
  · exact received_eq_self

theorem length_received_le {null text : List Char} (short : null.length ≤ 1) :
    (received null text).length ≤ text.length := by
  induction text with
  | nil => exact Nat.le_refl 0
  | cons char rest ih =>
    rw [received, List.flatMap_cons, ← received, List.length_append, List.length_cons]
    split_ifs
    · omega
    · rw [List.length_singleton]
      omega

theorem Preformatted.textOf_eq_self_iff :
    kind.textOf text = text ↔ text.head? ≠ some '\n' ∧ '\x00' ∉ text := by
  have short : kind.null.length ≤ 1 := by cases kind <;> decide
  have other : '\x00' ∉ kind.null := by cases kind <;> decide
  rw [Preformatted.textOf]
  split_ifs with leading
  · constructor
    · intro same
      have fewer : (received kind.null text.tail).length ≤ text.tail.length :=
        length_received_le short
      cases text with
      | nil => cases leading
      | cons first rest =>
        have longer := congrArg List.length same
        rw [List.tail_cons, List.length_cons] at longer
        rw [List.tail_cons] at fewer
        omega
    · rintro ⟨notLeading, -⟩
      exact absurd leading notLeading
  · rw [received_eq_self_iff other]
    exact ⟨fun visible => ⟨leading, visible⟩, fun both => both.2⟩

end Text

section Survival

variable [NamedReferences] {document : Document} {id child : NodeId}
  {node textNode : Node} {kind : Preformatted} {attrs : List Attribute}
  {templateContents : Option NodeId} {text : List Char}
  (found : document.node id = some node) (onlyChild : node.children = [child])
  (isElement : node.data = .element kind.qualName attrs templateContents)
include found onlyChild isElement

omit [NamedReferences] in
theorem serializeSubtree_preformatted
    (foundText : document.node child = some textNode) (isText : textNode.data = .text text) :
    serializeSubtree document id
      = writeStartTag kind.qualName attrs
        ++ (textEscaping.escape text ++ writeEndTag kind.qualName) := by
  have distinct : @Ne Nat id child := by
    rintro rfl
    cases found.symm.trans foundText
    rw [isElement] at isText
    cases isText
  obtain ⟨fuel, enough⟩ : ∃ fuel, document.nodes.length = fuel + 2 := by
    have inside := (List.getElem?_eq_some_iff.mp found).1
    have insideText := (List.getElem?_eq_some_iff.mp foundText).1
    exact ⟨document.nodes.length - 2, by omega⟩
  have visible : isVoidElement kind.qualName = false := by cases kind <;> decide
  have escaped : isRawText kind.qualName = false := by cases kind <;> decide
  have contents : contentsOf id kind.qualName templateContents = id := by
    cases kind <;> rfl
  unfold Document.node at found foundText
  rw [serializeSubtree, enough, serializeNodeFor, found, Option.map_some, isElement]
  dsimp only
  rw [visible, contents, serializeChildren, found, Option.elim_some, onlyChild, List.mapM_cons,
    serializeNodeFor, foundText, Option.map_some, isText]
  simp [writeText, escaped, writeEscaped_text]

/-- The text of a preformatted element is read back from its serialization exactly when it has
no line feed at its start and no character U+0000. -/
theorem preformatted_text_survives_iff
    (parsed : IsParsed attrs) (foundText : document.node child = some textNode)
    (isText : textNode.data = .text text) (noReturn : '\r' ∉ text) :
    (∃ element, parsePreformatted (serializeSubtree document id) = some element ∧
        element.kind = kind ∧ element.text = text) ↔
      text.head? ≠ some '\n' ∧ '\x00' ∉ text := by
  rw [serializeSubtree_preformatted found onlyChild isElement foundText isText,
    parsePreformatted_written kind parsed noReturn, ← kind.textOf_eq_self_iff]
  constructor
  · rintro ⟨element, read, -, same⟩
    cases read
    exact same
  · intro same
    exact ⟨_, rfl, rfl, same⟩

end Survival

/-- A page with one preformatted element and a text in it. -/
def preformattedPage (text : List Char) : Document where
  nodes := [⟨none, [1], .document⟩, ⟨some 0, [2], .element ⟨.html, "pre"⟩ [] none⟩,
    ⟨some 1, [], .text text⟩]
  root := 0
  tree := ⟨[0, 1, 2], rfl, by decide⟩

theorem preformatted_text_survives :
    ∃ element, @parsePreformatted .least (serializeSubtree (preformattedPage "a\n".toList) 1)
        = some element ∧ element.kind = .pre ∧ element.text = "a\n".toList :=
  (@preformatted_text_survives_iff .least (preformattedPage "a\n".toList) 1 2 _ _ .pre [] none
    "a\n".toList rfl rfl rfl ⟨by simp, by simp, by simp⟩ rfl rfl (by decide)).mpr
    ⟨by decide, by decide⟩

/-- Of two line feeds at the start of an element, one is read back. -/
theorem leading_line_feed_lost :
    (preformattedPage "\n\na".toList).textContents 1 = "\n\na".toList ∧
      @parsePreformatted .least (serializeSubtree (preformattedPage "\n\na".toList) 1)
        = some ⟨.pre, [], "\na".toList⟩ := by
  decide

end Offprint.Document
