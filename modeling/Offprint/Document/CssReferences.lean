import Offprint.Data.Css
import Offprint.Document.Srcset

/-!
# References of a stylesheet

The collector walks over the tokens and blocks of a stylesheet and counts the references
that are more than blank or a fragment of the same document.
-/

namespace Offprint.Document

open Data Effect Model List

section Collect

/-- Whether a reference of a stylesheet names a resource outside the document. -/
def isCssResource (value : List Char) : Bool :=
  let trimmed := Text.trim value
  trimmed != [] && trimmed.head? != some '#'

structure CssCollection where
  references : List Reference
  resourceCount : Nat
  exceeded : Bool
  deriving Repr, DecidableEq

def addCssReference (maximum : Nat) (collection : CssCollection) (reference : Reference) :
    CssCollection :=
  if isCssResource reference.value then
    if collection.resourceCount ≥ maximum then
      { collection with exceeded := true }
    else
      { collection with
        resourceCount := collection.resourceCount + 1
        references := collection.references ++ [reference] }
  else
    { collection with references := collection.references ++ [reference] }

/-- The value of a `url` function: its first token, if that is a string. -/
def urlArgument : Css.Components → Option (List Char)
  | .leaf ⟨.whitespace, _⟩ rest => urlArgument rest
  | .leaf ⟨.comment, _⟩ rest => urlArgument rest
  | .leaf ⟨.string value, _⟩ _ => some value
  | .leaf ⟨.url value, _⟩ _ => some value
  | _ => none

def isUrlFunction : Css.Token → Bool
  | .function name => Css.eqIgnoreAsciiCase name "url"
  | _ => false

/-- Whether the strings of a block are URLs; a function decides for itself. -/
def quotedInside (quoted : Bool) : Css.Token → Bool
  | .function name =>
    Css.eqIgnoreAsciiCase name "image-set" || Css.eqIgnoreAsciiCase name "-webkit-image-set"
  | _ => quoted

/-- The reference a token makes, where a string is one behind an `@import` only or everywhere. -/
def tokenReference (quoted importing : Bool) : Css.Token → Option (List Char)
  | .url value => some value
  | .string value => if importing || quoted then some value else none
  | _ => none

/-- Whether the next string is behind an `@import`. -/
def importingAfter (importing : Bool) : Css.Token → Bool
  | .atKeyword name => Css.eqIgnoreAsciiCase name "import"
  | .whitespace | .comment => importing
  | _ => false

def piecesSize (pieces : List Css.Piece) : Nat :=
  Text.size (pieces.flatMap Css.Piece.text)

/-- Add the reference that was found, if any. -/
def addFound (maximum : Nat) (collection : CssCollection) (start stop : Nat)
    (value : Option (List Char)) : CssCollection :=
  match value with
  | some value => addCssReference maximum collection ⟨value, start, stop⟩
  | none => collection

/-- Collect from some components on, until there are too many references. -/
def collectCssComponents (maximum : Nat) :
    Css.Components → (quoted importing : Bool) → (position : Nat) → CssCollection → CssCollection
  | .done, _, _, _, collection => collection
  | .leaf piece rest, quoted, importing, position, collection =>
    if collection.exceeded then collection
    else
      let after := position + Text.size piece.text
      let found := tokenReference quoted importing piece.token
      collectCssComponents maximum rest quoted (importingAfter importing piece.token) after
        (addFound maximum collection position after found)
  | .block opening content closing rest, quoted, _, position, collection =>
    if collection.exceeded then collection
    else
      let inside := position + Text.size opening.text
      let after := inside + piecesSize content.pieces + piecesSize closing.toList
      let nested :=
        if isUrlFunction opening.token then
          addFound maximum collection position after (urlArgument content)
        else
          collectCssComponents maximum content (quotedInside quoted opening.token) false inside
            collection
      collectCssComponents maximum rest quoted false after nested

def cssLimitError : OffprintError :=
  resourceError "offprint.resource.limit" "CSS resource count exceeds the configured limit"

def cssReferencesBounded (css : List Char) (maximum : Nat) :
    Checked OffprintError (List Reference) :=
  let collection := collectCssComponents maximum (Css.Components.parse (Css.tokens css)) false false
    0 ⟨[], 0, false⟩
  if collection.exceeded then .error cssLimitError else .ok collection.references

end Collect

section Found

/-- The references of some components, however many there are. -/
def componentReferences :
    Css.Components → (quoted importing : Bool) → (position : Nat) → List Reference
  | .done, _, _, _ => []
  | .leaf piece rest, quoted, importing, position =>
    let after := position + Text.size piece.text
    (tokenReference quoted importing piece.token).toList.map (⟨·, position, after⟩) ++
      componentReferences rest quoted (importingAfter importing piece.token) after
  | .block opening content closing rest, quoted, _, position =>
    let inside := position + Text.size opening.text
    let after := inside + piecesSize content.pieces + piecesSize closing.toList
    (if isUrlFunction opening.token then
        (urlArgument content).toList.map (⟨·, position, after⟩)
      else
        componentReferences content (quotedInside quoted opening.token) false inside) ++
      componentReferences rest quoted false after

def cssReferences (css : List Char) : List Reference :=
  componentReferences (Css.Components.parse (Css.tokens css)) false false 0

/-- Add references until there are too many. -/
def addCssReferences (maximum : Nat) (collection : CssCollection) (references : List Reference) :
    CssCollection :=
  references.foldl (fun collection reference =>
    if collection.exceeded then collection else addCssReference maximum collection reference)
    collection

variable {maximum : Nat} {collection : CssCollection}

theorem addCssReferences_of_exceeded (exceeded : collection.exceeded = true)
    (references : List Reference) :
    addCssReferences maximum collection references = collection := by
  induction references with
  | nil => rfl
  | cons reference rest ih =>
    rw [addCssReferences, foldl_cons, if_pos exceeded]
    exact ih

theorem addCssReferences_append (collection : CssCollection) (first second : List Reference) :
    addCssReferences maximum collection (first ++ second) =
      addCssReferences maximum (addCssReferences maximum collection first) second :=
  foldl_append

theorem addFound_eq (room : ¬collection.exceeded = true) (start stop : Nat)
    (value : Option (List Char)) :
    addFound maximum collection start stop value =
      addCssReferences maximum collection (value.toList.map (⟨·, start, stop⟩)) := by
  cases value with
  | none => rfl
  | some value => exact (if_neg room).symm

theorem collectCssComponents_eq (components : Css.Components) (quoted importing : Bool)
    (position : Nat) (collection : CssCollection) :
    collectCssComponents maximum components quoted importing position collection =
      addCssReferences maximum collection
        (componentReferences components quoted importing position) := by
  induction components generalizing quoted importing position collection with
  | done => rfl
  | leaf piece rest ih =>
    by_cases exceeded : collection.exceeded = true
    · rw [addCssReferences_of_exceeded exceeded, collectCssComponents, if_pos exceeded]
    · rw [collectCssComponents, if_neg exceeded, componentReferences, addCssReferences_append,
        ih, addFound_eq exceeded]
  | block opening content closing rest inside after =>
    by_cases exceeded : collection.exceeded = true
    · rw [addCssReferences_of_exceeded exceeded, collectCssComponents, if_pos exceeded]
    · rw [collectCssComponents, if_neg exceeded, componentReferences, addCssReferences_append,
        after]
      by_cases url : isUrlFunction opening.token = true
      · rw [if_pos url, if_pos url, addFound_eq exceeded]
      · rw [if_neg url, if_neg url, inside]

def countCssResources (references : List Reference) : Nat :=
  references.countP fun reference => isCssResource reference.value

theorem addCssReferences_eq (held references : List Reference) {count : Nat}
    (room : count ≤ maximum) : if count + countCssResources references ≤ maximum then
      addCssReferences maximum ⟨held, count, false⟩ references =
        ⟨held ++ references, count + countCssResources references, false⟩
    else (addCssReferences maximum ⟨held, count, false⟩ references).exceeded = true := by
  induction references generalizing held count with
  | nil => simp [addCssReferences, countCssResources, room]
  | cons reference rest ih =>
    have first : addCssReferences maximum ⟨held, count, false⟩ (reference :: rest) =
        addCssReferences maximum (addCssReference maximum ⟨held, count, false⟩ reference) rest :=
      rfl
    rw [first, addCssReference]
    by_cases resource : isCssResource reference.value = true
    · have counted : countCssResources (reference :: rest) = countCssResources rest + 1 :=
        countP_cons_of_pos resource
      rw [if_pos resource, counted]
      by_cases full : count ≥ maximum
      · rw [if_neg (by omega), if_pos full, addCssReferences_of_exceeded rfl]
      · have added := ih (held ++ [reference]) (by omega : count + 1 ≤ maximum)
        rw [if_neg full]
        have regroup : count + (countCssResources rest + 1) =
            count + 1 + countCssResources rest := by omega
        rw [regroup]
        simpa only [append_assoc, singleton_append] using added
    · have counted : countCssResources (reference :: rest) = countCssResources rest :=
        countP_cons_of_neg resource
      have added := ih (held ++ [reference]) room
      rw [if_neg resource, counted]
      simpa only [append_assoc, singleton_append] using added

theorem cssReferencesBounded_eq (css : List Char) (maximum : Nat) :
    cssReferencesBounded css maximum =
      if countCssResources (cssReferences css) ≤ maximum then .ok (cssReferences css)
      else .error cssLimitError := by
  have added := @addCssReferences_eq maximum [] (cssReferences css) 0 (Nat.zero_le _)
  rw [Nat.zero_add] at added
  rw [cssReferencesBounded, collectCssComponents_eq, ← cssReferences]
  by_cases fits : countCssResources (cssReferences css) ≤ maximum
  · rw [if_pos fits] at added ⊢
    rw [added]
    rfl
  · rw [if_neg fits] at added ⊢
    rw [if_pos added]

end Found
end Offprint.Document
