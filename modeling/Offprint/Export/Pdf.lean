import Offprint.Data.Utf8

/-!
# Passive PDF documents

The check that keeps an exported PDF from doing anything when it is opened.  It
walks the trailer and every object for forbidden entries, and follows the
actions of every `A` entry through references, arrays and `Next` links.  The
document may be cyclic; the walk ends because its depth is bounded.
-/

namespace Offprint.Export

open Data Option Bool List

abbrev ObjectId := Nat × Nat

/-- A PDF object; the content of a stream is not read by the check. -/
inductive Object where
  | null
  | boolean (value : Bool)
  | integer (value : Int)
  | real (value : Float)
  | name (value : List UInt8)
  | string (value : List UInt8)
  | array (values : List Object)
  | dictionary (entries : List (List UInt8 × Object))
  | stream (entries : List (List UInt8 × Object))
  | reference (id : ObjectId)

open Object

abbrev Dictionary := List (List UInt8 × Object)

def ascii (text : String) : List UInt8 :=
  Utf8.encode text.toList

def Object.asName : Object → Option (List UInt8)
  | .name value => some value
  | _ => none

def Object.asStr : Object → Option (List UInt8)
  | .string value => some value
  | _ => none

variable (dictionary : Dictionary)

def Dictionary.get (key : String) : Option Object :=
  dictionary.lookup (ascii key)

def Dictionary.hasType (kind : String) : Bool :=
  (dictionary.get "Type").bind asName == some (ascii kind)

/-- A document with the PDF library's lookup of an object by its number. -/
structure PdfDocument where
  trailer : Dictionary
  objects : List (ObjectId × Object)
  getObject : ObjectId → Option Object

def forbiddenKeys : List (List UInt8) :=
  ["AA", "AcroForm", "AF", "Collection", "EF", "EmbeddedFiles", "JS", "JavaScript", "OpenAction",
    "RichMediaContent", "RichMediaSettings", "XFA"].map ascii

def forbiddenDictionaryKinds : List (List UInt8) :=
  ["3D", "EmbeddedFile", "FileAttachment", "Filespec", "JavaScript", "Movie", "PS", "RichMedia",
    "RichMediaInstance", "RichMediaPresentation", "Screen", "Sound"].map ascii

def forbiddenActions : List (List UInt8) :=
  ["GoTo3DView", "GoToE", "GoToR", "Hide", "ImportData", "JavaScript", "Launch", "Movie", "Named",
    "Rendition", "ResetForm", "SetOCGState", "Sound", "SubmitForm", "Thread", "Trans"].map ascii

def isAsciiControl (char : Char) : Bool :=
  char.toNat < 0x20 || char.toNat == 0x7f

def isAsciiWhitespace (char : Char) : Bool :=
  [' ', '\t', '\n', '\x0c', '\r'].contains char

def safeSchemes : List (List Char) :=
  ["http", "https", "mailto", "tel"].map String.toList

def pdfUriIsSafe (uri : List UInt8) : Bool :=
  match Utf8.decode uri with
  | none => false
  | some uri =>
    if uri.any fun char => isAsciiControl char || isAsciiWhitespace char then false
    else if uri.contains ':' then
      safeSchemes.contains ((uri.takeWhile (· != ':')).map Char.toLower)
    else false

def dictionaryKindIsForbidden (key : String) : Bool :=
  ((dictionary.get key).bind asName).any forbiddenDictionaryKinds.contains

def actionDictionaryIsSafe : Bool :=
  match (dictionary.get "S").bind asName with
  | some kind =>
    if kind = ascii "GoTo" then true
    else if kind = ascii "URI" then ((dictionary.get "URI").bind asStr).any pdfUriIsSafe
    else if forbiddenActions.contains kind then false
    else !dictionary.hasType "Action"
  | none => !dictionary.hasType "Action"

section Resolving

variable (document : PdfDocument)

def resolved (read : Object → Option (List UInt8)) (object : Object) (depth : Nat) :
    Option (List UInt8) :=
  if depth > 128 then none
  else match object with
    | .reference id => (document.getObject id).bind fun value => resolved read value (depth + 1)
    | object => read object
termination_by 129 - depth

def resolvedName : Object → Nat → Option (List UInt8) :=
  resolved document asName

def resolvedString : Object → Nat → Option (List UInt8) :=
  resolved document asStr

def primaryIsSafe (action : Dictionary) (kind : List UInt8) (depth : Nat) : Bool :=
  if kind = ascii "GoTo" then true
  else if kind = ascii "URI" then
    ((action.get "URI").bind fun uri => resolvedString document uri (depth + 1)).any pdfUriIsSafe
  else false

mutual

def objectIsPassive (object : Object) (depth : Nat) : Bool :=
  if depth > 128 then false
  else match object with
    | .array values => values.all fun value => objectIsPassive value (depth + 1)
    | .dictionary dictionary => dictionaryIsPassive dictionary (depth + 1)
    | .stream dict => dictionaryIsPassive dict (depth + 1)
    | _ => true
termination_by (129 - depth, 0)

def dictionaryIsPassive (dictionary : Dictionary) (depth : Nat) : Bool :=
  if depth > 128 then false
  else if dictionary.any fun entry => forbiddenKeys.contains entry.1 then false
  else if dictionaryKindIsForbidden dictionary "Type" then false
  else if dictionaryKindIsForbidden dictionary "Subtype" then false
  else if !actionDictionaryIsSafe dictionary then false
  else if (dictionary.get "A").any fun entry => !aEntryIsSafe dictionary entry depth then false
  else dictionary.all fun entry => objectIsPassive entry.2 (depth + 1)
termination_by (129 - depth, 2)

def aEntryIsSafe (owner : Dictionary) (entry : Object) (depth : Nat) : Bool :=
  if owner.hasType "StructElem" then true
  else actionObjectIsSafe entry [] depth
termination_by (129 - depth, 1)

/-- `resolving` holds the references being followed, newest first; each leaves it again when its
object is done. -/
def actionObjectIsSafe (object : Object) (resolving : List ObjectId) (depth : Nat) : Bool :=
  if depth > 128 then false
  else match object with
    | .reference id =>
      if resolving.contains id then false
      else (document.getObject id).any fun action =>
        actionObjectIsSafe action (id :: resolving) (depth + 1)
    | .array actions =>
      actions.all fun action => actionObjectIsSafe action resolving (depth + 1)
    | .dictionary action =>
      match (Dictionary.get action "S").bind fun kind => resolvedName document kind (depth + 1) with
      | none => false
      | some kind =>
        primaryIsSafe document action kind depth && dictionaryIsPassive action (depth + 1) &&
          (Dictionary.get action "Next").all fun next =>
            actionObjectIsSafe next resolving (depth + 1)
    | _ => false
termination_by (129 - depth, 0)

end

def pdfObjectsArePassive : Bool :=
  dictionaryIsPassive document document.trailer 0 &&
    document.objects.all fun entry => objectIsPassive document entry.2 0

/-- The dictionary of a dictionary or a stream. -/
def Object.entries : Object → Option Dictionary
  | .dictionary entries | .stream entries => some entries
  | _ => none

/-- The dictionary stands in the object, at any nesting. -/
inductive Contains (dictionary : Dictionary) : Object → Prop where
  | here {object} : object.entries = some dictionary → Contains dictionary object
  | array {value values} : value ∈ values → Contains dictionary value →
      Contains dictionary (.array values)
  | entry {object owner entry} : object.entries = some owner → entry ∈ owner →
      Contains dictionary entry.2 → Contains dictionary object

/-- The action is reached from the object by references, arrays and `Next` links. -/
inductive Reaches (action : Dictionary) : Object → Prop where
  | here : Reaches action (.dictionary action)
  | reference {id object} : document.getObject id = some object → Reaches action object →
      Reaches action (.reference id)
  | array {entry entries} : entry ∈ entries → Reaches action entry →
      Reaches action (.array entries)
  | next {first : Dictionary} {next} : first.get "Next" = some next → Reaches action next →
      Reaches action (.dictionary first)

/-- The value an object stands for when references are followed. -/
inductive ResolvesTo (value : Object) : Object → Prop where
  | here : ResolvesTo value value
  | reference {id object} : document.getObject id = some object → ResolvesTo value object →
      ResolvesTo value (.reference id)

def Dictionary.Resolves (dictionary : Dictionary) (key : String) (value : Object) : Prop :=
  ∃ object, dictionary.get key = some object ∧ ResolvesTo document value object

/-- The bytes are a text whose scheme, in any case, is one of the kept ones. -/
def HasSafeScheme (uri : List UInt8) : Prop :=
  ∃ scheme rest, uri = Utf8.encode (scheme ++ ':' :: rest) ∧ ':' ∉ scheme ∧
    scheme.map Char.toLower ∈ safeSchemes

def SafeAction (action : Dictionary) : Prop :=
  action.Resolves document "S" (.name (ascii "GoTo")) ∨
    action.Resolves document "S" (.name (ascii "URI")) ∧
      ∃ uri, action.Resolves document "URI" (.string uri) ∧ HasSafeScheme uri

/-- Nothing in the dictionary runs, and its link goes to places and addresses of kept schemes. -/
structure Passive (dictionary : Dictionary) : Prop where
  keys : ∀ entry ∈ dictionary, entry.1 ∉ forbiddenKeys
  kinds : ∀ key ∈ ["Type", "Subtype"], ∀ kind ∈ forbiddenDictionaryKinds,
    dictionary.get key ≠ some (.name kind)
  actions : dictionary.get "Type" ≠ some (.name (ascii "StructElem")) →
    ∀ entry, dictionary.get "A" = some entry →
    ∀ action, Reaches document action entry → SafeAction document action

/-- The dictionary is in the trailer or in an object of the document. -/
def Occurs (dictionary : Dictionary) : Prop :=
  Contains dictionary (.dictionary document.trailer) ∨
    ∃ entry ∈ document.objects, Contains dictionary entry.2

variable {document} {dictionary action : Dictionary} {object : Object} {depth : Nat}
  {bytes : List UInt8} {resolving : List ObjectId}

theorem resolvesTo_of_resolved {read : Object → Option (List UInt8)}
    (found : resolved document read object depth = some bytes) :
    ∃ value, ResolvesTo document value object ∧ read value = some bytes := by
  fun_induction resolved document read object depth with
  | case1 => contradiction
  | case2 depth _ id ih =>
    obtain ⟨next, lookup, found⟩ := bind_eq_some_iff.mp found
    obtain ⟨value, resolves, known⟩ := ih next found
    exact ⟨value, .reference lookup resolves, known⟩
  | case3 _ _ object => exact ⟨object, .here, found⟩

theorem Object.eq_name_of_asName (known : object.asName = some bytes) : object = .name bytes := by
  cases object <;> cases known
  rfl

theorem Object.eq_string_of_asStr (known : object.asStr = some bytes) : object = .string bytes := by
  cases object <;> cases known
  rfl

theorem hasSafeScheme_of_safe (safe : pdfUriIsSafe bytes) : HasSafeScheme bytes := by
  unfold pdfUriIsSafe at safe
  cases decoded : Utf8.decode bytes with
  | none => simp [decoded] at safe
  | some text =>
    simp only [decoded, if_false_left, if_false_right, and_eq_true, decide_eq_true_eq,
      contains_iff_mem] at safe
    obtain ⟨-, colon, known⟩ := safe
    obtain ⟨scheme, rest, rfl, first⟩ := eq_append_cons_of_mem colon
    have before : ∀ char ∈ scheme, (char != ':') = true := by
      intro char member
      exact bne_iff_ne.mpr (ne_of_mem_of_not_mem member first)
    rw [takeWhile_append_of_pos before, takeWhile_cons_of_neg (by decide), append_nil] at known
    exact ⟨scheme, rest, (Utf8.encode_of_decode decoded).symm, first, known⟩

theorem safeAction_of_primary (named : action.Resolves document "S" (.name bytes))
    (safe : primaryIsSafe document action bytes depth) : SafeAction document action := by
  unfold primaryIsSafe at safe
  split at safe
  next same => exact .inl (same ▸ named)
  next =>
    split at safe
    next same =>
      obtain ⟨uri, found, safe⟩ := (any_eq_true _ _).mp safe
      obtain ⟨entry, lookup, found⟩ := bind_eq_some_iff.mp found
      obtain ⟨value, resolves, known⟩ := resolvesTo_of_resolved found
      rw [eq_string_of_asStr known] at resolves
      exact .inr ⟨same ▸ named, uri, ⟨entry, lookup, resolves⟩, hasSafeScheme_of_safe safe⟩
    next => contradiction

theorem safe_of_actionObjectIsSafe
    (safe : actionObjectIsSafe document (.dictionary action) resolving depth) :
    SafeAction document action ∧ ∀ next, action.get "Next" = some next →
      actionObjectIsSafe document next resolving (depth + 1) = true := by
  unfold actionObjectIsSafe at safe
  simp only [if_false_left, and_eq_true] at safe
  obtain ⟨-, safe⟩ := safe
  split at safe
  next => contradiction
  next kind named =>
    simp only [and_eq_true] at safe
    obtain ⟨⟨primary, -⟩, following⟩ := safe
    obtain ⟨entry, lookup, named⟩ := bind_eq_some_iff.mp named
    obtain ⟨value, resolves, known⟩ := resolvesTo_of_resolved named
    rw [eq_name_of_asName known] at resolves
    refine ⟨safeAction_of_primary ⟨entry, lookup, resolves⟩ primary, ?_⟩
    intro next found
    simpa [found] using following

/-- Every action reached from a checked object was checked itself. -/
theorem Reaches.safe (reaches : Reaches document action object)
    (safe : actionObjectIsSafe document object resolving depth) : SafeAction document action := by
  induction reaches generalizing resolving depth with
  | here => exact (safe_of_actionObjectIsSafe safe).1
  | reference found _ ih =>
    unfold actionObjectIsSafe at safe
    simp only [if_false_left, and_eq_true, found, any_some] at safe
    exact ih safe.2.2
  | array member _ ih =>
    unfold actionObjectIsSafe at safe
    simp only [if_false_left, and_eq_true, List.all_eq_true] at safe
    exact ih (safe.2 _ member)
  | next found _ ih => exact ih ((safe_of_actionObjectIsSafe safe).2 _ found)

theorem passive_of_dictionaryIsPassive
    (passive : dictionaryIsPassive document dictionary depth) :
    Passive document dictionary ∧
      ∀ entry ∈ dictionary, objectIsPassive document entry.2 (depth + 1) = true := by
  unfold dictionaryIsPassive at passive
  simp only [if_false_left, and_eq_true, not_eq_true', decide_eq_true, List.all_eq_true,
    List.any_eq_false, contains_iff_mem] at passive
  obtain ⟨-, keys, kind, subtype, -, actions, entries⟩ := passive
  refine ⟨⟨keys, ?_, ?_⟩, entries⟩
  · intro key known name forbidden found
    have allowed : dictionaryKindIsForbidden dictionary key = false := by
      rcases mem_pair.mp known with rfl | rfl
      · exact kind
      · exact subtype
    simp [dictionaryKindIsForbidden, found, asName, forbidden] at allowed
  · intro ordinary entry found action reaches
    have noElement : dictionary.hasType "StructElem" = false := by
      rw [Dictionary.hasType, beq_eq_false_iff_ne]
      intro same
      obtain ⟨value, entry, known⟩ := bind_eq_some_iff.mp same
      exact ordinary (eq_name_of_asName known ▸ entry)
    rw [found, any_some, aEntryIsSafe, noElement] at actions
    exact reaches.safe (by simpa using actions)

theorem dictionaryIsPassive_of_entries (passive : objectIsPassive document object depth)
    (entries : object.entries = some dictionary) :
    dictionaryIsPassive document dictionary (depth + 1) = true := by
  unfold objectIsPassive at passive
  cases object <;> cases entries <;> simp_all

/-- Every dictionary inside a checked object was checked itself. -/
theorem Contains.passive (contains : Contains dictionary object)
    (passive : objectIsPassive document object depth) : Passive document dictionary := by
  induction contains generalizing depth with
  | here entries =>
    exact (passive_of_dictionaryIsPassive (dictionaryIsPassive_of_entries passive entries)).1
  | array member _ ih =>
    unfold objectIsPassive at passive
    simp only [if_false_left, and_eq_true, List.all_eq_true] at passive
    exact ih (passive.2 _ member)
  | entry entries member _ ih =>
    have owner := dictionaryIsPassive_of_entries passive entries
    exact ih ((passive_of_dictionaryIsPassive owner).2 _ member)

/-- The check ends on every document, cyclic or not, and in an accepted one every dictionary is
passive. -/
theorem passive_of_pdfObjectsArePassive (document : PdfDocument)
    (accepted : pdfObjectsArePassive document) (dictionary : Dictionary)
    (occurs : Occurs document dictionary) : Passive document dictionary := by
  rw [pdfObjectsArePassive, and_eq_true, List.all_eq_true] at accepted
  obtain ⟨trailer, objects⟩ := accepted
  rcases occurs with inside | ⟨entry, member, inside⟩
  · have checked := passive_of_dictionaryIsPassive trailer
    cases inside with
    | here same =>
      cases same
      exact checked.1
    | entry same member inside =>
      cases same
      exact inside.passive (checked.2 _ member)
  · exact inside.passive (objects entry member)

/-- A page whose link goes to a place. -/
def linkedPage : Dictionary :=
  [(ascii "A", .dictionary [(ascii "S", .name (ascii "GoTo"))])]

def linkedDocument : PdfDocument :=
  { trailer := []
    objects := [((1, 0), .dictionary linkedPage)]
    getObject := fun _ => none }

theorem linkedPage_passive : Passive linkedDocument linkedPage := by
  apply passive_of_pdfObjectsArePassive linkedDocument
  · simp [pdfObjectsArePassive, linkedDocument, linkedPage, objectIsPassive, dictionaryIsPassive,
      aEntryIsSafe, actionObjectIsSafe, primaryIsSafe, resolvedName, resolved, Dictionary.get,
      actionDictionaryIsSafe]
    decide
  · exact .inr ⟨_, mem_singleton_self _, .here rfl⟩

end Resolving

end Offprint.Export
