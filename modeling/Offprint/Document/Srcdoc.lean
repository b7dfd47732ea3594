import Offprint.Document.Serialize

/-!
# Frames in frames

A frame is embedded as the value of an attribute in the markup around it, which may itself be
embedded in the same way.  A reader that takes the value of each level from the text of the
level around it comes to the innermost text.
-/

set_option linter.dupNamespace false

namespace Offprint.Document

open Offprint.Data.Markup

/-- The markup around an embedded document. -/
structure FrameMarkup where
  before : List Char
  after : List Char

namespace FrameMarkup

def srcdoc (html : List Char) : Attribute :=
  ⟨⟨.none, "srcdoc"⟩, html⟩

def embed (frame : FrameMarkup) (html : List Char) : List Char :=
  frame.before ++ writeAttribute (srcdoc html) ++ frame.after

/-- The document text that a number of frames, the outermost first, make of a text. -/
def embedAll (frames : List FrameMarkup) (html : List Char) : List Char :=
  frames.foldr embed html

/-- What stands before the value of the attribute. -/
def opening (frame : FrameMarkup) : List Char :=
  frame.before ++ " srcdoc=\"".toList

theorem normalizeNewlines_embed (frame : FrameMarkup) (html : List Char) :
    normalizeNewlines (frame.embed html)
      = normalizeNewlines frame.opening
        ++ (attributeEscaping.escape (normalizeNewlines html)
          ++ '"' :: normalizeNewlines frame.after) := by
  have written : frame.embed html = frame.before
      ++ (" srcdoc=\"".toList ++ (attributeEscaping.escape html ++ '"' :: frame.after)) := by
    simp [embed, writeAttribute, srcdoc, attributeQualifier, writeEscapedAttribute_eq]
  have noReturn : '\r' ∉ " srcdoc=\"".toList := by decide
  have opened : normalizeNewlines frame.opening
      = normalizeNewlines frame.before ++ " srcdoc=\"".toList := by
    rw [opening, normalizeNewlines_append _ (by decide), normalizeNewlines_eq_self noReturn]
  have quoted : normalizeNewlines (attributeEscaping.escape html ++ '"' :: frame.after)
      = attributeEscaping.escape (normalizeNewlines html)
      ++ '"' :: normalizeNewlines frame.after := by
    rw [normalizeNewlines_append _ (by simp), normalizeNewlines_cons (by decide),
      attributeEscaping.normalizeNewlines_escape rfl rfl]
  rw [written, opened, normalizeNewlines_append _ (by simp),
    normalizeNewlines_append_of_plain noReturn, quoted, List.append_assoc]

variable [NamedReferences]

/-- The value that a reader finds for the attribute, and what follows its closing quote. -/
def extract (null : List Char) (frame : FrameMarkup) (source : List Char) :
    Option (List Char × List Char) :=
  let input := (normalizeNewlines source).drop (normalizeNewlines frame.opening).length
  (readCharacters true null (fun input => input.head? == some '"') input).map fun read =>
    (read.1, read.2.tail)

def extractAll (null : List Char) : List FrameMarkup → List Char → Option (List Char)
  | [], source => some source
  | frame :: inner, source =>
    (frame.extract null source).bind fun read => extractAll null inner read.1

theorem extract_of_normalized {null source front value after : List Char} {frame : FrameMarkup}
    (normalized : normalizeNewlines source =
      front ++ (attributeEscaping.escape value ++ '"' :: after))
    (sameLength : front.length = (normalizeNewlines frame.opening).length) :
    frame.extract null source = some (received null value, after) := by
  rw [extract, normalized, ← sameLength, List.drop_left, attributeEscaping.readCharacters_escape]
  · rfl
  · intro char following kept
    rw [List.head?_cons, beq_eq_false_iff_ne, Ne, Option.some.injEq]
    rintro rfl
    exact kept.elim (by decide) (by decide)
  · rfl
  · exact List.cons_ne_nil _ _

/-- What a reader takes from a frame, given the text of the frame or what it took of it from
the frame around. -/
theorem extract_embed {null : Char} (frame : FrameMarkup) {html source : List Char}
    (plain : attributeReplacement null = none)
    (holds : normalizeNewlines source = normalizeNewlines (frame.embed html) ∨
      normalizeNewlines source = received [null] (normalizeNewlines (frame.embed html))) :
    ∃ after, frame.extract [null] source = some
    (received [null] (normalizeNewlines html), after) := by
  rw [normalizeNewlines_embed] at holds
  rcases holds with whole | read
  · exact ⟨_, extract_of_normalized whole rfl⟩
  · rw [received_append, received_append, attributeEscaping.received_escape plain] at read
    rw [← received_idem]
    exact ⟨_, extract_of_normalized read (length_received null _)⟩

theorem extractAll_embedAll {null : Char} (plain : attributeReplacement null = none)
    (noReturn : null ≠ '\r') {frames : List FrameMarkup} (nested : frames ≠ [])
    {html source : List Char}
    (holds : normalizeNewlines source = normalizeNewlines (embedAll frames html) ∨
      normalizeNewlines source = received [null] (normalizeNewlines (embedAll frames html))) :
    extractAll [null] frames source = some (received [null] (normalizeNewlines html)) := by
  induction frames generalizing source with
  | nil => exact absurd rfl nested
  | cons frame inner ih =>
    obtain ⟨after, extracted⟩ := frame.extract_embed plain holds
    rw [extractAll, extracted, Option.bind_some]
    by_cases innermost : inner = []
    · rw [innermost]
      rfl
    · apply ih innermost
      right
      apply normalizeNewlines_eq_self
      rw [received_singleton, List.mem_map]
      rintro ⟨char, present, read⟩
      split_ifs at read
      · exact noReturn read
      · exact return_notMem_normalizeNewlines _ (read ▸ present)

/-- Documents nested in frames to any depth are read back as they were, up to line ends; where
the reader replaces the character U+0000, up to that too.  No document ends the attribute that
it stands in. -/
theorem nested_documents_read_back (frames : List FrameMarkup) (html : List Char) :
    extractAll ['\x00'] frames (embedAll frames html)
        = some (if frames = [] then html else normalizeNewlines html) ∧
      extractAll ['�'] frames (embedAll frames html)
        = some (if frames = [] then html else received ['�'] (normalizeNewlines html)) ∧
      ∀ (frame : FrameMarkup) (value : List Char),
        '"' ∉ writeEscapedAttribute value ∧
        frame.extract ['\x00'] (frame.embed value)
          = some (normalizeNewlines value, normalizeNewlines frame.after) := by
  refine ⟨?_, ?_, fun frame value => ⟨quote_notMem_writeEscapedAttribute value, ?_⟩⟩
  · split_ifs with none
    · rw [none]
      rfl
    · rw [extractAll_embedAll (by decide) (by decide) none (.inl rfl), received_null]
  · split_ifs with none
    · rw [none]
      rfl
    · exact extractAll_embedAll (by decide) (by decide) none (.inl rfl)
  · rw [extract_of_normalized (frame.normalizeNewlines_embed value) rfl, received_null]

end FrameMarkup
end Offprint.Document
