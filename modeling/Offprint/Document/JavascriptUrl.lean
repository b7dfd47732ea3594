import Offprint.Document.Sanitize

/-!
# Links that run programs

A browser strips control characters and spaces from the ends of a link and takes tabs and
newlines out before it reads the scheme.  The policy drops more than that, so it recognises
every link a browser would run as a program.
-/

namespace Offprint.Document

open Data List Text Nat

section Scheme

def isC0ControlOrSpace (char : Char) : Bool :=
  char.toNat ≤ 0x20

def isTabOrNewline (char : Char) : Bool :=
  char == '\t' || char == '\n' || char == '\r'

def urlInput (value : List Char) : List Char :=
  ((value.dropWhile isC0ControlOrSpace).rdropWhile isC0ControlOrSpace).filter
    fun char => !isTabOrNewline char

def isSchemeChar (char : Char) : Bool :=
  char.isAlphanum || char == '+' || char == '-' || char == '.'

/-- The scheme the URL parser finds in a value that names one. -/
def urlScheme (value : List Char) : Option (List Char) :=
  match urlInput value with
  | [] => none
  | first :: rest =>
    match rest.dropWhile isSchemeChar with
    | ':' :: _ =>
      if first.isAlpha then some ((first :: rest.takeWhile isSchemeChar).map Char.toLower)
      else none
    | _ => none

theorem exists_of_urlScheme {value scheme : List Char} (found : urlScheme value = some scheme) :
    ∃ name rest, urlInput value = name ++ ':' :: rest ∧ name.map Char.toLower = scheme := by
  unfold urlScheme at found
  split at found
  next => cases found
  next first rest input =>
    split at found
    next tail dropped =>
      split at found
      next =>
        refine ⟨first :: rest.takeWhile isSchemeChar, tail, ?_, Option.some.inj found⟩
        rw [input, ← dropped, cons_append, takeWhile_append_dropWhile]
      next => cases found
    next => cases found

end Scheme

section Recognised

def isPlain (char : Char) : Bool :=
  !isHtmlWhitespace char && !isControl char

variable {char : Char}

theorem isPlain_eq_false_of_isC0ControlOrSpace
    (control : isC0ControlOrSpace char = true) : isPlain char = false := by
  simp only [isC0ControlOrSpace, decide_eq_true_eq] at control
  by_cases space : char = ' '
  · subst space
    rfl
  · have below : char.toNat ≠ 0x20 := fun equal => space (Char.toNat_inj.mp equal)
    have small : char.toNat < 0x20 := by omega
    simp [isPlain, isControl, small]

theorem isPlain_eq_false_of_isTabOrNewline (tab : isTabOrNewline char = true) :
    isPlain char = false := by
  simp only [isTabOrNewline, Bool.or_eq_true, beq_iff_eq] at tab
  obtain (rfl | rfl) | rfl := tab <;> rfl

theorem isPlain_of_printable (above : 0x20 < char.toNat)
    (below : char.toNat < 0x7f) : isPlain char = true := by
  have others : ∀ other : Char, other.toNat ≤ 0x20 → (char == other) = false := by
    intro other small
    rw [beq_eq_false_iff_ne]
    rintro rfl
    omega
  have control : isControl char = false := by
    simp only [isControl, Bool.or_eq_false_iff, Bool.and_eq_false_iff, decide_eq_false_iff_not]
    omega
  simp [isPlain, control, isHtmlWhitespace, others ' ' (by decide), others '\t' (by decide),
    others '\n' (by decide), others '\x0c' (by decide), others '\r' (by decide)]

theorem isPlain_of_toLower_isLower (letter : char.toLower.isLower = true) :
    isPlain char = true := by
  by_cases upper : char.val ≥ 'A'.val ∧ char.val ≤ 'Z'.val
  · simp only [ge_iff_le, UInt32.le_iff_toNat_le] at upper
    apply isPlain_of_printable
    · exact lt_of_lt_of_le (by decide) upper.1
    · exact lt_of_le_of_lt upper.2 (by decide)
  · have same : char.toLower = char := by
      unfold Char.toLower
      rw [dif_neg upper]
    rw [same] at letter
    have letter : (decide (char.val ≥ 'a'.val) && decide (char.val ≤ 'z'.val)) = true := letter
    simp only [Bool.and_eq_true, decide_eq_true_eq, ge_iff_le, UInt32.le_iff_toNat_le] at letter
    apply isPlain_of_printable
    · exact lt_of_lt_of_le (by decide) letter.1
    · exact lt_of_le_of_lt letter.2 (by decide)

theorem filter_dropWhile {drop keep : Char → Bool} (apart : ∀ char, drop char = true →
    keep char = false) (value : List Char) :
    (value.dropWhile drop).filter keep = value.filter keep := by
  induction value with
  | nil => rfl
  | cons char rest ih =>
    by_cases dropped : drop char = true
    · rw [dropWhile_cons_of_pos dropped, ih,
        filter_cons_of_neg (by simp [apart char dropped])]
    · rw [dropWhile_cons_of_neg dropped]

theorem filter_isPlain_urlInput (value : List Char) :
    (urlInput value).filter isPlain = value.filter isPlain := by
  have noTabs : ∀ text : List Char,
      (text.filter fun char => !isTabOrNewline char).filter isPlain = text.filter isPlain := by
    intro text
    rw [filter_filter]
    apply filter_congr
    intro char _
    cases tab : isTabOrNewline char with
    | false => simp
    | true => simp [isPlain_eq_false_of_isTabOrNewline tab]
  unfold urlInput List.rdropWhile
  rw [noTabs, filter_reverse, filter_dropWhile, ← filter_reverse, reverse_reverse,
    filter_dropWhile]
  · exact fun _ => isPlain_eq_false_of_isC0ControlOrSpace
  · exact fun _ => isPlain_eq_false_of_isC0ControlOrSpace

theorem isJavascriptUrl_of_urlScheme {value : List Char}
    (scheme : urlScheme value = some "javascript".toList) : isJavascriptUrl value = true := by
  obtain ⟨name, rest, input, lowered⟩ := exists_of_urlScheme scheme
  have plain : ∀ char ∈ name, isPlain char = true := by
    intro char member
    apply isPlain_of_toLower_isLower
    have letters : "javascript".toList.all Char.isLower = true := by decide
    apply all_eq_true.mp letters
    rw [← lowered]
    exact mem_map_of_mem member
  have length : name.length = 10 := by
    simpa using congrArg List.length lowered
  have compact : value.filter isPlain = name ++ ':' :: rest.filter isPlain := by
    rw [← filter_isPlain_urlInput, input, filter_append, filter_eq_self.mpr plain]
    rfl
  show Css.eqIgnoreAsciiCase ((value.filter isPlain).take 11) "javascript:" = true
  rw [compact, take_append, take_of_length_le (by omega), length]
  simp [Css.eqIgnoreAsciiCase, lowered]

end Recognised

section Slice

theorem size_eq_length {text : List Char} (narrow : ∀ char ∈ text, char.utf8Size = 1) :
    size text = text.length := by
  induction text with
  | nil => rfl
  | cons char rest ih =>
    rw [size_cons, narrow char mem_cons_self,
      ih fun other member => narrow other (mem_cons_of_mem _ member),
      length_cons, add_comm]

theorem utf8Size_of_toLower_ascii {char : Char} (ascii : char.toLower.toNat < 0x80) :
    char.utf8Size = 1 := by
  have below : char.toNat < 0x80 := by
    by_contra above
    have same : char.toLower = char := by
      unfold Char.toLower
      rw [dif_neg]
      rintro ⟨-, upper⟩
      rw [UInt32.le_iff_toNat_le] at upper
      exact above (lt_of_le_of_lt upper (by decide))
    rw [same] at ascii
    exact above ascii
  unfold Char.utf8Size
  rw [if_pos]
  rw [UInt32.le_iff_toNat_le]
  exact le_of_lt_succ below

theorem isJavascriptUrl_eq_slice (value : List Char) :
    isJavascriptUrl value =
      (slice (value.filter isPlain) 0 "javascript:".utf8ByteSize).any
        (Css.eqIgnoreAsciiCase · "javascript:") := by
  show Css.eqIgnoreAsciiCase ((value.filter isPlain).take 11) "javascript:" = _
  generalize value.filter isPlain = compact
  rw [Bool.eq_iff_iff, Option.any_eq_true]
  simp only [Css.eqIgnoreAsciiCase, beq_iff_eq]
  constructor
  · intro lowered
    refine ⟨compact.take 11, slice_eq_some_iff.mpr
      ⟨[], compact.drop 11, (take_append_drop 11 compact).symm, rfl, ?_⟩, lowered⟩
    have narrow : ∀ char ∈ compact.take 11, char.utf8Size = 1 := by
      intro char member
      apply utf8Size_of_toLower_ascii
      have letters : "javascript:".toList.all (fun letter => letter.toNat < 0x80) = true := by
        decide
      apply of_decide_eq_true
      apply all_eq_true.mp letters
      rw [← lowered]
      exact mem_map_of_mem member
    rw [size_nil, zero_add, size_eq_length narrow, ← length_map, lowered]
    rfl
  · rintro ⟨part, sliced, lowered⟩
    obtain ⟨before, after, rfl, empty, -⟩ := slice_eq_some_iff.mp sliced
    obtain rfl := size_eq_zero_iff.mp empty
    have length : part.length = 11 := by
      simpa using congrArg List.length lowered
    rw [nil_append, take_left' length]
    exact lowered

end Slice

/-- No link of a sanitized page is one a browser would run as a program. -/
theorem javascript_urls_recognised_and_removed (page : Page) :
    (∀ value, urlScheme value = some "javascript".toList → isJavascriptUrl value = true) ∧
      ∀ id ∈ page.sanitized.walk, ∀ name attrs, page.sanitized.element? id = some (name, attrs) →
        ∀ attr ∈ attrs, isUrlAttribute attr = true →
          urlScheme attr.value ≠ some "javascript".toList := by
  refine ⟨fun value => isJavascriptUrl_of_urlScheme, ?_⟩
  intro id member name attrs element attr memberAttr isUrl scheme
  obtain ⟨node, templateContents, found, data⟩ := Document.element?_eq_some_iff.mp element
  have permitted := page.permitted_sanitized member found
  rw [data] at permitted
  apply permitted.2 attr memberAttr
  right
  unfold isJavascriptUrlAttribute
  rw [isUrl, isJavascriptUrl_of_urlScheme scheme]
  rfl

end Offprint.Document
