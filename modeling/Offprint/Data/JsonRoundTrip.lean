import Offprint.Data.Json

/-!
# Reading back a rendered value

The renderer and the reader agree: a rendered value, whatever follows it, is read
back as itself as long as it nests no deeper than the reader allows.
-/

namespace Offprint.Data.Json

open List Option

section Strings

theorem hexValue_hexDigit : ∀ value < 16, hexValue (hexDigit value) = some value := by
  decide

theorem hexDigit_plain : ∀ value < 16, hexDigit value ≠ '"' ∧ hexDigit value ≠ '\\' := by
  decide

variable {char : Char}

theorem scanString_plain (quote : char ≠ '"') (backslash : char ≠ '\\') (rest : List Char) :
    scanString (char :: rest) =
      (scanString rest).map fun read => (char :: read.1, read.2) :=
  scanString.eq_4 char rest quote fun _ _ escaped _ => backslash escaped

theorem scanString_escapeChar (char : Char) (rest : List Char) :
    scanString (escapeChar char ++ rest) =
      (scanString rest).map fun read => (escapeChar char ++ read.1, read.2) := by
  unfold escapeChar
  split <;> try rfl
  next quote backslash _ _ _ _ _ =>
    split
    · next control =>
      have high := hexDigit_plain (char.toNat / 16) (by omega)
      have low := hexDigit_plain (char.toNat % 16) (by omega)
      simp only [cons_append, nil_append, scanString.eq_3,
        scanString_plain high.1 high.2, scanString_plain low.1 low.2,
        scanString_plain (by decide : ('0' : Char) ≠ '"') (by decide), Option.map_map]
      rfl
    · exact scanString_plain quote backslash rest

theorem scanString_escaped (text rest : List Char) :
    scanString (text.flatMap escapeChar ++ '"' :: rest) =
      some (text.flatMap escapeChar, rest) := by
  induction text with
  | nil => rfl
  | cons char text ih =>
    rw [flatMap_cons, append_assoc, scanString_escapeChar, ih]
    rfl

theorem unescape_plain (printable : ¬ char.toNat < 32) (backslash : char ≠ '\\')
    (rest : List Char) : unescape (char :: rest) = (unescape rest).map (char :: ·) := by
  rw [unescape]
  · rw [if_neg (not_or.mpr ⟨printable, backslash⟩)]
  · exact fun _ _ _ _ _ escaped _ => backslash escaped
  · exact fun _ _ escaped _ => backslash escaped

theorem unescape_simpleEscape {resolved : Char} (unicode : char ≠ 'u')
    (escape : simpleEscape char = some resolved) (rest : List Char) :
    unescape ('\\' :: char :: rest) = (unescape rest).map (resolved :: ·) := by
  rw [unescape, escape]
  · cases unescape rest <;> rfl
  · rintro a b c d tail same
    exact absurd same unicode

theorem unescape_unicode {a b c d : Char} {unit : Nat} (value : hexUnit a b c d = some unit)
    (scalar : unit < 0xd800 ∨ 0xe000 ≤ unit) (rest : List Char) :
    unescape ('\\' :: 'u' :: a :: b :: c :: d :: rest) =
      (unescape rest).map (Char.ofNat unit :: ·) := by
  rw [unescape.eq_def]
  simp only [value, bind_eq_bind, bind_some]
  rw [if_neg (by omega), if_neg (by omega)]
  cases unescape rest <;> rfl

theorem unescape_escapeChar (char : Char) (rest : List Char) :
    unescape (escapeChar char ++ rest) = (unescape rest).map (char :: ·) := by
  unfold escapeChar
  split
  all_goals try exact unescape_simpleEscape (by decide) rfl rest
  next quote backslash _ _ _ _ _ =>
    split
    · next control =>
      have high := hexValue_hexDigit (char.toNat / 16) (by omega)
      have low := hexValue_hexDigit (char.toNat % 16) (by omega)
      have value : hexUnit '0' '0' (hexDigit (char.toNat / 16)) (hexDigit (char.toNat % 16)) =
          some char.toNat := by
        have zero : hexValue '0' = some 0 := rfl
        simp only [hexUnit, zero, high, low, bind_eq_bind, bind_some,
          Option.pure_def, Option.some.injEq]
        omega
      rw [cons_append, cons_append, cons_append, cons_append,
        cons_append, cons_append, nil_append,
        unescape_unicode value (.inl (by omega)), Char.ofNat_toNat]
    · next printable => exact unescape_plain printable backslash rest

theorem unescape_escaped (text : List Char) : unescape (text.flatMap escapeChar) = some text := by
  induction text with
  | nil => rfl
  | cons char text ih =>
    rw [flatMap_cons, unescape_escapeChar, ih]
    rfl

theorem readString_escaped (text : String) (rest : List Char) :
    readString (text.toList.flatMap escapeChar ++ '"' :: rest) = some (text, rest) := by
  simp only [readString, scanString_escaped, unescape_escaped, bind_eq_bind,
    bind_some, Option.pure_def, String.ofList_toList]

end Strings

section Numbers

/-- What may follow a number without being read as a part of it. -/
def Stops : List Char → Prop
  | [] => True
  | char :: _ => char.isDigit = false ∧ char ≠ '.' ∧ char ≠ 'e' ∧ char ≠ 'E'

theorem head_toDigits_ne_zero {value : Nat} (positive : 0 < value) :
    (Nat.toDigits 10 value).head? ≠ some '0' := by
  induction value using Nat.strongRecOn with
  | ind value ih =>
    by_cases small : value < 10
    · rw [Nat.toDigits_of_lt_base small]
      have nonzero : ∀ digit < 10, 0 < digit → [digit.digitChar].head? ≠ some '0' := by decide
      exact nonzero value small positive
    · rw [Nat.toDigits_of_base_le (by decide) (by omega), List.head?_append]
      have above := ih (value / 10) (by omega) (by omega)
      cases leading : (Nat.toDigits 10 (value / 10)).head? with
      | none =>
        rw [List.head?_eq_none_iff] at leading
        exact absurd leading Nat.toDigits_ne_nil
      | some first => rwa [leading] at above

variable {rest : List Char}

theorem readDigits_append_of_stops {digits : List Char}
    (numeric : ∀ char ∈ digits, char.isDigit = true) (nonempty : digits ≠ []) (stops : Stops rest) :
    readDigits (digits ++ rest) = some (digits, rest) := by
  have taken : (digits ++ rest).takeWhile Char.isDigit = digits := by
    rw [List.takeWhile_append_of_pos numeric]
    cases rest with
    | nil => simp
    | cons char rest => simp [stops.1]
  have left : (digits ++ rest).dropWhile Char.isDigit = rest := by
    rw [List.dropWhile_append_of_pos numeric]
    cases rest with
    | nil => simp
    | cons char rest => simp [stops.1]
  rw [readDigits, taken, left, if_neg nonempty]

theorem readFraction_of_stops (stops : Stops rest) : readFraction rest = some ([], rest) := by
  cases rest with
  | nil => rfl
  | cons char rest => exact readFraction.eq_2 _ fun _ same => stops.2.1 (List.cons.inj same).1

theorem readExponent_of_stops (stops : Stops rest) : readExponent rest = some ([], rest) := by
  cases rest with
  | nil => rfl
  | cons char rest =>
    rw [readExponent.eq_def]
    exact if_neg (not_or.mpr ⟨stops.2.2.1, stops.2.2.2⟩)

theorem readUnsigned_toDigits (negative : Bool) (value : Nat)
    (signed : negative = false ∨ value ≠ 0) (stops : Stops rest) :
    readUnsigned negative (Nat.toDigits 10 value ++ rest) =
      some (if negative then .negative value else .natural value, rest) := by
  have numeric : ∀ char ∈ Nat.toDigits 10 value, char.isDigit = true :=
    fun char member => Nat.isDigit_of_mem_toDigits (by decide) (by decide) member
  have normal :
      ¬ ((Nat.toDigits 10 value).head? = some '0' ∧ (Nat.toDigits 10 value).length ≠ 1) := by
    rintro ⟨leading, longer⟩
    by_cases zero : value = 0
    · rw [zero, Nat.toDigits_zero] at longer
      exact longer rfl
    · exact head_toDigits_ne_zero (Nat.pos_of_ne_zero zero) leading
  rw [readUnsigned, readDigits_append_of_stops numeric Nat.toDigits_ne_nil stops]
  simp only [bind_eq_bind, bind_some, readFraction_of_stops stops,
    readExponent_of_stops stops, if_neg normal, Nat.ofDigitChars_ten_toDigits, true_and,
    if_pos signed, Option.pure_def]

theorem readNumber_natural (value : Nat) (stops : Stops rest) :
    readNumber (Nat.toDigits 10 value ++ rest) = some (.natural value, rest) := by
  rw [readNumber.eq_def]
  split
  · next same =>
    exfalso
    cases digits : Nat.toDigits 10 value with
    | nil => exact Nat.toDigits_ne_nil digits
    | cons first others =>
      rw [digits, cons_append] at same
      have numeric := Nat.isDigit_of_mem_toDigits (by decide) (by decide)
        (digits ▸ List.mem_cons_self : first ∈ Nat.toDigits 10 value)
      rw [(List.cons.inj same).1] at numeric
      revert numeric
      decide
  · exact readUnsigned_toDigits false value (.inl rfl) stops

theorem readNumber_negative {value : Nat} (nonzero : value ≠ 0) (stops : Stops rest) :
    readNumber ('-' :: Nat.toDigits 10 value ++ rest) = some (.negative value, rest) :=
  readUnsigned_toDigits true value (.inr nonzero) stops

end Numbers

section Values

mutual

/-- Values whose numbers are the integers the renderer writes. -/
def Integral : Json → Prop
  | number (.natural _) => True
  | number (.negative magnitude) => magnitude ≠ 0
  | number (.decimal _) => False
  | array elements => IntegralElements elements
  | object members => IntegralMembers members
  | _ => True

def IntegralElements : List Json → Prop
  | [] => True
  | first :: rest => first.Integral ∧ IntegralElements rest

def IntegralMembers : List (String × Json) → Prop
  | [] => True
  | (_, first) :: rest => first.Integral ∧ IntegralMembers rest

end

mutual

def depth : Json → Nat
  | array elements => elementsDepth elements + 1
  | object members => membersDepth members + 1
  | _ => 0

def elementsDepth : List Json → Nat
  | [] => 0
  | first :: rest => max first.depth (elementsDepth rest)

def membersDepth : List (String × Json) → Nat
  | [] => 0
  | (_, first) :: rest => max first.depth (membersDepth rest)

end

theorem skipSpace_of_head {char : Char} (visible : isSpace char = false) (rest : List Char) :
    skipSpace (char :: rest) = char :: rest := by
  simp [skipSpace, visible]

theorem skipSpace_quote (rest : List Char) : skipSpace ('"' :: rest) = '"' :: rest :=
  rfl

theorem render_number_head (value : Nat) :
    ∃ first others, Nat.toDigits 10 value = first :: others ∧ first.isDigit = true := by
  cases digits : Nat.toDigits 10 value with
  | nil => exact absurd digits Nat.toDigits_ne_nil
  | cons first others =>
    exact ⟨first, others, rfl, Nat.isDigit_of_mem_toDigits (by decide) (by decide)
      (digits ▸ List.mem_cons_self : first ∈ Nat.toDigits 10 value)⟩

variable {first : Char} {fuel limit : Nat} {value : Json} {text : List Char}

theorem isSpace_of_number (leading : first.isDigit = true ∨ first = '-') :
    isSpace first = false := by
  rcases leading with digit | rfl
  · rw [isSpace]
    simp only [Bool.or_eq_false_iff, decide_eq_false_iff_not]
    refine ⟨⟨⟨?_, ?_⟩, ?_⟩, ?_⟩ <;> (rintro rfl; exact absurd digit (by decide))
  · rfl

theorem readValue_of_number {input rest : List Char}
    (leading : first.isDigit = true ∨ first = '-') (seen : skipSpace input = first :: rest) :
    readValue (fuel + 1) limit input =
      (readNumber (first :: rest)).map fun read => (number read.1, read.2) := by
  rw [readValue, seen]
  split
  case h_7 => rfl
  all_goals
    rename_i same
    rcases leading with digit | rfl
    · rw [(List.cons.inj same).1] at digit
      exact absurd digit (by decide)
    · exact absurd (List.cons.inj same).1 (by decide)

theorem renderString_append (text : String) (rest : List Char) :
    renderString text ++ rest = '"' :: (text.toList.flatMap escapeChar ++ '"' :: rest) := by
  simp [renderString]

theorem stops_renderElements (rest : List Json) (after : List Char) :
    Stops (renderElements rest ++ after) := by
  cases rest with
  | nil | cons first others => exact ⟨rfl, by decide, by decide, by decide⟩

theorem stops_renderMembers (rest : List (String × Json)) (after : List Char) :
    Stops (renderMembers rest ++ after) := by
  cases rest with
  | nil | cons first others => exact ⟨rfl, by decide, by decide, by decide⟩

theorem render_head (integral : value.Integral) :
    ∃ first others, render value = first :: others ∧ isSpace first = false ∧ first ≠ ']' := by
  match value, integral with
  | null, _ => exact ⟨'n', _, rfl, rfl, by decide⟩
  | bool true, _ => exact ⟨'t', _, rfl, rfl, by decide⟩
  | bool false, _ => exact ⟨'f', _, rfl, rfl, by decide⟩
  | number (.natural value), _ =>
    obtain ⟨first, others, digits, digit⟩ := render_number_head value
    refine ⟨first, others, by rw [render, renderNumber, digits], ?_, ?_⟩
    · exact isSpace_of_number (.inl digit)
    · rintro rfl
      exact absurd digit (by decide)
  | number (.negative value), _ => exact ⟨'-', _, rfl, rfl, by decide⟩
  | string text, _ => exact ⟨'"', _, rfl, rfl, by decide⟩
  | array [], _ => exact ⟨'[', _, rfl, rfl, by decide⟩
  | array (first :: others), _ => exact ⟨'[', _, by rw [render], rfl, by decide⟩
  | object [], _ => exact ⟨'\x7b', _, rfl, rfl, by decide⟩
  | object ((_, first) :: others), _ => exact ⟨'\x7b', _, by rw [render], rfl, by decide⟩

theorem readValue_array
    {elements : List Json} {rest : List Char}
    (opens : ∃ first others, text = first :: others ∧ isSpace first = false ∧ first ≠ ']')
    (elementsRead : readElements fuel limit text = some (elements, rest)) :
    readValue (fuel + 1) (limit + 1) ('[' :: text) = some (array elements, rest) := by
  obtain ⟨first, others, rfl, visible, bracket⟩ := opens
  rw [readValue, skipSpace_of_head rfl]
  simp only [skipSpace_of_head visible]
  split
  · next same => exact absurd (List.cons.inj same).1 bracket
  · rw [elementsRead]
    rfl

theorem readValue_object {members : List (String × Json)} {rest : List Char}
    (membersRead : readMembers fuel limit ('"' :: text) = some (members, rest)) :
    readValue (fuel + 1) (limit + 1) ('\x7b' :: '"' :: text) = some (object members, rest) := by
  rw [readValue, skipSpace_of_head rfl]
  simp only [skipSpace_quote]
  rw [membersRead]
  rfl

mutual

theorem readValue_render :
    ∀ (value : Json) (fuel limit : Nat) (rest : List Char),
      value.Integral → value.depth ≤ limit → Stops rest → (render value).length < fuel →
      readValue fuel limit (render value ++ rest) = some (value, rest)
  | _, 0, _, _, _, _, _, fueled => absurd fueled (by omega)
  | null, _ + 1, _, _, _, _, _, _ => by
      rw [readValue]
      rfl
  | bool true, _ + 1, _, _, _, _, _, _ | bool false, _ + 1, _, _, _, _, _, _ => by
      rw [readValue]
      rfl
  | number (.natural value), _ + 1, _, _, _, _, stops, _ => by
      obtain ⟨first, others, digits, digit⟩ := render_number_head value
      rw [render, renderNumber, digits, cons_append, readValue_of_number (.inl digit)
          (skipSpace_of_head (isSpace_of_number (.inl digit)) _),
        ← cons_append, ← digits, readNumber_natural value stops]
      rfl
  | number (.negative value), _ + 1, _, _, integral, _, stops, _ => by
      rw [render, renderNumber, cons_append, readValue_of_number (.inr rfl) rfl,
        ← cons_append, readNumber_negative integral stops]
      rfl
  | number (.decimal text), _ + 1, _, _, integral, _, _, _ =>
    absurd integral id
  | string _, _ + 1, _, _, _, _, _, _ => by
      rw [render, renderString_append, readValue, skipSpace_quote]
      simp only [readString_escaped, map_some]
  | array [], _ + 1, 0, _, _, shallow, _, _ =>
    absurd shallow (by simp [depth])
  | array [], _ + 1, _ + 1, _, _, _, _, _ => by
      rw [readValue]
      rfl
  | array (first :: others), _ + 1, 0, _, _, shallow, _, _ =>
    absurd shallow (by simp [depth])
  | array (first :: others), fuel + 1, limit + 1, rest, integral, shallow, _, fueled => by
      simp only [Integral, depth, render, length_cons] at integral shallow fueled
      rw [render, cons_append]
      apply readValue_array
      · obtain ⟨head, tail, rendered, visible, bracket⟩ := render_head integral.1
        exact ⟨head, tail ++ renderElements others ++ rest, by simp [rendered], visible, bracket⟩
      · exact readElements_render first others fuel limit rest integral (by omega) (by omega)
  | object [], _ + 1, 0, _, _, shallow, _, _ =>
    absurd shallow (by simp [depth])
  | object [], _ + 1, _ + 1, _, _, _, _, _ => by
      rw [readValue]
      rfl
  | object ((_, first) :: others), _ + 1, 0, _, _, shallow, _, _ =>
    absurd shallow (by simp [depth])
  | object ((key, first) :: others), fuel + 1, limit + 1, rest, integral, shallow, _,
      fueled => by
      simp only [Integral, depth, render, length_cons] at integral shallow fueled
      rw [render, cons_append, append_assoc, renderString_append]
      apply readValue_object
      rw [← renderString_append, ← append_assoc]
      exact readMembers_render key first others fuel limit rest integral (by omega) (by omega)

theorem readElements_render :
    ∀ (first : Json) (others : List Json) (fuel limit : Nat) (rest : List Char),
      IntegralElements (first :: others) → elementsDepth (first :: others) ≤ limit →
      (render first ++ renderElements others).length < fuel →
      readElements fuel limit (render first ++ renderElements others ++ rest) =
        some (first :: others, rest)
  | _, _, 0, _, _, _, _, fueled => absurd fueled (by omega)
  | first, [], fuel + 1, limit, rest, integral, shallow, fueled => by
      simp only [elementsDepth, renderElements, length_append, length_singleton]
        at shallow fueled
      rw [readElements, append_assoc, readValue_render first fuel limit _ integral.1 (by omega)
          (stops_renderElements [] rest) (by omega)]
      rfl
  | first, next :: others, fuel + 1, limit, rest, integral, shallow, fueled => by
      simp only [elementsDepth, renderElements, length_append, length_cons]
        at shallow fueled
      rw [readElements, append_assoc, readValue_render first fuel limit _ integral.1 (by omega)
          (stops_renderElements (next :: others) rest) (by omega),
        renderElements, cons_append]
      simp only [skipSpace_of_head (rfl : isSpace ',' = false)]
      rw [readElements_render next others fuel limit rest integral.2
        (by simp only [elementsDepth]; omega) (by simp only [length_append]; omega)]
      rfl

theorem readMembers_render :
    ∀ (key : String) (first : Json) (others : List (String × Json)) (fuel limit : Nat)
      (rest : List Char),
      IntegralMembers ((key, first) :: others) → membersDepth ((key, first) :: others) ≤ limit →
      (renderString key ++ ':' :: (render first ++ renderMembers others)).length < fuel →
      readMembers fuel limit
          (renderString key ++ ':' :: (render first ++ renderMembers others) ++ rest) =
        some ((key, first) :: others, rest)
  | _, _, _, 0, _, _, _, _, fueled => absurd fueled (by omega)
  | _, first, [], fuel + 1, limit, rest, integral, shallow, fueled => by
      simp only [membersDepth, renderMembers, length_append, length_cons,
        length_nil] at shallow fueled
      rw [readMembers, append_assoc, renderString_append]
      simp only [skipSpace_quote, readString_escaped, cons_append, append_assoc,
        skipSpace_of_head (rfl : isSpace ':' = false)]
      rw [readValue_render first fuel limit _ integral.1 (by omega)
          (stops_renderMembers [] rest) (by omega)]
      rfl
  | _, first, (nextKey, next) :: others, fuel + 1, limit, rest, integral, shallow, fueled => by
      simp only [membersDepth, renderMembers, length_append, length_cons]
        at shallow fueled
      rw [readMembers, append_assoc, renderString_append]
      simp only [skipSpace_quote, readString_escaped, cons_append, append_assoc,
        skipSpace_of_head (rfl : isSpace ':' = false)]
      rw [readValue_render first fuel limit _ integral.1 (by omega)
          (stops_renderMembers ((nextKey, next) :: others) rest) (by omega),
        renderMembers, cons_append]
      simp only [skipSpace_of_head (rfl : isSpace ',' = false)]
      rw [readMembers_render nextKey next others fuel limit rest integral.2
        (by simp only [membersDepth]; omega)
        (by simp only [length_append, length_cons]; omega)]
      rfl

end

theorem read_render (integral : value.Integral) (shallow : value.depth ≤ maximumDepth) :
    read (render value) = some value := by
  have whole := readValue_render value ((render value).length + 1) maximumDepth [] integral
    shallow trivial (by omega)
  rw [append_nil] at whole
  rw [read, whole]
  rfl

end Values

end Offprint.Data.Json
