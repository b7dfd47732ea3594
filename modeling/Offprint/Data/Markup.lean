import Mathlib.Data.List.MinMax
import Mathlib.Data.List.Nodup

/-!
# Characters in markup

How a reader of markup takes characters from its input: line ends become line feeds, a
character reference stands for the characters it names, and something ends the stretch.
A text whose special characters were replaced by references reads back as itself.
-/

namespace Offprint.Data.Markup

open List Bool

/-- The input of a reader: a carriage return, with a line feed behind it or not, becomes a
line feed. -/
def normalizeNewlines : List Char → List Char
  | '\r' :: '\n' :: rest => '\n' :: normalizeNewlines rest
  | '\r' :: rest => '\n' :: normalizeNewlines rest
  | char :: rest => char :: normalizeNewlines rest
  | [] => []

section Newlines

theorem normalizeNewlines_cons {char : Char} (plain : char ≠ '\r') (rest : List Char) :
    normalizeNewlines (char :: rest) = char :: normalizeNewlines rest := by
  rw [normalizeNewlines]
  · intro following equal
    exact absurd equal plain
  · exact plain

theorem normalizeNewlines_return {rest : List Char} (apart : rest.head? ≠ some '\n') :
    normalizeNewlines ('\r' :: rest) = '\n' :: normalizeNewlines rest := by
  rw [normalizeNewlines]
  rintro following rfl
  exact apart rfl

theorem normalizeNewlines_append_of_plain {first : List Char} (plain : '\r' ∉ first)
    (second : List Char) :
    normalizeNewlines (first ++ second) = first ++ normalizeNewlines second := by
  induction first with
  | nil => rfl
  | cons char rest ih =>
    rw [cons_append, normalizeNewlines_cons (ne_of_not_mem_cons plain).symm,
      ih (not_mem_of_not_mem_cons plain), cons_append]

theorem normalizeNewlines_eq_self {text : List Char} (plain : '\r' ∉ text) :
    normalizeNewlines text = text := by
  have apart := normalizeNewlines_append_of_plain plain []
  rwa [append_nil, normalizeNewlines, append_nil] at apart

theorem return_notMem_normalizeNewlines (text : List Char) : '\r' ∉ normalizeNewlines text := by
  fun_induction normalizeNewlines text with
  | case1 rest ih | case2 rest _ ih => simpa using ih
  | case3 char rest _ plain ih =>
    exact not_mem_cons_of_ne_of_not_mem (Ne.symm plain) ih
  | case4 => exact not_mem_nil

theorem normalizeNewlines_append (first : List Char) {second : List Char}
    (apart : second.head? ≠ some '\n') :
    normalizeNewlines (first ++ second) = normalizeNewlines first ++ normalizeNewlines second := by
  fun_induction normalizeNewlines first with
  | case1 rest ih =>
    rw [cons_append, cons_append, normalizeNewlines, ih, cons_append]
  | case2 rest alone ih =>
    rw [cons_append, normalizeNewlines_return, ih, cons_append]
    cases rest with
    | nil => exact apart
    | cons next following =>
      rintro ⟨⟩
      exact alone following rfl
  | case3 char rest _ plain ih =>
    rw [cons_append, normalizeNewlines_cons plain, ih, cons_append]
  | case4 => rfl

/-- Replacing characters other than line ends by texts without carriage returns commutes
with normalization. -/
theorem normalizeNewlines_flatMap (written : Char → List Char) (text : List Char)
    (carriageReturn : written '\r' = ['\r']) (lineFeed : written '\n' = ['\n'])
    (others : ∀ char, char ≠ '\r' → char ≠ '\n' →
      '\r' ∉ written char ∧ (written char).head? ≠ some '\n' ∧ written char ≠ []) :
    normalizeNewlines (text.flatMap written) = (normalizeNewlines text).flatMap written := by
  fun_induction normalizeNewlines text with
  | case1 rest ih =>
    rw [flatMap_cons, flatMap_cons, flatMap_cons, carriageReturn, lineFeed,
      singleton_append, singleton_append, normalizeNewlines, ih,
      singleton_append]
  | case2 rest alone ih =>
    rw [flatMap_cons, flatMap_cons, carriageReturn, lineFeed, singleton_append,
      normalizeNewlines_return, ih, singleton_append]
    cases rest with
    | nil => simp
    | cons next following =>
      have other : next ≠ '\n' := by
        rintro rfl
        exact alone following rfl
      rw [flatMap_cons]
      by_cases isReturn : next = '\r'
      · simp [isReturn, carriageReturn]
      · obtain ⟨-, start, nonempty⟩ := others next isReturn other
        rwa [head?_append_of_ne_nil _ nonempty]
  | case3 char rest _ plain ih =>
    rw [flatMap_cons, flatMap_cons]
    by_cases isFeed : char = '\n'
    · rw [isFeed, lineFeed, singleton_append, singleton_append,
        normalizeNewlines_cons (by decide), ih]
    · obtain ⟨noReturn, -, -⟩ := others char plain isFeed
      rw [normalizeNewlines_append_of_plain noReturn, ih]
  | case4 => rfl

end Newlines

section References

/-- The references for the characters that markup itself uses, and for a no-break space. -/
def predefinedReferences : List (List Char × List Char) :=
  [("amp;".toList, ['&']), ("quot;".toList, ['"']), ("nbsp;".toList, ['\u00a0']),
    ("lt;".toList, ['<']), ("gt;".toList, ['>'])]

/-- A table of named character references: each name with the characters it stands for. -/
class NamedReferences where
  table : List (List Char × List Char)
  distinct : (table.map Prod.fst).Nodup
  /-- A semicolon can only end a name. -/
  semicolon : ∀ reference ∈ table, ';' ∉ reference.1.dropLast
  predefined : ∀ reference ∈ predefinedReferences, reference ∈ table

@[reducible]
def NamedReferences.least : NamedReferences where
  table := predefinedReferences
  distinct := by decide
  semicolon := by decide
  predefined _ listed := listed

variable [NamedReferences] {name characters : List Char}

/-- The named reference that an input starts with; the longest, where there are several. -/
def longestMatch (input : List Char) : Option (List Char × List Char) :=
  (NamedReferences.table.filter fun reference => reference.1.isPrefixOf input).argmax
    fun reference => reference.1.length

/-- The characters that references to the second block of control characters stand for. -/
def controlReplacements : List (Nat × Nat) :=
  [(0x80, 0x20ac), (0x82, 0x201a), (0x83, 0x0192), (0x84, 0x201e), (0x85, 0x2026),
    (0x86, 0x2020), (0x87, 0x2021), (0x88, 0x02c6), (0x89, 0x2030), (0x8a, 0x0160),
    (0x8b, 0x2039), (0x8c, 0x0152), (0x8e, 0x017d), (0x91, 0x2018), (0x92, 0x2019),
    (0x93, 0x201c), (0x94, 0x201d), (0x95, 0x2022), (0x96, 0x2013), (0x97, 0x2014),
    (0x98, 0x02dc), (0x99, 0x2122), (0x9a, 0x0161), (0x9b, 0x203a), (0x9c, 0x0153),
    (0x9e, 0x017e), (0x9f, 0x0178)]

/-- The character that a numeric reference stands for. -/
def numericCharacter (value : Nat) : Char :=
  if value = 0 ∨ ¬ value.isValidChar then '�'
  else Char.ofNat ((controlReplacements.lookup value).getD value)

def hexValue (char : Char) : Option Nat :=
  if char.isDigit then some (char.toNat - '0'.toNat)
  else if 'a' ≤ char ∧ char ≤ 'f' then some (char.toNat - 'a'.toNat + 10)
  else if 'A' ≤ char ∧ char ≤ 'F' then some (char.toNat - 'A'.toNat + 10)
  else none

def decimalValue (char : Char) : Option Nat :=
  if char.isDigit then some (char.toNat - '0'.toNat) else none

/-- The digits at the start of an input, if there are any, and what comes after them and
a semicolon. -/
def readNumber (base : Nat) (digit : Char → Option Nat) (input : List Char) :
    Option (Char × List Char) :=
  match input.takeWhile fun char => (digit char).isSome with
  | [] => none
  | digits =>
    let value := (digits.filterMap digit).foldl (fun value next => base * value + next) 0
    match input.drop digits.length with
    | ';' :: rest => some (numericCharacter value, rest)
    | rest => some (numericCharacter value, rest)

/-- What a number behind an ampersand and a number sign stands for. -/
def numericReference : List Char → Option (Char × List Char)
  | 'x' :: rest | 'X' :: rest => readNumber 16 hexValue rest
  | rest => readNumber 10 decimalValue rest

/-- What a name behind an ampersand stands for.  In an attribute, a name that only looks
like one stays as it was written. -/
def namedReference (inAttribute : Bool) (input : List Char) : Option (List Char × List Char) :=
  (longestMatch input).bind fun (name, characters) =>
    let rest := input.drop name.length
    if inAttribute ∧ name.getLast? ≠ some ';'
        ∧ rest.head?.any fun next => next == '=' || next.isAlphanum then
      none
    else
      some (characters, rest)

/-- The characters that an ampersand and the input behind it stand for.  An ampersand that
starts no reference stands for itself. -/
def characterReference (inAttribute : Bool) (input : List Char) : List Char × List Char :=
  match input with
  | '#' :: rest => ((numericReference rest).map fun read => ([read.1], read.2)).getD (['&'], input)
  | _ => (namedReference inAttribute input).getD (['&'], input)

theorem longestMatch_eq_some (rest : List Char)
    (listed : (name ++ [';'], characters) ∈ NamedReferences.table) :
    longestMatch (name ++ ';' :: rest) = some (name ++ [';'], characters) := by
  have whole : name ++ ';' :: rest = (name ++ [';']) ++ rest := by simp
  have starts : name ++ [';'] <+: name ++ ';' :: rest := ⟨rest, whole.symm⟩
  -- A longer name would have the semicolon inside.
  have longest : ∀ reference ∈ NamedReferences.table, reference.1 <+: name ++ ';' :: rest →
      reference.1 <+: name ++ [';'] := by
    intro reference present fits
    rcases List.prefix_or_prefix_of_prefix fits starts with shorter | longer
    · exact shorter
    · obtain ⟨more, extended⟩ := longer
      cases more with
      | nil => exact ⟨[], by rw [append_nil, ← extended, append_nil]⟩
      | cons next following =>
        apply absurd _ (NamedReferences.semicolon reference present)
        rw [← extended, List.dropLast_append_of_ne_nil (by simp)]
        simp
  have matching : (name ++ [';'], characters) ∈ NamedReferences.table.filter
      fun reference => reference.1.isPrefixOf (name ++ ';' :: rest) :=
    List.mem_filter.mpr ⟨listed, List.isPrefixOf_iff_prefix.mpr starts⟩
  cases found : longestMatch (name ++ ';' :: rest) with
  | none =>
    rw [longestMatch, List.argmax_eq_none] at found
    rw [found] at matching
    exact absurd matching not_mem_nil
  | some best =>
    obtain ⟨present, fits⟩ := List.mem_filter.mp (List.argmax_mem found)
    have shorter := longest best present (List.isPrefixOf_iff_prefix.mp fits)
    have long : (name ++ [';']).length ≤ best.1.length :=
      List.le_of_mem_argmax (f := fun reference => reference.1.length) matching found
    have same : best.1 = name ++ [';'] := shorter.eq_of_length_le long
    exact congrArg some
      (List.inj_on_of_nodup_map NamedReferences.distinct present listed same)

theorem characterReference_eq (inAttribute : Bool) (rest : List Char)
    (listed : (name ++ [';'], characters) ∈ NamedReferences.table) (named : name.head? ≠ some '#') :
    characterReference inAttribute (name ++ ';' :: rest) = (characters, rest) := by
  have dropped : (name ++ ';' :: rest).drop (name ++ [';']).length = rest := by
    rw [show name ++ ';' :: rest = (name ++ [';']) ++ rest by simp, List.drop_left]
  have read : namedReference inAttribute (name ++ ';' :: rest) = some (characters, rest) := by
    rw [namedReference, longestMatch_eq_some rest listed, Option.bind_some]
    simp
  rw [characterReference, read, Option.getD_some]
  rintro following input
  apply named
  cases name with
  | nil => simp at input
  | cons first others =>
    rw [cons_append, List.cons.injEq] at input
    rw [input.1, List.head?_cons]

end References

section Characters

theorem predefined_named : ∀ reference ∈ predefinedReferences,
    reference.1 = reference.1.dropLast ++ [';'] ∧ reference.1.dropLast.head? ≠ some '#'
      ∧ reference.2 ≠ ['\x00'] := by
  decide

variable [NamedReferences]

/-- A text with its characters U+0000 read as `null`. -/
def received (null text : List Char) : List Char :=
  text.flatMap fun char => if char = '\x00' then null else [char]

/-- The characters before what ends a stretch of them, U+0000 read as `null`. -/
def readCharactersFor (inAttribute : Bool) (null : List Char) (ends : List Char → Bool) :
    Nat → List Char → Option (List Char × List Char)
  | 0, _ => none
  | _ + 1, [] => none
  | fuel + 1, char :: rest =>
    if ends (char :: rest) then
      some ([], char :: rest)
    else if char = '&' then
      let reference := characterReference inAttribute rest
      (readCharactersFor inAttribute null ends fuel reference.2).map fun read =>
        (reference.1 ++ read.1, read.2)
    else
      (readCharactersFor inAttribute null ends fuel rest).map fun read =>
        ((if char = '\x00' then null else [char]) ++ read.1, read.2)

def readCharacters (inAttribute : Bool) (null : List Char) (ends : List Char → Bool)
    (input : List Char) : Option (List Char × List Char) :=
  readCharactersFor inAttribute null ends input.length input

section Received

omit [NamedReferences]

@[simp]
theorem received_append (null first second : List Char) :
    received null (first ++ second) = received null first ++ received null second :=
  List.flatMap_append

theorem received_eq_self {null text : List Char} (visible : '\x00' ∉ text) :
    received null text = text := by
  induction text with
  | nil => rfl
  | cons char rest ih =>
    rw [received, flatMap_cons, ← received, if_neg (ne_of_not_mem_cons visible).symm,
      ih (not_mem_of_not_mem_cons visible), singleton_append]

variable (null : Char) (text : List Char)

theorem received_singleton :
    received [null] text = text.map fun char => if char = '\x00' then null else char := by
  induction text with
  | nil => rfl
  | cons char rest ih =>
    rw [received, flatMap_cons, ← received, ih, map_cons]
    split_ifs <;> rfl

theorem received_null : received ['\x00'] text = text := by
  rw [received_singleton]
  apply (map_congr_left _).trans (map_id text)
  intro char _
  split_ifs with isNull
  · exact isNull.symm
  · rfl

theorem length_received : (received [null] text).length = text.length := by
  rw [received_singleton, List.length_map]

theorem received_idem : received [null] (received [null] text) = received [null] text := by
  rw [received_singleton, received_singleton, List.map_map]
  apply map_congr_left
  intro char _
  by_cases isNull : char = '\x00' <;> simp [isNull]

end Received

theorem characterReference_predefined {name characters : List Char} (inAttribute : Bool)
    (rest : List Char) (predefined : (name, characters) ∈ predefinedReferences) :
    characterReference inAttribute (name ++ rest) = (characters, rest) := by
  obtain ⟨ended, named, -⟩ := predefined_named _ predefined
  have listed := NamedReferences.predefined _ predefined
  simp only at ended named
  rw [ended] at listed ⊢
  rw [append_assoc, singleton_append]
  exact characterReference_eq inAttribute rest listed named

/-- A way to write texts: some characters, ampersands among them, are replaced by references
to them. -/
structure Escaping where
  replacement : Char → Option (List Char)
  refers : ∀ char reference, replacement char = some reference →
    ∃ name, reference = '&' :: name ∧ (name, [char]) ∈ predefinedReferences
  ampersand : replacement '&' ≠ none

namespace Escaping

variable (escaping : Escaping) {null text rest : List Char} {inAttribute : Bool}
  {ends : List Char → Bool}

def escape (text : List Char) : List Char :=
  text.flatMap fun char => (escaping.replacement char).getD [char]

omit [NamedReferences] in
theorem length_le_escape (text : List Char) : text.length ≤ (escaping.escape text).length := by
  induction text with
  | nil => exact Nat.zero_le _
  | cons char rest ih =>
    have wide : 1 ≤ ((escaping.replacement char).getD [char]).length := by
      cases replaced : escaping.replacement char with
      | none => exact Nat.le_refl 1
      | some reference =>
        obtain ⟨name, rfl, -⟩ := escaping.refers char reference replaced
        exact Nat.succ_pos _
    rw [escape, flatMap_cons, length_append, length_cons, Nat.add_comm]
    exact Nat.add_le_add wide ih

omit [NamedReferences] in
theorem notMem_escape {char : Char} (replaced : escaping.replacement char ≠ none)
    (different : char ≠ '&') (absent : ∀ reference ∈ predefinedReferences, char ∉ reference.1)
    (text : List Char) : char ∉ escaping.escape text := by
  intro present
  obtain ⟨original, -, written⟩ := List.mem_flatMap.mp present
  cases found : escaping.replacement original with
  | none =>
    rw [found, Option.getD_none, List.mem_singleton] at written
    exact replaced (written ▸ found)
  | some reference =>
    obtain ⟨name, rfl, predefined⟩ := escaping.refers original reference found
    rw [found, Option.getD_some, List.mem_cons] at written
    exact written.elim different (absent _ predefined)

omit [NamedReferences] in
theorem normalizeNewlines_escape (carriageReturn : escaping.replacement '\r' = none)
    (lineFeed : escaping.replacement '\n' = none) (text : List Char) :
    normalizeNewlines (escaping.escape text) = escaping.escape (normalizeNewlines text) := by
  apply normalizeNewlines_flatMap
  · rw [carriageReturn, Option.getD_none]
  · rw [lineFeed, Option.getD_none]
  · intro char notReturn notFeed
    cases found : escaping.replacement char with
    | none => simp [Ne.symm notReturn, notFeed]
    | some reference =>
      obtain ⟨name, rfl, predefined⟩ := escaping.refers char reference found
      have plain : ∀ reference ∈ predefinedReferences, '\r' ∉ reference.1 := by decide
      simpa using plain _ predefined

omit [NamedReferences] in
theorem received_escape {null : Char} (plain : escaping.replacement null = none)
    (text : List Char) :
    received [null] (escaping.escape text) = escaping.escape (received [null] text) := by
  induction text with
  | nil => rfl
  | cons char rest ih =>
    have one : received [null] ((escaping.replacement char).getD [char])
        = escaping.escape (if char = '\x00' then [null] else [char]) := by
      cases replaced : escaping.replacement char with
      | none => split_ifs with isNull <;> simp [received, escape, isNull, plain, replaced]
      | some reference =>
        obtain ⟨name, rfl, predefined⟩ := escaping.refers char reference replaced
        obtain ⟨-, -, visible⟩ := predefined_named _ predefined
        have plainName : ∀ reference ∈ predefinedReferences, '\x00' ∉ reference.1 := by decide
        rw [if_neg (by simpa using visible), Option.getD_some, received_eq_self]
        · simp [escape, replaced]
        · exact not_mem_cons_of_ne_of_not_mem (by decide) (plainName _ predefined)
    rw [escape, flatMap_cons, ← escape, received_append, ih, one]
    exact List.flatMap_append.symm

section

variable (goesOn : ∀ char following, escaping.replacement char = none ∨ char = '&' →
  ends (char :: following) = false)
include goesOn

theorem readCharactersFor_escape {fuel : Nat}
    (stops : ends rest = true) (nonempty : rest ≠ []) (enough : text.length < fuel) :
    readCharactersFor inAttribute null ends fuel (escaping.escape text ++ rest)
      = some (received null text, rest) := by
  induction text generalizing fuel with
  | nil =>
    obtain ⟨more, rfl⟩ := Nat.exists_eq_add_of_lt enough
    cases rest with
    | nil => exact absurd rfl nonempty
    | cons first following => simp [escape, received, readCharactersFor, stops]
  | cons char others ih =>
    obtain ⟨fuel, rfl⟩ : ∃ less, fuel = less + 1 := ⟨fuel - 1, by
      omega⟩
    have others := ih (Nat.lt_of_succ_lt_succ enough)
    rw [escape, received, flatMap_cons, flatMap_cons, append_assoc, ← escape,
      ← received]
    cases replaced : escaping.replacement char with
    | none =>
      have different : char ≠ '&' := by
        rintro rfl
        exact escaping.ampersand replaced
      rw [Option.getD_none, singleton_append, readCharactersFor,
        goesOn _ _ (.inl replaced), if_neg Bool.false_ne_true, if_neg different, others,
        Option.map_some]
    | some reference =>
      obtain ⟨name, rfl, predefined⟩ := escaping.refers char reference replaced
      have visible : char ≠ '\x00' := by
        rintro rfl
        exact (predefined_named _ predefined).2.2 rfl
      rw [Option.getD_some, cons_append, readCharactersFor, goesOn _ _ (.inr rfl),
        if_neg Bool.false_ne_true, if_pos rfl,
        characterReference_predefined inAttribute _ predefined, if_neg visible]
      dsimp only
      rw [others, Option.map_some]

theorem readCharacters_escape (stops : ends rest = true) (nonempty : rest ≠ []) :
    readCharacters inAttribute null ends (escaping.escape text ++ rest)
      = some (received null text, rest) := by
  apply escaping.readCharactersFor_escape goesOn stops nonempty
  rw [length_append]
  have wide := escaping.length_le_escape text
  have positive := List.length_pos_of_ne_nil nonempty
  omega

end

end Escaping

end Characters

section Tags

def isSpace (char : Char) : Bool :=
  char == '\t' || char == '\n' || char == '\x0c' || char == ' '

/-- Whether a character goes on with the name of a tag. -/
def isNameCharacter (char : Char) : Bool :=
  !isSpace char && char != '/' && char != '>'

/-- Whether a character goes on with the name of an attribute. -/
def isAttributeCharacter (char : Char) : Bool :=
  isNameCharacter char && char != '='

def readNameCharacter (char : Char) : Char :=
  if char = '\x00' then '�' else char.toLower

structure StartTag where
  name : List Char
  attributes : List (List Char × List Char)
  selfClosing : Bool
  deriving Repr, DecidableEq

variable [NamedReferences] {name : List Char} {written : List (List Char × List Char)}

/-- The value behind the equals sign of an attribute. -/
def readAttributeValue : List Char → Option (List Char × List Char)
  | '"' :: rest =>
    (readCharacters true ['�'] (fun input => input.head? == some '"') rest).map fun read =>
      (read.1, read.2.tail)
  | '\'' :: rest =>
    (readCharacters true ['�'] (fun input => input.head? == some '\'') rest).map fun read =>
      (read.1, read.2.tail)
  | '>' :: rest => some ([], '>' :: rest)
  | rest =>
    readCharacters true ['�'] (fun input => input.head?.any fun char => isSpace char || char == '>')
      rest

/-- The value that follows the name of an attribute, empty without an equals sign. -/
def readAssigned : List Char → Option (List Char × List Char)
  | '=' :: written => readAttributeValue (written.dropWhile isSpace)
  | rest => some ([], rest)

/-- The attributes up to the end of a tag, and whether the tag closes itself.  Of attributes
with one name the first counts. -/
def readAttributesFor : Nat → List Char →
    Option (List (List Char × List Char) × Bool × List Char)
  | 0, _ => none
  | _ + 1, [] => none
  | _ + 1, '>' :: rest => some ([], false, rest)
  | _ + 1, '/' :: '>' :: rest => some ([], true, rest)
  | fuel + 1, char :: rest =>
    if isSpace char || char == '/' then
      readAttributesFor fuel rest
    else
      let name := (char :: rest.takeWhile isAttributeCharacter).map readNameCharacter
      (readAssigned ((rest.dropWhile isAttributeCharacter).dropWhile isSpace)).bind fun assigned =>
        (readAttributesFor fuel assigned.2).map fun read =>
          ((name, assigned.1) :: read.1.filter (fun later => later.1 != name), read.2)

/-- A start tag, from the character behind its opening bracket on. -/
def readStartTag (input : List Char) : Option (StartTag × List Char) :=
  if input.head?.any Char.isAlpha then
    let name := (input.takeWhile isNameCharacter).map readNameCharacter
    (readAttributesFor input.length (input.dropWhile isNameCharacter)).map fun read =>
      (⟨name, read.1, read.2.1⟩, read.2.2)
  else
    none

/-- Whether a name is read back as the name of an attribute, and unchanged. -/
def isAttributeName : List Char → Bool
  | [] => false
  | first :: others =>
    isNameCharacter first && others.all isAttributeCharacter
      && (first :: others).all fun char => readNameCharacter char == char && char != '\r'

/-- An attribute, written with its value in double quotes. -/
def writeQuoted (escaping : Escaping) (written : List Char × List Char) : List Char :=
  ' ' :: written.1 ++ '=' :: '"' :: escaping.escape written.2 ++ ['"']

omit [NamedReferences] in
theorem two_mul_length_le_flatMap_writeQuoted (escaping : Escaping)
    (written : List (List Char × List Char)) :
    2 * written.length ≤ (written.flatMap (writeQuoted escaping)).length := by
  induction written with
  | nil => exact Nat.zero_le _
  | cons one others ih =>
    rw [flatMap_cons, length_append, length_cons, writeQuoted]
    simp only [cons_append, length_cons, length_append]
    omega

omit [NamedReferences] in
theorem return_notMem_of_isAttributeName (named : isAttributeName name) : '\r' ∉ name := by
  cases name with
  | nil => exact not_mem_nil
  | cons first others =>
    intro present
    have kept := (and_eq_true_iff.mp named).2
    simpa using (and_eq_true_iff.mp (all_eq_true.mp kept _ present)).2

omit [NamedReferences] in
theorem normalizeNewlines_writeQuoted {escaping : Escaping}
    (carriageReturn : escaping.replacement '\r' = none)
    (lineFeed : escaping.replacement '\n' = none)
    (named : ∀ one ∈ written, isAttributeName one.1) (rest : List Char) :
    normalizeNewlines (written.flatMap (writeQuoted escaping) ++ '>' :: rest)
      = (written.map fun one => (one.1, normalizeNewlines one.2)).flatMap (writeQuoted escaping)
        ++ '>' :: normalizeNewlines rest := by
  induction written with
  | nil => exact normalizeNewlines_cons (by decide) rest
  | cons one others ih =>
    have later := ih fun other present =>
      named other (mem_cons_of_mem _ present)
    have plain : '\r' ∉ ' ' :: one.1 ++ "=\"".toList := by
      have noReturn := return_notMem_of_isAttributeName (named one mem_cons_self)
      simpa using noReturn
    have shape : ∀ (value after : List Char), writeQuoted escaping (one.1, value) ++ after
        = (' ' :: one.1 ++ "=\"".toList) ++ (escaping.escape value ++ '"' :: after) := by
      simp [writeQuoted]
    calc normalizeNewlines ((one :: others).flatMap (writeQuoted escaping) ++ '>' :: rest)
        = normalizeNewlines ((' ' :: one.1 ++ "=\"".toList) ++ (escaping.escape one.2
            ++ '"' :: (others.flatMap (writeQuoted escaping) ++ '>' :: rest))) := by
          rw [flatMap_cons, append_assoc, ← shape]
      _ = (' ' :: one.1 ++ "=\"".toList) ++ (escaping.escape (normalizeNewlines one.2)
            ++ '"' :: normalizeNewlines (others.flatMap (writeQuoted escaping) ++ '>' :: rest)) := by
          rw [normalizeNewlines_append_of_plain plain, normalizeNewlines_append _ (by simp),
            normalizeNewlines_cons (by decide),
            escaping.normalizeNewlines_escape carriageReturn lineFeed]
      _ = _ := by
          rw [later, ← shape, map_cons, flatMap_cons, append_assoc]

variable {escaping : Escaping} (quoted : escaping.replacement '"' ≠ none)
include quoted

theorem readAttributeValue_escape (value rest : List Char) :
    readAttributeValue ('"' :: (escaping.escape value ++ '"' :: rest))
      = some (received ['�'] value, rest) := by
  rw [readAttributeValue, escaping.readCharacters_escape]
  · rfl
  · intro char following kept
    rw [List.head?_cons, beq_eq_false_iff_ne, Ne, Option.some.injEq]
    rintro rfl
    exact kept.elim quoted (by decide)
  · rfl
  · exact List.cons_ne_nil _ _

theorem readAttributesFor_cons {written : List Char × List Char}
    (named : isAttributeName written.1) (fuel : Nat) (rest : List Char) :
    readAttributesFor (fuel + 2) (writeQuoted escaping written ++ rest)
      = (readAttributesFor fuel rest).map fun read =>
        ((written.1, received ['�'] written.2) :: read.1.filter (fun later => later.1 != written.1),
          read.2) := by
  obtain ⟨_ | ⟨first, others⟩, value⟩ := written
  · exact absurd named Bool.false_ne_true
  · simp only [isAttributeName, isNameCharacter, Bool.and_eq_true, Bool.not_eq_true',
      bne_iff_ne] at named
    obtain ⟨⟨⟨⟨visible, noSlash⟩, noBracket⟩, plain⟩, kept⟩ := named
    have spaced : readAttributesFor (fuel + 2)
      (writeQuoted escaping (first :: others, value) ++ rest)
        = readAttributesFor (fuel + 1)
          (first :: (others ++ '=' :: '"' :: (escaping.escape value ++ '"' :: rest))) := by
      simp [writeQuoted, readAttributesFor, isSpace]
    have going := all_eq_true.mp plain
    have taken : ∀ after, (others ++ '=' :: after).takeWhile isAttributeCharacter = others := by
      intro after
      rw [takeWhile_append_of_pos going, takeWhile_cons_of_neg (by decide),
        append_nil]
    have dropped : ∀ after,
        (others ++ '=' :: after).dropWhile isAttributeCharacter = '=' :: after := by
      intro after
      rw [dropWhile_append_of_pos going, dropWhile_cons_of_neg (by decide)]
    have same : (first :: others).map readNameCharacter = first :: others := by
      rw [map_congr_left, map_id]
      intro char present
      exact beq_iff_eq.mp (and_eq_true_iff.mp (all_eq_true.mp kept char present)).1
    rw [spaced, readAttributesFor]
    · rw [if_neg (by simp [visible, noSlash]), taken, dropped,
        dropWhile_cons_of_neg (by decide), readAssigned,
        dropWhile_cons_of_neg (by decide), readAttributeValue_escape quoted, same]
      rfl
    · exact noBracket
    · intro _ slash
      exact absurd slash noSlash

theorem readAttributesFor_writeQuoted {fuel : Nat}
    (rest : List Char) (named : ∀ one ∈ written, isAttributeName one.1)
    (distinct : (written.map Prod.fst).Nodup) (enough : 2 * written.length < fuel) :
    readAttributesFor fuel (written.flatMap (writeQuoted escaping) ++ '>' :: rest)
      = some (written.map (fun one => (one.1, received ['�'] one.2)), false, rest) := by
  induction written generalizing fuel with
  | nil =>
    obtain ⟨more, rfl⟩ := Nat.exists_eq_add_of_lt enough
    simp [readAttributesFor]
  | cons one others ih =>
    obtain ⟨fuel, rfl⟩ : ∃ less, fuel = less + 2 := ⟨fuel - 2, by
      rw [length_cons] at enough
      omega⟩
    rw [map_cons, nodup_cons] at distinct
    have less : 2 * others.length < fuel := by
      rw [length_cons] at enough
      omega
    have later := ih
      (fun other present => named other (mem_cons_of_mem _ present)) distinct.2 less
    rw [flatMap_cons, append_assoc,
      readAttributesFor_cons quoted (named one mem_cons_self), later, Option.map_some,
      map_cons, filter_eq_self.mpr]
    intro read present
    obtain ⟨other, listed, rfl⟩ := mem_map.mp present
    rw [bne_iff_ne]
    intro same
    exact distinct.1 (mem_map.mpr ⟨other, listed, same⟩)

theorem readStartTag_writeQuoted (rest : List Char) (letter : name.head?.any Char.isAlpha)
    (plain : name.all fun char => isNameCharacter char && readNameCharacter char == char)
    (named : ∀ one ∈ written, isAttributeName one.1) (distinct : (written.map Prod.fst).Nodup) :
    readStartTag (name ++ (written.flatMap (writeQuoted escaping) ++ '>' :: rest))
      = some (⟨name, written.map fun one => (one.1, received ['�'] one.2), false⟩, rest) := by
  have going : ∀ char ∈ name, isNameCharacter char = true := fun char present =>
    (and_eq_true_iff.mp (all_eq_true.mp plain char present)).1
  have same : name.map readNameCharacter = name := by
    rw [map_congr_left, map_id]
    intro char present
    exact beq_iff_eq.mp (and_eq_true_iff.mp (all_eq_true.mp plain char present)).2
  -- A space or the closing bracket comes behind the name.
  obtain ⟨first, following, starts, stops⟩ : ∃ first following,
      written.flatMap (writeQuoted escaping) ++ '>' :: rest = first :: following
        ∧ ¬ isNameCharacter first := by
    cases written with
    | nil => exact ⟨'>', rest, rfl, by decide⟩
    | cons one others => exact ⟨' ', _, rfl, by decide⟩
  have enough : 2 * written.length
      < (name ++ (written.flatMap (writeQuoted escaping) ++ '>' :: rest)).length := by
    have wide := two_mul_length_le_flatMap_writeQuoted escaping written
    rw [length_append, length_append, length_cons]
    omega
  have attributes := readAttributesFor_writeQuoted quoted rest named distinct enough
  have begun : (name ++ first :: following).head?.any Char.isAlpha := by
    cases name with
    | nil => exact absurd letter Bool.false_ne_true
    | cons initial others => exact letter
  rw [starts] at attributes ⊢
  rw [readStartTag, if_pos begun, takeWhile_append_of_pos going,
    takeWhile_cons_of_neg stops, append_nil, same, dropWhile_append_of_pos going,
    dropWhile_cons_of_neg stops, attributes, Option.map_some]

end Tags

end Offprint.Data.Markup
