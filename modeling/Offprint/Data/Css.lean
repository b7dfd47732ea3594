import Offprint.Data.Scanner

/-!
# CSS tokens

The tokenizer of CSS Syntax.  The input is not preprocessed: each newline form is
recognised where it stands, and a null character is read as the replacement
character.  Comments are tokens of their own, and every token comes with the text
it was read from, so that the texts of the tokens put together are the input.
-/

namespace Offprint.Data.Css

open List

section Characters

def isNewline (char : Char) : Bool :=
  char == '\n' || char == '\r' || char == '\x0c'

def isWhitespace (char : Char) : Bool :=
  isNewline char || char == '\t' || char == ' '

def isNameStart (char : Char) : Bool :=
  char.isAlpha || 0x80 ≤ char.toNat || char == '_' || char == '\x00'

def isName (char : Char) : Bool :=
  isNameStart char || char.isDigit || char == '-'

def isHexDigit (char : Char) : Bool :=
  char.isDigit || ('a' ≤ char && char ≤ 'f') || ('A' ≤ char && char ≤ 'F')

def isNonPrintable (char : Char) : Bool :=
  (0 < char.toNat && char.toNat ≤ 8) || char.toNat == 0x0b ||
    (0x0e ≤ char.toNat && char.toNat ≤ 0x1f) || char.toNat == 0x7f

def replacement : Char := '�'

def literal (char : Char) : Char :=
  if char = '\x00' then replacement else char

end Characters

variable {char : Char}

section Escapes

def hexDigitValue (char : Char) : Nat :=
  if char.isDigit then char.toNat - 48
  else if 'a' ≤ char then char.toNat - 87
  else char.toNat - 55

/-- The character a hexadecimal number names. -/
def codePoint (digits : List Char) : Char :=
  let value := digits.foldl (fun value digit => 16 * value + hexDigitValue digit) 0
  if value = 0 ∨ (0xd800 ≤ value ∧ value ≤ 0xdfff) ∨ 0x10ffff < value then replacement
  else Char.ofNat value

def dropOneWhitespace : List Char → List Char
  | '\r' :: '\n' :: rest => rest
  | char :: rest => if isWhitespace char then rest else char :: rest
  | [] => []

/-- What follows the backslash of an escape: up to six hexadecimal digits and one
white space, or any other character. -/
def escape : List Char → Char × List Char
  | [] => (replacement, [])
  | char :: rest =>
    if isHexDigit char then
      let digits := ((char :: rest).take 6).takeWhile isHexDigit
      (codePoint digits, dropOneWhitespace ((char :: rest).drop digits.length))
    else
      (literal char, rest)

/-- Whether an input starts with an escape. -/
def startsEscape : List Char → Bool
  | '\\' :: char :: _ => !isNewline char
  | ['\\'] => true
  | _ => false

/-- Whether an input starts with a name that may begin an identifier. -/
def startsName : List Char → Bool
  | '-' :: '-' :: _ => true
  | '-' :: char :: rest => isNameStart char || startsEscape (char :: rest)
  | '-' :: [] => false
  | '\\' :: rest => startsEscape ('\\' :: rest)
  | char :: _ => isNameStart char
  | [] => false

def startsFraction : List Char → Bool
  | '.' :: char :: _ => char.isDigit
  | char :: _ => char.isDigit
  | [] => false

def startsNumber : List Char → Bool
  | '+' :: rest => startsFraction rest
  | '-' :: rest => startsFraction rest
  | input => startsFraction input

theorem isNewline_of_isHexDigit (digit : isHexDigit char = true) : isNewline char = false := by
  by_contra newline
  simp only [isNewline, Bool.not_eq_false, Bool.or_eq_true, beq_iff_eq] at newline
  rcases newline with (rfl | rfl) | rfl <;> simp [isHexDigit] at digit

theorem dropOneWhitespace_suffix (input : List Char) : dropOneWhitespace input <:+ input := by
  fun_cases dropOneWhitespace input with
  | case1 rest => exact (suffix_cons '\n' rest).trans (suffix_cons '\r' _)
  | case2 char rest _ _ => exact suffix_cons char rest
  | case3 | case4 => exact suffix_rfl

theorem escape_suffix (input : List Char) : (escape input).2 <:+ input := by
  fun_cases escape input with
  | case1 => exact suffix_rfl
  | case2 char rest _ digits =>
    exact (dropOneWhitespace_suffix _).trans (drop_suffix _ _)
  | case3 char rest _ => exact suffix_cons char rest

end Escapes

section Parts

def nameStep : List Char → Option (Char × List Char)
  | [] => none
  | char :: rest =>
    if isName char then some (literal char, rest)
    else if startsEscape (char :: rest) then some (escape rest)
    else none

/-- What one step adds to the value of a quoted string. -/
def stringStep (quote : Char) : List Char → Option (List Char × List Char)
  | [] => none
  | char :: rest =>
    if char = quote ∨ isNewline char then none
    else if char = '\\' then
      match rest with
      | [] => some ([], [])
      | '\r' :: '\n' :: after => some ([], after)
      | next :: after =>
        if isNewline next then some ([], after)
        else some ([(escape rest).1], (escape rest).2)
    else some ([literal char], rest)

theorem stringStep_escape {quote next : Char} (after : List Char) (other : quote ≠ '\\')
    (printed : isNewline next = false) :
    stringStep quote ('\\' :: next :: after) =
      some ([(escape (next :: after)).1], (escape (next :: after)).2) := by
  have notCarriage : next ≠ '\r' := by
    rintro rfl
    simp [isNewline] at printed
  have different : ¬('\\' = quote ∨ isNewline '\\' = true) := by
    simp [isNewline, other.symm]
  simp [stringStep, different, notCarriage, printed]

theorem stringStep_literal
    {quote char : Char} (rest : List Char) (other : char ≠ quote) (printed : isNewline char = false)
    (plain : char ≠ '\\') : stringStep quote (char :: rest) = some ([literal char], rest) := by
  simp [stringStep, other, printed, plain]

def urlStep : List Char → Option (Char × List Char)
  | [] => none
  | char :: rest =>
    if char = ')' ∨ char = '"' ∨ char = '\'' ∨ char = '(' ∨ isWhitespace char ∨
        isNonPrintable char then none
    else if char = '\\' then
      if startsEscape (char :: rest) then some (escape rest) else none
    else some (literal char, rest)

/-- One character of what is left of a broken URL. -/
def badUrlStep : List Char → Option (Unit × List Char)
  | [] => none
  | char :: rest =>
    if char = ')' then none
    else if startsEscape (char :: rest) then some ((), (escape rest).2)
    else some ((), rest)

theorem takes_of_read {α : Type} {rest after remaining : List Char} {found item : α}
    (read : some (found, after) = some (item, remaining)) (suffix : after <:+ rest) :
    ∃ text, text ≠ [] ∧ char :: rest = text ++ remaining := by
  obtain ⟨text, rfl⟩ := suffix
  obtain ⟨-, rfl⟩ := Prod.mk.inj (Option.some.inj read)
  exact ⟨char :: text, List.cons_ne_nil _ _, rfl⟩

def nameScanner : Scanner Char Char where
  step := nameStep
  takes {input item rest} read := by
    cases input with
    | nil => cases read
    | cons char others =>
      simp only [nameStep] at read
      split_ifs at read
      · exact takes_of_read read List.suffix_rfl
      · exact takes_of_read read (escape_suffix others)

def stringScanner (quote : Char) : Scanner Char (List Char) where
  step := stringStep quote
  takes {input item rest} read := by
    cases input with
    | nil => cases read
    | cons char others =>
      simp only [stringStep] at read
      split_ifs at read
      · split at read
        · exact takes_of_read read List.suffix_rfl
        · exact takes_of_read read ((List.suffix_cons _ _).trans (List.suffix_cons _ _))
        · split_ifs at read
          · exact takes_of_read read (List.suffix_cons _ _)
          · exact takes_of_read read (escape_suffix _)
      · exact takes_of_read read List.suffix_rfl

def urlScanner : Scanner Char Char where
  step := urlStep
  takes {input item rest} read := by
    cases input with
    | nil => cases read
    | cons char others =>
      simp only [urlStep] at read
      split_ifs at read
      · exact takes_of_read read (escape_suffix others)
      · exact takes_of_read read List.suffix_rfl

def badUrlScanner : Scanner Char Unit where
  step := badUrlStep
  takes {input item rest} read := by
    cases input with
    | nil => cases read
    | cons char others =>
      simp only [badUrlStep] at read
      split_ifs at read
      · exact takes_of_read read (escape_suffix others)
      · exact takes_of_read read List.suffix_rfl

end Parts

inductive Token where
  | ident (name : List Char)
  | function (name : List Char)
  | atKeyword (name : List Char)
  | hash (name : List Char)
  | string (value : List Char)
  | badString
  | url (value : List Char)
  | badUrl
  | delim (char : Char)
  | number
  | percentage
  | dimension (unit : List Char)
  | whitespace
  | comment
  | cdo
  | cdc
  | colon
  | semicolon
  | comma
  | openRound
  | closeRound
  | openSquare
  | closeSquare
  | openCurly
  | closeCurly
  deriving Repr, DecidableEq

section Consume

def eqIgnoreAsciiCase (name : List Char) (keyword : String) : Bool :=
  name.map Char.toLower == keyword.toList

def consumeString (quote : Char) (input : List Char) : Token × List Char :=
  let (parts, rest) := (stringScanner quote).run input
  match rest with
  | [] => (.string parts.flatten, [])
  | char :: after =>
    if char = quote then (.string parts.flatten, after) else (.badString, char :: after)

def consumeBadUrl (input : List Char) : Token × List Char :=
  (.badUrl, (badUrlScanner.run input).2.tail)

/-- A URL without quotes, after its opening parenthesis. -/
def consumeUrl (input : List Char) : Token × List Char :=
  let (value, rest) := urlScanner.run (input.dropWhile isWhitespace)
  match rest.dropWhile isWhitespace with
  | [] => (.url value, [])
  | char :: after => if char = ')' then (.url value, after) else consumeBadUrl (char :: after)

def dropSign : List Char → List Char
  | '+' :: rest => rest
  | '-' :: rest => rest
  | input => input

def dropFraction : List Char → List Char
  | '.' :: digit :: rest =>
    if digit.isDigit then rest.dropWhile Char.isDigit else '.' :: digit :: rest
  | input => input

def dropExponent : List Char → List Char
  | [] => []
  | char :: rest =>
    if (char = 'e' ∨ char = 'E') ∧ (dropSign rest).head?.any Char.isDigit then
      (dropSign rest).dropWhile Char.isDigit
    else
      char :: rest

def dropNumber (input : List Char) : List Char :=
  dropExponent (dropFraction ((dropSign input).dropWhile Char.isDigit))

def consumeNumeric (input : List Char) : Token × List Char :=
  let rest := dropNumber input
  if startsName rest then
    let (unit, after) := nameScanner.run rest
    (.dimension unit, after)
  else
    match rest with
    | '%' :: after => (.percentage, after)
    | _ => (.number, rest)

/-- Whether the next character other than white space opens a quoted string. -/
def startsQuote (input : List Char) : Bool :=
  (input.dropWhile isWhitespace).head?.any fun char => char == '"' || char == '\''

def consumeIdentLike (input : List Char) : Token × List Char :=
  let (name, rest) := nameScanner.run input
  match rest with
  | '(' :: after =>
    if eqIgnoreAsciiCase name "url" && !startsQuote after then consumeUrl after
    else (.function name, after)
  | _ => (.ident name, rest)

/-- What follows a comment, after its opening. -/
def dropComment : List Char → List Char
  | '*' :: '/' :: rest => rest
  | _ :: rest => dropComment rest
  | [] => []

/-- The token of a character that stands alone. -/
def punctuation (char : Char) : Token :=
  match char with
  | '(' => .openRound
  | ')' => .closeRound
  | ',' => .comma
  | ':' => .colon
  | ';' => .semicolon
  | '[' => .openSquare
  | ']' => .closeSquare
  | '{' => .openCurly
  | '}' => .closeCurly
  | _ => .delim char

/-- The token that starts with a character. -/
def consumeToken (char : Char) (rest : List Char) : Token × List Char :=
  if isWhitespace char then (.whitespace, rest.dropWhile isWhitespace)
  else if char = '/' ∧ rest.head? = some '*' then (.comment, dropComment rest.tail)
  else if char = '"' ∨ char = '\'' then consumeString char rest
  else if char = '#' ∧ (rest.head?.any isName ∨ startsEscape rest) then
    let (name, after) := nameScanner.run rest
    (.hash name, after)
  else if startsNumber (char :: rest) then consumeNumeric (char :: rest)
  else if char = '-' ∧ ['-', '>'] <+: rest then (.cdc, rest.drop 2)
  else if startsName (char :: rest) then consumeIdentLike (char :: rest)
  else if char = '<' ∧ ['!', '-', '-'] <+: rest then (.cdo, rest.drop 3)
  else if char = '@' ∧ startsName rest then
    let (name, after) := nameScanner.run rest
    (.atKeyword name, after)
  else (punctuation char, rest)

end Consume

section Suffixes

theorem run_suffix {β : Type} (scanner : Scanner Char β) (input : List Char) :
    (scanner.run input).2 <:+ input := by
  obtain ⟨text, parts, -⟩ := scanner.run_spec input
  exact ⟨text, parts.symm⟩

theorem consumeString_suffix (quote : Char) (input : List Char) :
    (consumeString quote input).2 <:+ input := by
  have suffix := run_suffix (stringScanner quote) input
  unfold consumeString
  generalize (stringScanner quote).run input = read at suffix ⊢
  obtain ⟨parts, rest⟩ := read
  cases rest with
  | nil => exact nil_suffix
  | cons char after =>
    dsimp only at suffix ⊢
    split
    · exact (suffix_cons char after).trans suffix
    · exact suffix

section

variable (input : List Char)

theorem consumeBadUrl_suffix : (consumeBadUrl input).2 <:+ input :=
  (tail_suffix _).trans (run_suffix badUrlScanner input)

theorem consumeUrl_suffix : (consumeUrl input).2 <:+ input := by
  have suffix : (urlScanner.run (input.dropWhile isWhitespace)).2 <:+ input :=
    (run_suffix urlScanner _).trans (dropWhile_suffix isWhitespace)
  unfold consumeUrl
  generalize urlScanner.run (input.dropWhile isWhitespace) = read at suffix ⊢
  obtain ⟨value, rest⟩ := read
  have skipped := (dropWhile_suffix isWhitespace).trans suffix
  dsimp only at skipped ⊢
  split
  · exact nil_suffix
  · rename_i char after left
    rw [left] at skipped
    split
    · exact (suffix_cons char after).trans skipped
    · exact (consumeBadUrl_suffix _).trans skipped

theorem dropSign_suffix : dropSign input <:+ input := by
  fun_cases dropSign input with
  | case1 rest | case2 rest => exact suffix_cons _ rest
  | case3 => exact suffix_rfl

theorem dropFraction_suffix : dropFraction input <:+ input := by
  fun_cases dropFraction input with
  | case1 digit rest _ =>
    exact (dropWhile_suffix _).trans ((suffix_cons digit rest).trans
      (suffix_cons _ _))
  | case2 | case3 => exact suffix_rfl

theorem dropExponent_suffix : dropExponent input <:+ input := by
  fun_cases dropExponent input with
  | case1 => exact suffix_rfl
  | case2 char rest _ =>
    exact ((dropWhile_suffix _).trans (dropSign_suffix rest)).trans
      (suffix_cons char rest)
  | case3 => exact suffix_rfl

end

theorem dropFraction_dropWhile_suffix {input : List Char} (starts : startsFraction input = true) :
    dropFraction (input.dropWhile Char.isDigit) <:+ input.tail := by
  fun_cases startsFraction input with
  | case1 char rest =>
    have digit : char.isDigit = true := starts
    rw [dropWhile_cons_of_neg (by decide), dropFraction, if_pos digit]
    exact (dropWhile_suffix _).trans (suffix_cons char rest)
  | case2 char rest _ =>
    have digit : char.isDigit = true := by simpa [startsFraction] using starts
    rw [dropWhile_cons_of_pos digit]
    exact (dropFraction_suffix _).trans (dropWhile_suffix _)
  | case3 => cases starts

variable {char : Char} {rest : List Char}

theorem dropNumber_suffix (starts : startsNumber (char :: rest) = true) :
    dropNumber (char :: rest) <:+ rest := by
  unfold dropNumber
  apply (dropExponent_suffix _).trans
  by_cases plus : char = '+'
  · subst plus
    exact (dropFraction_dropWhile_suffix starts).trans (tail_suffix rest)
  · by_cases minus : char = '-'
    · subst minus
      exact (dropFraction_dropWhile_suffix starts).trans (tail_suffix rest)
    · have unsigned : dropSign (char :: rest) = char :: rest := by
        rw [dropSign.eq_3] <;> simp_all
      rw [startsNumber.eq_3 _ (by simp_all) (by simp_all)] at starts
      rw [unsigned]
      exact dropFraction_dropWhile_suffix starts

theorem consumeNumeric_suffix (starts : startsNumber (char :: rest) = true) :
    (consumeNumeric (char :: rest)).2 <:+ rest := by
  have suffix := dropNumber_suffix starts
  unfold consumeNumeric
  generalize dropNumber (char :: rest) = left at suffix ⊢
  dsimp only
  split
  · exact (run_suffix nameScanner left).trans suffix
  · split
    · exact (suffix_cons _ _).trans suffix
    · exact suffix

section

variable (starts : startsName (char :: rest) = true)
include starts

theorem startsEscape_of_startsName
    (outside : ¬isName char = true) : startsEscape (char :: rest) = true := by
  by_cases backslash : char = '\\'
  · subst backslash
    exact starts
  · have hyphen : char ≠ '-' := by
      rintro rfl
      exact outside (by decide)
    rw [startsName.eq_5 _ _ (by simp_all) (by simp_all) (by simp_all) (by simp_all)] at starts
    simp [isName, starts] at outside

theorem name_suffix : (nameScanner.run (char :: rest)).2 <:+ rest := by
  obtain ⟨item, after, read, suffix⟩ :
      ∃ item after, nameScanner.step (char :: rest) = some (item, after) ∧ after <:+ rest := by
    by_cases inName : isName char = true
    · exact ⟨literal char, rest, if_pos inName, suffix_rfl⟩
    · have escaped := startsEscape_of_startsName starts inName
      refine ⟨(escape rest).1, (escape rest).2, ?_, escape_suffix rest⟩
      exact (if_neg inName).trans (if_pos escaped)
  have ran : (nameScanner.run (char :: rest)).2 = (nameScanner.run after).2 := by
    rw [nameScanner.run_of_some read]
  rw [ran]
  exact (run_suffix nameScanner after).trans suffix

theorem consumeIdentLike_suffix : (consumeIdentLike (char :: rest)).2 <:+ rest := by
  have suffix := name_suffix starts
  unfold consumeIdentLike
  generalize nameScanner.run (char :: rest) = read at suffix ⊢
  obtain ⟨name, left⟩ := read
  dsimp only at suffix ⊢
  split
  · rename_i after
    have shorter := (suffix_cons '(' after).trans suffix
    split
    · exact (consumeUrl_suffix after).trans shorter
    · exact shorter
  · exact suffix

end

theorem dropComment_suffix (input : List Char) : dropComment input <:+ input := by
  fun_induction dropComment input with
  | case1 rest => exact (suffix_cons _ _).trans (suffix_cons _ _)
  | case2 char rest _ ih => exact ih.trans (suffix_cons _ _)
  | case3 => exact suffix_rfl

theorem consumeToken_suffix (char : Char) (rest : List Char) :
    (consumeToken char rest).2 <:+ rest := by
  unfold consumeToken
  split
  · exact dropWhile_suffix _
  split
  · exact (dropComment_suffix _).trans (tail_suffix _)
  split
  · exact consumeString_suffix char rest
  split
  · exact run_suffix nameScanner rest
  split
  · exact consumeNumeric_suffix ‹_›
  split
  · exact drop_suffix _ _
  split
  · exact consumeIdentLike_suffix ‹_›
  split
  · exact drop_suffix _ _
  split
  · exact run_suffix nameScanner rest
  · exact suffix_rfl

end Suffixes

section Tokens

structure Piece where
  token : Token
  text : List Char
  deriving Repr, DecidableEq

def pieceStep : List Char → Option (Piece × List Char)
  | [] => none
  | char :: rest =>
    let (token, after) := consumeToken char rest
    some (⟨token, (char :: rest).take ((char :: rest).length - after.length)⟩, after)

variable {rest text after : List Char}

theorem pieceStep_eq {token : Token} (parts : char :: rest = text ++ after)
    (read : consumeToken char rest = (token, after)) :
    pieceStep (char :: rest) = some (⟨token, text⟩, after) := by
  have length : (text ++ after).length - after.length = text.length := by simp
  simp only [pieceStep, read, parts, length, take_left]

def tokenScanner : Scanner Char Piece where
  step := pieceStep
  takes {input item rest} read := by
    cases input with
    | nil => cases read
    | cons char others =>
      exact takes_of_read read (consumeToken_suffix char others)

def tokens (input : List Char) : List Piece :=
  (tokenScanner.run input).1

theorem tokens_of_consumeToken {token : Token} (parts : char :: rest = text ++ after)
    (read : consumeToken char rest = (token, after)) :
    tokens (char :: rest) = ⟨token, text⟩ :: tokens after := by
  have step : tokenScanner.step (char :: rest) = some (⟨token, text⟩, after) :=
    pieceStep_eq parts read
  rw [tokens, tokenScanner.run_of_some step]
  rfl

end Tokens

/-- A sequence of tokens and blocks.  A block is what stands between an opening token and the
token that closes it; a closing token that closes nothing is an ordinary token, and the end of
the input closes every block. -/
inductive Components where
  | done
  | leaf (piece : Piece) (rest : Components)
  | block (opening : Piece) (content : Components) (closing : Option Piece) (rest : Components)
  deriving Repr, DecidableEq

/-- The token that closes the block another one opens. -/
def Token.closer : Token → Option Token
  | .function _ => some .closeRound
  | .openRound => some .closeRound
  | .openSquare => some .closeSquare
  | .openCurly => some .closeCurly
  | _ => none

namespace Components

def pieces : Components → List Piece
  | done => []
  | leaf piece rest => piece :: rest.pieces
  | block opening content closing rest =>
    opening :: (content.pieces ++ (closing.toList ++ rest.pieces))

def text (components : Components) : List Char :=
  components.pieces.flatMap Piece.text

/-- The components up to a closing token, and the pieces from there on. -/
def parseFor : Nat → Option Token → List Piece → Components × List Piece
  | 0, _, pieces => (done, pieces)
  | _ + 1, _, [] => (done, [])
  | fuel + 1, stop, piece :: pieces =>
    if stop = some piece.token then (done, piece :: pieces)
    else
      match piece.token.closer with
      | none =>
        let (rest, left) := parseFor fuel stop pieces
        (leaf piece rest, left)
      | some closer =>
        match parseFor fuel (some closer) pieces with
        | (content, []) => (block piece content none done, [])
        | (content, closing :: after) =>
          let (rest, left) := parseFor fuel stop after
          (block piece content (some closing) rest, left)

def parse (pieces : List Piece) : Components :=
  (parseFor pieces.length none pieces).1

end Components
end Offprint.Data.Css
