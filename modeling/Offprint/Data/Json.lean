import Mathlib.Data.List.Infix

/-!
# JSON texts

Values, the compact rendering of a value, and a strict reader.  The reader
rejects nesting below its depth limit, and its fuel is the length of the text:
every call consumes a character.
-/

namespace Offprint.Data

/-- A number token: the reader keeps integers apart from everything else. -/
inductive JsonNumber where
  | natural (value : Nat)
  | negative (magnitude : Nat)
  | decimal (text : List Char)
  deriving Repr, DecidableEq

inductive Json where
  | null
  | bool (value : Bool)
  | number (value : JsonNumber)
  | string (value : String)
  | array (elements : List Json)
  | object (members : List (String × Json))

namespace Json

section Render

def hexDigit (value : Nat) : Char :=
  if value < 10 then Char.ofNat (48 + value) else Char.ofNat (87 + value)

/-- One character as it stands inside a quoted string. -/
def escapeChar (char : Char) : List Char :=
  match char with
  | '"' => ['\\', '"']
  | '\\' => ['\\', '\\']
  | '\x08' => ['\\', 'b']
  | '\x0c' => ['\\', 'f']
  | '\n' => ['\\', 'n']
  | '\r' => ['\\', 'r']
  | '\t' => ['\\', 't']
  | char =>
    if char.toNat < 32 then
      ['\\', 'u', '0', '0', hexDigit (char.toNat / 16), hexDigit (char.toNat % 16)]
    else
      [char]

def renderString (text : String) : List Char :=
  '"' :: (text.toList.flatMap escapeChar ++ ['"'])

def renderNumber : JsonNumber → List Char
  | .natural value => Nat.toDigits 10 value
  | .negative magnitude => '-' :: Nat.toDigits 10 magnitude
  | .decimal text => text

mutual

/-- The compact text of a value: no white space, members in their order. -/
def render : Json → List Char
  | null => "null".toList
  | bool true => "true".toList
  | bool false => "false".toList
  | number value => renderNumber value
  | string value => renderString value
  | array [] => ['[', ']']
  | array (first :: rest) => '[' :: (render first ++ renderElements rest)
  | object [] => ['\x7b', '\x7d']
  | object ((key, first) :: rest) =>
    '\x7b' :: (renderString key ++ ':' :: (render first ++ renderMembers rest))

def renderElements : List Json → List Char
  | [] => [']']
  | next :: rest => ',' :: (render next ++ renderElements rest)

def renderMembers : List (String × Json) → List Char
  | [] => ['\x7d']
  | (key, next) :: rest =>
    ',' :: (renderString key ++ ':' :: (render next ++ renderMembers rest))

end

end Render

section Read

def isSpace (char : Char) : Bool :=
  char = ' ' || char = '\n' || char = '\t' || char = '\r'

def skipSpace (input : List Char) : List Char :=
  input.dropWhile isSpace

/-- The raw content of a quoted string, up to its closing quote. -/
def scanString : List Char → Option (List Char × List Char)
  | [] => none
  | '"' :: rest => some ([], rest)
  | '\\' :: char :: rest =>
    (scanString rest).map fun (content, after) => ('\\' :: char :: content, after)
  | char :: rest =>
    (scanString rest).map fun (content, after) => (char :: content, after)

def hexValue (char : Char) : Option Nat :=
  if '0' ≤ char ∧ char ≤ '9' then some (char.toNat - 48)
  else if 'a' ≤ char ∧ char ≤ 'f' then some (char.toNat - 87)
  else if 'A' ≤ char ∧ char ≤ 'F' then some (char.toNat - 55)
  else none

def hexUnit (first second third fourth : Char) : Option Nat := do
  let first ← hexValue first
  let second ← hexValue second
  let third ← hexValue third
  let fourth ← hexValue fourth
  return ((first * 16 + second) * 16 + third) * 16 + fourth

def simpleEscape : Char → Option Char
  | '"' => some '"'
  | '\\' => some '\\'
  | '/' => some '/'
  | 'b' => some '\x08'
  | 'f' => some '\x0c'
  | 'n' => some '\n'
  | 'r' => some '\r'
  | 't' => some '\t'
  | _ => none

/-- Resolve the escapes of a raw string; control characters must be escaped. -/
def unescape : List Char → Option (List Char)
  | [] => some []
  | '\\' :: 'u' :: a :: b :: c :: d :: rest => do
      let unit ← hexUnit a b c d
      if 0xd800 ≤ unit ∧ unit < 0xdc00 then
        match rest with
        | '\\' :: 'u' :: e :: f :: g :: h :: after =>
          let low ← hexUnit e f g h
          if 0xdc00 ≤ low ∧ low < 0xe000 then
            let tail ← unescape after
            return Char.ofNat (0x10000 + (unit - 0xd800) * 0x400 + (low - 0xdc00)) :: tail
          else none
        | _ => none
      else if 0xdc00 ≤ unit ∧ unit < 0xe000 then none
      else
        let tail ← unescape rest
        return Char.ofNat unit :: tail
  | '\\' :: char :: rest => do
      let resolved ← simpleEscape char
      let tail ← unescape rest
      return resolved :: tail
  | char :: rest =>
    if char.toNat < 32 ∨ char = '\\' then none
    else (unescape rest).map (char :: ·)

def readString (input : List Char) : Option (String × List Char) := do
  let (raw, after) ← scanString input
  let content ← unescape raw
  return (String.ofList content, after)

def readDigits (input : List Char) : Option (List Char × List Char) :=
  if input.takeWhile Char.isDigit = [] then none
  else some (input.takeWhile Char.isDigit, input.dropWhile Char.isDigit)

def readFraction : List Char → Option (List Char × List Char)
  | '.' :: rest => (readDigits rest).map fun (digits, after) => ('.' :: digits, after)
  | input => some ([], input)

def readExponent : List Char → Option (List Char × List Char)
  | [] => some ([], [])
  | marker :: rest =>
    if marker = 'e' ∨ marker = 'E' then
      match rest with
      | [] => none
      | sign :: more =>
        if sign = '+' ∨ sign = '-' then
          (readDigits more).map fun (digits, after) => (marker :: sign :: digits, after)
        else
          (readDigits rest).map fun (digits, after) => (marker :: digits, after)
    else
      some ([], marker :: rest)

def readUnsigned (negative : Bool) (input : List Char) : Option (JsonNumber × List Char) := do
  let (digits, rest) ← readDigits input
  let (fraction, afterFraction) ← readFraction rest
  let (exponent, after) ← readExponent afterFraction
  let value := Nat.ofDigitChars 10 digits 0
  if digits.head? = some '0' ∧ digits.length ≠ 1 then
    none
  else if fraction = [] ∧ exponent = [] ∧ (negative = false ∨ value ≠ 0) then
    return (if negative then .negative value else .natural value, after)
  else
    let sign := if negative then ['-'] else []
    return (.decimal (sign ++ digits ++ fraction ++ exponent), after)

def readNumber : List Char → Option (JsonNumber × List Char)
  | '-' :: rest => readUnsigned true rest
  | input => readUnsigned false input

mutual

/-- One value at the start of a text, with what follows it. -/
def readValue : Nat → Nat → List Char → Option (Json × List Char)
  | 0, _, _ => none
  | fuel + 1, depth, input =>
    match skipSpace input with
    | 'n' :: 'u' :: 'l' :: 'l' :: rest => some (null, rest)
    | 't' :: 'r' :: 'u' :: 'e' :: rest => some (bool true, rest)
    | 'f' :: 'a' :: 'l' :: 's' :: 'e' :: rest => some (bool false, rest)
    | '"' :: rest => (readString rest).map fun (text, after) => (string text, after)
    | '[' :: rest =>
      match depth with
      | 0 => none
      | depth + 1 =>
        match skipSpace rest with
        | ']' :: after => some (array [], after)
        | _ => (readElements fuel depth rest).map fun (read, after) => (array read, after)
    | '\x7b' :: rest =>
      match depth with
      | 0 => none
      | depth + 1 =>
        match skipSpace rest with
        | '\x7d' :: after => some (object [], after)
        | _ => (readMembers fuel depth rest).map fun (read, after) => (object read, after)
    | other => (readNumber other).map fun (read, after) => (number read, after)

/-- The elements of an array from the next one on, to its closing bracket. -/
def readElements : Nat → Nat → List Char → Option (List Json × List Char)
  | 0, _, _ => none
  | fuel + 1, depth, input =>
    match readValue fuel depth input with
    | none => none
    | some (first, rest) =>
      match skipSpace rest with
      | ',' :: more =>
        (readElements fuel depth more).map fun (others, after) => (first :: others, after)
      | ']' :: after => some ([first], after)
      | _ => none

/-- The members of an object from the next one on, to its closing brace. -/
def readMembers : Nat → Nat → List Char → Option (List (String × Json) × List Char)
  | 0, _, _ => none
  | fuel + 1, depth, input =>
    match skipSpace input with
    | '"' :: quoted =>
      match readString quoted with
      | none => none
      | some (key, afterKey) =>
        match skipSpace afterKey with
        | ':' :: afterColon =>
          match readValue fuel depth afterColon with
          | none => none
          | some (first, rest) =>
            match skipSpace rest with
            | ',' :: more =>
              (readMembers fuel depth more).map
                fun (others, after) => ((key, first) :: others, after)
            | '\x7d' :: after => some ([(key, first)], after)
            | _ => none
        | _ => none
    | _ => none

end

def maximumDepth : Nat := 127

def read (input : List Char) : Option Json :=
  match readValue (input.length + 1) maximumDepth input with
  | some (value, rest) => if skipSpace rest = [] then some value else none
  | none => none

end Read
end Json
end Offprint.Data
