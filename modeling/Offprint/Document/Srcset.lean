import Offprint.Data.Scanner
import Offprint.Document.Rewrite

/-!
# Candidates of a srcset attribute

The scanner of the source works on bytes.  It is a splitter of characters, like
the algorithm of the HTML standard: both skip white space and commas, take what
stands up to the next white space as a URL, and differ only in how much of the
text behind a URL they pass over before they look for the next one.
-/

namespace Offprint.Document

open Data Text List Nat Effect Model
open Offprint.Data.Utf8 (encode)
open Offprint.Effect.Checked (failIf)

/-- A reference and where its text stands in its container. -/
structure Reference where
  value : List Char
  range : ByteRange
  deriving Repr, DecidableEq

section Bytes

def isAsciiWhitespace (byte : UInt8) : Bool :=
  byte == 0x20 || byte == 0x09 || byte == 0x0a || byte == 0x0c || byte == 0x0d

def isCommaByte (byte : UInt8) : Bool :=
  byte == 0x2c

def u32Max : Nat := 2 ^ 32 - 1

/-- How many bytes the descriptors of a candidate take, with the comma that ends them. -/
def descriptorBytes (parentheses : Nat) : List UInt8 → Nat
  | [] => 0
  | byte :: rest =>
    if byte = 0x28 then 1 + descriptorBytes (min (parentheses + 1) u32Max) rest
    else if byte = 0x29 then 1 + descriptorBytes (parentheses - 1) rest
    else if byte = 0x2c ∧ parentheses = 0 then 1
    else 1 + descriptorBytes parentheses rest

def srcsetLimitError : OffprintError :=
  resourceError "offprint.resource.limit" "document resource count exceeds the configured limit"

def addCandidate (srcset : List Char) (maximum start stop : Nat) (references : List Reference) :
    Checked OffprintError (List Reference) :=
  if stop > start then do
    let value ← index srcset start stop
    failIf (references.length ≥ maximum) srcsetLimitError
    return references ++ [⟨value, ⟨start, stop⟩⟩]
  else
    return references

/-- The candidates from a position on.  Every round takes at least one byte. -/
def srcsetReferencesFrom (srcset : List Char) (maximum : Nat) :
    Nat → Nat → List Reference → Checked OffprintError (List Reference)
  | 0, _, references => .ok references
  | fuel + 1, position, references =>
    let bytes := encode srcset
    let start := position + ((bytes.drop position).takeWhile fun byte =>
      isAsciiWhitespace byte || isCommaByte byte).length
    if start ≥ bytes.length then
      .ok references
    else do
      let run := (bytes.drop start).takeWhile fun byte => !isAsciiWhitespace byte
      let stop := start + (run.rdropWhile isCommaByte).length
      let references ← addCandidate srcset maximum start stop references
      let after := start + run.length
      srcsetReferencesFrom srcset maximum fuel
        (after + descriptorBytes 0 (bytes.drop after)) references

def srcsetReferencesBounded (srcset : List Char) (maximum : Nat) :
    Checked OffprintError (List Reference) :=
  srcsetReferencesFrom srcset maximum (Text.size srcset) 0 []

end Bytes

variable {char : Char}

section Characters

def isHtmlWhitespace (char : Char) : Bool :=
  char == ' ' || char == '\t' || char == '\n' || char == '\x0c' || char == '\r'

def isSeparator (char : Char) : Bool :=
  isHtmlWhitespace char || char == ','

variable {byte : UInt8}

theorem isAsciiWhitespace_eq (same : byte.toNat = char.toNat) :
    isAsciiWhitespace byte = isHtmlWhitespace char := by
  unfold isAsciiWhitespace isHtmlWhitespace
  rw [@byte_beq_eq byte 0x20 char ' ' same rfl, @byte_beq_eq byte 0x09 char '\t' same rfl,
    @byte_beq_eq byte 0x0a char '\n' same rfl,
    @byte_beq_eq byte 0x0c char '\x0c' same rfl,
    @byte_beq_eq byte 0x0d char '\r' same rfl]

theorem isAsciiWhitespace_of_high (high : 128 ≤ byte.toNat) : isAsciiWhitespace byte = false := by
  simp [isAsciiWhitespace, byte_beq_of_high high]

theorem isHtmlWhitespace_of_high (high : 128 ≤ char.toNat) : isHtmlWhitespace char = false := by
  simp [isHtmlWhitespace, char_beq_of_high high]

theorem decides_isHtmlWhitespace :
    Decides (fun byte => !isAsciiWhitespace byte) fun char => !isHtmlWhitespace char := by
  apply decides_of_ascii true
  · intro byte char same
    rw [isAsciiWhitespace_eq same]
  · intro byte high
    rw [isAsciiWhitespace_of_high high, Bool.not_false]
  · intro char high
    rw [isHtmlWhitespace_of_high high, Bool.not_false]

theorem decides_isSeparator :
    Decides (fun byte => isAsciiWhitespace byte || isCommaByte byte) isSeparator := by
  apply decides_of_ascii false
  · intro byte char same
    rw [isAsciiWhitespace_eq same, isCommaByte, isSeparator,
      @byte_beq_eq byte 0x2c char ',' same rfl]
  · intro byte high
    simp [isAsciiWhitespace_of_high high, isCommaByte, byte_beq_of_high high]
  · intro char high
    simp [isSeparator, isHtmlWhitespace_of_high high, char_beq_of_high high]

/-- What stands up to the next white space. -/
def urlRun (here : List Char) : List Char :=
  here.takeWhile fun char => !isHtmlWhitespace char

def afterRun (here : List Char) : List Char :=
  here.dropWhile fun char => !isHtmlWhitespace char

theorem urlRun_append_afterRun (here : List Char) : urlRun here ++ afterRun here = here :=
  takeWhile_append_dropWhile

/-- A URL and the text that starts with it. -/
structure Candidate where
  url : List Char
  here : List Char

/-- A way to pass over the text behind a URL. -/
structure Splitter where
  passOver : List Char → List Char → List Char
  suffix : ∀ run rest, passOver run rest <:+ rest

namespace Splitter

variable (splitter : Splitter) {input here rest : List Char} {char : Char}

def step (splitter : Splitter) (input : List Char) : Option (Candidate × List Char) :=
  match input.dropWhile isSeparator with
  | [] => none
  | char :: rest =>
    let here := char :: rest
    some (⟨(urlRun here).rdropWhile (· == ','), here⟩,
      splitter.passOver (urlRun here) (afterRun here))

theorem not_isSeparator_of_dropWhile (skipped : input.dropWhile isSeparator = char :: rest) :
    isHtmlWhitespace char = false ∧ char ≠ ',' := by
  have separate := head?_dropWhile_not isSeparator input
  rw [skipped] at separate
  simpa [isSeparator] using separate

theorem passOver_suffix (skipped : input.dropWhile isSeparator = char :: rest) :
    splitter.passOver (urlRun (char :: rest)) (afterRun (char :: rest)) <:+ rest := by
  apply (splitter.suffix _ _).trans
  have dropped : afterRun (char :: rest) = afterRun rest := by
    simp [afterRun, (not_isSeparator_of_dropWhile skipped).1]
  rw [dropped]
  exact dropWhile_suffix _

def scanner (splitter : Splitter) : Scanner Char Candidate where
  step := splitter.step
  takes {input candidate rest} read := by
    unfold step at read
    split at read
    · cases read
    · rename_i char others skipped
      obtain ⟨-, rfl⟩ := Prod.mk.inj (Option.some.inj read)
      obtain ⟨middle, parts⟩ := splitter.passOver_suffix skipped
      have suffix : char :: others <:+ input := skipped ▸ List.dropWhile_suffix isSeparator
      obtain ⟨front, whole⟩ := suffix
      refine ⟨front ++ char :: middle, by simp, ?_⟩
      rw [← whole, List.append_assoc, List.cons_append, parts]

def candidates (splitter : Splitter) (input : List Char) : List Candidate :=
  (splitter.scanner.run input).1

theorem candidates_of_nil (blank : input.dropWhile isSeparator = []) :
    splitter.candidates input = [] := by
  have stops : splitter.scanner.step input = none := by
    simp only [scanner, step, blank]
  rw [candidates, splitter.scanner.run_of_none stops]

theorem candidates_of_here (skipped : input.dropWhile isSeparator = here) (filled : here ≠ []) :
    splitter.candidates input =
      ⟨(urlRun here).rdropWhile (· == ','), here⟩ ::
        splitter.candidates (splitter.passOver (urlRun here) (afterRun here)) := by
  have read : splitter.step input = some (⟨(urlRun here).rdropWhile (· == ','), here⟩,
      splitter.passOver (urlRun here) (afterRun here)) := by
    obtain ⟨char, rest, rfl⟩ := exists_cons_of_ne_nil filled
    rw [step, skipped]
  rw [candidates, splitter.scanner.run_of_some read]
  rfl

theorem candidates_congr
    {other : List Char} (same : input.dropWhile isSeparator = other.dropWhile isSeparator) :
    splitter.candidates input = splitter.candidates other := by
  by_cases blank : other.dropWhile isSeparator = []
  · rw [splitter.candidates_of_nil blank, splitter.candidates_of_nil (same.trans blank)]
  · rw [splitter.candidates_of_here rfl blank, splitter.candidates_of_here same blank]

theorem here_suffix_of_head {candidate : Candidate}
    (first : (splitter.candidates input).head? = some candidate) : candidate.here <:+ input := by
  by_cases blank : input.dropWhile isSeparator = []
  · rw [splitter.candidates_of_nil blank] at first
    cases first
  · rw [splitter.candidates_of_here rfl blank] at first
    cases first
    exact dropWhile_suffix isSeparator

end Splitter

/-- A candidate as a reference into a text of some size. -/
def Candidate.reference (total : Nat) (candidate : Candidate) : Reference :=
  let start := total - Text.size candidate.here
  ⟨candidate.url, ⟨start, start + Text.size candidate.url⟩⟩

end Characters

section Scan

/-- The text behind the descriptors of a candidate, where parentheses nest. -/
def dropDescriptors (parentheses : Nat) : List Char → List Char
  | [] => []
  | char :: rest =>
    if char = '(' then dropDescriptors (min (parentheses + 1) u32Max) rest
    else if char = ')' then dropDescriptors (parentheses - 1) rest
    else if char = ',' ∧ parentheses = 0 then rest
    else dropDescriptors parentheses rest

theorem dropDescriptors_suffix (parentheses : Nat) (input : List Char) :
    dropDescriptors parentheses input <:+ input := by
  induction input generalizing parentheses with
  | nil => exact suffix_rfl
  | cons char rest ih =>
    unfold dropDescriptors
    split_ifs
    · exact (ih _).trans (suffix_cons char rest)
    · exact (ih _).trans (suffix_cons char rest)
    · exact suffix_cons char rest
    · exact (ih _).trans (suffix_cons char rest)

/-- The splitter the byte scanner follows: descriptors are always passed over. -/
def scanSplitter : Splitter where
  passOver _ rest := dropDescriptors 0 rest
  suffix _ rest := dropDescriptors_suffix 0 rest

def srcsetCandidates (srcset : List Char) : List Reference :=
  (scanSplitter.candidates srcset).map (Candidate.reference (Text.size srcset))

theorem descriptorBytes_append_high (parentheses : Nat) {bytes : List UInt8} (rest : List UInt8)
    (high : ∀ byte ∈ bytes, 128 ≤ byte.toNat) :
    descriptorBytes parentheses (bytes ++ rest) =
      bytes.length + descriptorBytes parentheses rest := by
  induction bytes with
  | nil => simp
  | cons byte bytes ih =>
    have first := high byte mem_cons_self
    have others := ih fun other member =>
      high other (mem_cons_of_mem byte member)
    have opening : byte ≠ 0x28 := by rintro rfl; simp at first
    have closing : byte ≠ 0x29 := by rintro rfl; simp at first
    have comma : byte ≠ 0x2c := by rintro rfl; simp at first
    simp only [cons_append, descriptorBytes, opening, closing, comma, if_false, false_and,
      others, length_cons]
    omega

theorem descriptorBytes_encode (parentheses : Nat) (input : List Char) :
    descriptorBytes parentheses (encode input) + size (dropDescriptors parentheses input) =
      size input := by
  induction input generalizing parentheses with
  | nil => rfl
  | cons char rest ih =>
    rw [Utf8.encode_cons]
    rcases encodeChar_cases char with ⟨low, byte, encoded, same⟩ | ⟨high, each⟩
    · have width : char.utf8Size = 1 := by
        rw [← String.length_utf8EncodeChar, encoded, length_singleton]
      have opening : byte = 0x28 ↔ char = '(' := by
        rw [← UInt8.toNat_inj, ← Char.toNat_inj, same]
        rfl
      have closing : byte = 0x29 ↔ char = ')' := by
        rw [← UInt8.toNat_inj, ← Char.toNat_inj, same]
        rfl
      have comma : byte = 0x2c ↔ char = ',' := by
        rw [← UInt8.toNat_inj, ← Char.toNat_inj, same]
        rfl
      rw [encoded, singleton_append, descriptorBytes, dropDescriptors, size_cons, width]
      simp only [opening, closing, comma]
      split_ifs
      · rw [← ih (min (parentheses + 1) u32Max)]
        omega
      · rw [← ih (parentheses - 1)]
        omega
      · rfl
      · rw [← ih parentheses]
        omega
    · have opening : char ≠ '(' := by rintro rfl; simp at high
      have closing : char ≠ ')' := by rintro rfl; simp at high
      have comma : char ≠ ',' := by rintro rfl; simp at high
      rw [descriptorBytes_append_high parentheses _ each, dropDescriptors, if_neg opening,
        if_neg closing, if_neg (by simp [comma]), size_cons, String.length_utf8EncodeChar,
        add_assoc, ih parentheses]

theorem rdropWhile_encode (text : List Char) :
    (encode text).rdropWhile isCommaByte = encode (text.rdropWhile (· == ',')) := by
  induction text using List.reverseRecOn with
  | nil => rfl
  | append_singleton text char ih =>
    have last : encode [char] = String.utf8EncodeChar char := flatMap_singleton _ char
    rw [encode_append, last]
    by_cases comma : char = ','
    · subst comma
      rw [rdropWhile_concat_pos _ _ _ rfl, ← ih]
      exact rdropWhile_concat_pos _ _ _ rfl
    · rw [rdropWhile_concat_neg _ _ _ (by simpa using comma), encode_append, last]
      have filled := @String.utf8EncodeChar_ne_nil char
      have ending : ¬isCommaByte ((String.utf8EncodeChar char).getLast filled) = true := by
        have inside := getLast_mem filled
        rcases encodeChar_cases char with ⟨-, byte, encoded, same⟩ | ⟨high, each⟩
        · simp only [encoded, getLast_singleton, isCommaByte,
            @byte_beq_eq byte 0x2c char ',' same rfl]
          simpa using comma
        · rw [isCommaByte, byte_beq_of_high (each _ inside) (by decide)]
          exact Bool.false_ne_true
      rw [← dropLast_append_getLast filled, ← append_assoc]
      exact rdropWhile_concat_neg _ _ _ ending

variable {srcset remaining here : List Char}

theorem rdropWhile_urlRun_ne_nil (skipped : remaining.dropWhile isSeparator = here)
    (filled : here ≠ []) : (urlRun here).rdropWhile (· == ',') ≠ [] := by
  intro empty
  obtain ⟨char, rest, rfl⟩ := exists_cons_of_ne_nil filled
  have printed := Splitter.not_isSeparator_of_dropWhile skipped
  have inside : char ∈ urlRun (char :: rest) := by simp [urlRun, printed.1]
  have comma := rdropWhile_eq_nil_iff.mp empty char inside
  exact printed.2 (by simpa using comma)

/-- Where a text that ends another one starts in it. -/
def offsetOf (srcset remaining : List Char) : Nat :=
  Text.size srcset - Text.size remaining

theorem offsetOf_add {front : List Char} (within : front ++ remaining <:+ srcset) :
    offsetOf srcset (front ++ remaining) + size front = offsetOf srcset remaining := by
  have fits := size_le_of_suffix within
  rw [size_append] at fits
  simp only [offsetOf, size_append]
  omega

theorem drop_offsetOf (within : remaining <:+ srcset) :
    (encode srcset).drop (offsetOf srcset remaining) = encode remaining := by
  obtain ⟨before, rfl⟩ := within
  rw [offsetOf, size_append, Nat.add_sub_cancel, drop_encode]

theorem addCandidate_eq {url rest : List Char} (within : url ++ rest <:+ srcset)
    (filled : url ≠ []) (maximum : Nat) (references : List Reference) :
    addCandidate srcset maximum (offsetOf srcset (url ++ rest)) (offsetOf srcset rest) references =
      if references.length ≥ maximum then .error srcsetLimitError
      else .ok (references ++
        [⟨url, ⟨offsetOf srcset (url ++ rest), offsetOf srcset rest⟩⟩]) := by
  have ends := offsetOf_add within
  have wide : offsetOf srcset rest > offsetOf srcset (url ++ rest) := by
    have positive := size_pos_iff.mpr filled
    omega
  have found : slice srcset (offsetOf srcset (url ++ rest)) (offsetOf srcset rest) =
      some url := by
    obtain ⟨before, whole⟩ := within
    have start : size before = offsetOf srcset (url ++ rest) := by
      rw [← whole, offsetOf, size_append, Nat.add_sub_cancel]
    exact slice_eq_some_iff.mpr ⟨before, rest, by simp [← whole], start, start ▸ ends⟩
  simp only [addCandidate, if_pos wide, index, found, Checked.ofOption, Checked.ok_bind, failIf]
  split <;> rfl

section

variable (within : remaining <:+ srcset)
include within

theorem srcsetReferencesFrom_of_blank (blank : remaining.dropWhile isSeparator = [])
    (maximum fuel : Nat) (references : List Reference) :
    srcsetReferencesFrom srcset maximum (fuel + 1) (offsetOf srcset remaining) references =
      .ok references := by
  have ended : offsetOf srcset remaining + size (remaining.takeWhile isSeparator) ≥
      (encode srcset).length := by
    have parts := takeWhile_append_dropWhile (p := isSeparator) (l := remaining)
    rw [blank, append_nil] at parts
    rw [parts]
    have fits := size_le_of_suffix within
    have total : (encode srcset).length = size srcset := rfl
    simp only [offsetOf]
    omega
  simp only [srcsetReferencesFrom, drop_offsetOf within, decides_isSeparator.length_takeWhile,
    if_pos ended]

theorem srcsetReferencesFrom_of_candidate (skipped : remaining.dropWhile isSeparator = here)
    (filled : here ≠ []) (maximum fuel : Nat) (references : List Reference) :
    srcsetReferencesFrom srcset maximum (fuel + 1) (offsetOf srcset remaining) references =
      (addCandidate srcset maximum (offsetOf srcset here)
          (offsetOf srcset here + size ((urlRun here).rdropWhile (· == ','))) references >>=
        srcsetReferencesFrom srcset maximum fuel
          (offsetOf srcset (dropDescriptors 0 (afterRun here)))) := by
  have parts : remaining.takeWhile isSeparator ++ here = remaining := by
    rw [← skipped, takeWhile_append_dropWhile]
  have start : offsetOf srcset remaining + size (remaining.takeWhile isSeparator) =
      offsetOf srcset here := by
    have moved := @offsetOf_add srcset here _ (parts.symm ▸ within)
    rwa [parts] at moved
  have standing : here <:+ srcset := (skipped ▸ dropWhile_suffix isSeparator).trans within
  have inside : ¬offsetOf srcset here ≥ (encode srcset).length := by
    have positive : 0 < size here := size_pos_iff.mpr filled
    have fits := size_le_of_suffix standing
    have total : (encode srcset).length = size srcset := rfl
    simp only [offsetOf]
    omega
  have run : (encode here).takeWhile (fun byte => !isAsciiWhitespace byte) =
      encode (urlRun here) := decides_isHtmlWhitespace.takeWhile_encode _
  have behind : afterRun here <:+ srcset := (dropWhile_suffix _).trans standing
  have after : offsetOf srcset here + (encode (urlRun here)).length =
      offsetOf srcset (afterRun here) := by
    have moved := @offsetOf_add srcset (afterRun here) (urlRun here)
    rw [urlRun_append_afterRun] at moved
    exact moved standing
  have next : offsetOf srcset (afterRun here) + descriptorBytes 0 (encode (afterRun here)) =
      offsetOf srcset (dropDescriptors 0 (afterRun here)) := by
    have count := descriptorBytes_encode 0 (afterRun here)
    have fits := size_le_of_suffix behind
    simp only [offsetOf]
    omega
  simp only [srcsetReferencesFrom, drop_offsetOf within, decides_isSeparator.length_takeWhile,
    start, if_neg inside, drop_offsetOf standing, run, rdropWhile_encode, after,
    drop_offsetOf behind, next]
  rfl

theorem srcsetReferencesFrom_eq {fuel : Nat} (enough : size remaining ≤ fuel) (maximum : Nat)
    (references : List Reference) (room : references.length ≤ maximum) :
    srcsetReferencesFrom srcset maximum fuel (offsetOf srcset remaining) references =
      let found := (scanSplitter.candidates remaining).map
        (Candidate.reference (size srcset))
      if references.length + found.length ≤ maximum then .ok (references ++ found)
      else .error srcsetLimitError := by
  induction fuel generalizing remaining references with
  | zero =>
    obtain rfl : remaining = [] := size_eq_zero_iff.mp (le_zero.mp enough)
    have blank := scanSplitter.candidates_of_nil
      (dropWhile_nil : [].dropWhile isSeparator = [])
    simp [srcsetReferencesFrom, blank, room]
  | succ fuel ih =>
    by_cases blank : remaining.dropWhile isSeparator = []
    · rw [srcsetReferencesFrom_of_blank within blank, scanSplitter.candidates_of_nil blank]
      simp [room]
    · generalize skipped : remaining.dropWhile isSeparator = here at blank
      have reached : here <:+ remaining := skipped ▸ dropWhile_suffix isSeparator
      have filled := rdropWhile_urlRun_ne_nil skipped blank
      obtain ⟨commas, trailing⟩ : (urlRun here).rdropWhile (· == ',') <+: urlRun here :=
        rdropWhile_prefix _ _
      rw [srcsetReferencesFrom_of_candidate within skipped blank,
        scanSplitter.candidates_of_here skipped blank]
      generalize (urlRun here).rdropWhile (· == ',') = url at trailing filled
      have parts : url ++ (commas ++ afterRun here) = here := by
        rw [← append_assoc, trailing, urlRun_append_afterRun]
      have ends := @offsetOf_add srcset (commas ++ afterRun here) url
      have placed := @addCandidate_eq srcset url (commas ++ afterRun here)
      rw [parts] at ends placed
      have standing := reached.trans within
      have left := dropDescriptors_suffix 0 (afterRun here)
      have smaller : size (dropDescriptors 0 (afterRun here)) ≤ fuel := by
        have positive := size_pos_iff.mpr filled
        have width := congrArg Text.size parts
        have shorter := size_le_of_suffix left
        have bound := size_le_of_suffix reached
        simp only [size_append] at width
        omega
      have next : dropDescriptors 0 (afterRun here) <:+ srcset :=
        (left.trans (dropWhile_suffix _)).trans standing
      have reference : Candidate.reference (size srcset) ⟨url, here⟩ =
          ⟨url, ⟨offsetOf srcset here, offsetOf srcset (commas ++ afterRun here)⟩⟩ := by
        rw [← ends standing]
        rfl
      rw [ends standing, placed standing filled, map_cons, reference]
      by_cases full : references.length ≥ maximum
      · rw [if_pos full, if_neg (by simp only [length_cons]; omega)]
        rfl
      · rw [if_neg full, Checked.ok_bind, ih next smaller _ (by simp; omega)]
        simp only [length_append, length_cons, length_nil, append_assoc,
          cons_append, nil_append, add_assoc, add_comm 1]
        rfl

end

theorem srcsetReferencesBounded_eq (srcset : List Char) (maximum : Nat) :
    srcsetReferencesBounded srcset maximum =
      if (srcsetCandidates srcset).length ≤ maximum then .ok (srcsetCandidates srcset)
      else .error srcsetLimitError := by
  have found := @srcsetReferencesFrom_eq srcset srcset suffix_rfl _ (le_refl _) maximum []
    (zero_le _)
  simpa [srcsetReferencesBounded, srcsetCandidates, offsetOf] using found

end Scan

section Standard

inductive DescriptorState where
  | inDescriptor
  | inParentheses
  | afterDescriptor
  deriving Repr, DecidableEq

open DescriptorState in
/-- What the descriptor tokenizer of the HTML standard leaves behind.  Parentheses
do not nest, and a character after a descriptor starts the next one. -/
def tokenizeDescriptors (state : DescriptorState) : List Char → List Char
  | [] => []
  | char :: rest =>
    match state with
    | inParentheses =>
      if char = ')' then tokenizeDescriptors inDescriptor rest
      else tokenizeDescriptors inParentheses rest
    | inDescriptor | afterDescriptor =>
      if isHtmlWhitespace char then tokenizeDescriptors afterDescriptor rest
      else if char = ',' then rest
      else if char = '(' then tokenizeDescriptors inParentheses rest
      else tokenizeDescriptors inDescriptor rest

theorem tokenizeDescriptors_suffix (state : DescriptorState) (input : List Char) :
    tokenizeDescriptors state input <:+ input := by
  induction input generalizing state with
  | nil => exact suffix_rfl
  | cons char rest ih =>
    have shorter : ∀ state, tokenizeDescriptors state rest <:+ char :: rest :=
      fun state => (ih state).trans (suffix_cons char rest)
    unfold tokenizeDescriptors
    cases state <;> dsimp only <;> split_ifs <;>
      first | exact shorter _ | exact suffix_cons char rest

/-- The splitting loop of the HTML standard: a URL that ends with a comma has no
descriptors. -/
def standardSplitter : Splitter where
  passOver run rest :=
    if run.getLast? = some ',' then rest
    else tokenizeDescriptors .inDescriptor (rest.dropWhile isHtmlWhitespace)
  suffix run rest := by
    split
    · exact List.suffix_rfl
    · exact (tokenizeDescriptors_suffix _ _).trans (List.dropWhile_suffix _)

/-- The candidate URLs of the HTML standard, before their descriptors are parsed. -/
def standardCandidates (srcset : List Char) : List Reference :=
  (standardSplitter.candidates srcset).map (Candidate.reference (Text.size srcset))

/-- Whether a comma stands outside all parentheses, counted as the scanner does. -/
def hasOuterComma (parentheses : Nat) : List Char → Bool
  | [] => false
  | char :: rest =>
    if char = '(' then hasOuterComma (min (parentheses + 1) u32Max) rest
    else if char = ')' then hasOuterComma (parentheses - 1) rest
    else if char = ',' ∧ parentheses = 0 then true
    else hasOuterComma parentheses rest

/-- The text between the URL of a candidate and the next candidate. -/
def Candidate.gap (candidate next : Candidate) : List Char :=
  (afterRun candidate.here).take ((afterRun candidate.here).length - next.here.length)

/-- Between any two candidates of the standard stands a comma outside nested
parentheses, after the white space that ends the URL of the first. -/
def CommaSeparated (srcset : List Char) : Prop :=
  (standardSplitter.candidates srcset).IsChain fun candidate next =>
    hasOuterComma 0 (candidate.gap next) = true

/-- How deep in parentheses the scanner is behind a character. -/
def nesting (parentheses : Nat) (char : Char) : Nat :=
  if char = '(' then min (parentheses + 1) u32Max
  else if char = ')' then parentheses - 1
  else parentheses

theorem dropDescriptors_cons (parentheses : Nat) (char : Char) (rest : List Char) :
    dropDescriptors parentheses (char :: rest) =
      if char = ',' ∧ parentheses = 0 then rest
      else dropDescriptors (nesting parentheses char) rest := by
  by_cases opening : char = '('
  · simp [dropDescriptors, nesting, opening]
  · by_cases closing : char = ')'
    · simp [dropDescriptors, nesting, closing]
    · simp [dropDescriptors, nesting, opening, closing]

theorem hasOuterComma_cons (parentheses : Nat) (char : Char) (rest : List Char) :
    hasOuterComma parentheses (char :: rest) =
      if char = ',' ∧ parentheses = 0 then true
      else hasOuterComma (nesting parentheses char) rest := by
  by_cases opening : char = '('
  · simp [hasOuterComma, nesting, opening]
  · by_cases closing : char = ')'
    · simp [hasOuterComma, nesting, closing]
    · simp [hasOuterComma, nesting, opening, closing]

variable {parentheses : Nat} {text : List Char}

theorem dropDescriptors_of_hasOuterComma (ends : hasOuterComma parentheses text = true)
    (rest : List Char) :
    dropDescriptors parentheses (text ++ rest) = dropDescriptors parentheses text ++ rest := by
  induction text generalizing parentheses with
  | nil => cases ends
  | cons char text ih =>
    rw [hasOuterComma_cons] at ends
    rw [cons_append, dropDescriptors_cons, dropDescriptors_cons]
    split_ifs at ends ⊢
    · rfl
    · exact ih ends

theorem dropDescriptors_of_not_hasOuterComma (passes : hasOuterComma parentheses text = false) :
    ∃ depth, ∀ rest, dropDescriptors parentheses (text ++ rest) = dropDescriptors depth rest ∧
      hasOuterComma parentheses (text ++ rest) = hasOuterComma depth rest := by
  induction text generalizing parentheses with
  | nil => exact ⟨parentheses, fun rest => ⟨rfl, rfl⟩⟩
  | cons char text ih =>
    rw [hasOuterComma_cons] at passes
    split_ifs at passes with stops
    obtain ⟨depth, same⟩ := ih passes
    refine ⟨depth, fun rest => ?_⟩
    rw [cons_append, dropDescriptors_cons, hasOuterComma_cons, if_neg stops, if_neg stops]
    exact same rest

/-- The next state of the descriptor tokenizer; at a comma outside parentheses it
stops. -/
theorem tokenizeDescriptors_cons (state : DescriptorState) (char : Char) (rest : List Char) :
    (state ≠ .inParentheses ∧ char = ',' ∧ tokenizeDescriptors state (char :: rest) = rest) ∨
      ∃ next, tokenizeDescriptors state (char :: rest) = tokenizeDescriptors next rest ∧
        (state = .inParentheses ∨ char ≠ ',') ∧
        (next = .inParentheses → char = '(' ∨ state = .inParentheses ∧ char ≠ ')') := by
  cases state with
  | inParentheses =>
    right
    by_cases closing : char = ')'
    · exact ⟨.inDescriptor, by simp [tokenizeDescriptors, closing], by simp, by simp⟩
    · exact ⟨.inParentheses, by simp [tokenizeDescriptors, closing], by simp, by simp [closing]⟩
  | inDescriptor | afterDescriptor =>
    simp only [tokenizeDescriptors]
    split_ifs with space comma opening
    · refine .inr ⟨.afterDescriptor, rfl, .inr ?_, by simp⟩
      rintro rfl
      cases space
    · exact .inl ⟨by simp, comma, rfl⟩
    · exact .inr ⟨.inParentheses, rfl, .inr comma, fun _ => .inl opening⟩
    · exact .inr ⟨.inDescriptor, rfl, .inr comma, by simp⟩

/-- The scanner does not stop within what the standard takes for descriptors: at
every character it counts at least the parenthesis the standard is in. -/
theorem dropDescriptors_of_tokenizeDescriptors {state : DescriptorState} (input : List Char)
    (inside : state = .inParentheses → 0 < parentheses) :
    ∃ taken, input = taken ++ tokenizeDescriptors state input ∧
      (hasOuterComma parentheses taken = true → dropDescriptors parentheses taken = []) := by
  induction input generalizing state parentheses with
  | nil => exact ⟨[], rfl, fun _ => rfl⟩
  | cons char rest ih =>
    rcases tokenizeDescriptors_cons state char rest with
      ⟨-, rfl, stopped⟩ | ⟨next, stepped, passes, entered⟩
    · refine ⟨[','], by rw [stopped]; rfl, fun ends => ?_⟩
      rw [dropDescriptors_cons]
      split_ifs at ends ⊢
      · rfl
      · rfl
    · have deeper : next = .inParentheses → 0 < nesting parentheses char := by
        intro within
        rcases entered within with rfl | ⟨held, open_⟩
        · simp [nesting, u32Max]
        · have positive := inside held
          unfold nesting u32Max
          split_ifs <;> omega
      obtain ⟨taken, parts, emptied⟩ := ih deeper
      have goesOn : ¬(char = ',' ∧ parentheses = 0) := by
        rintro ⟨comma, outside⟩
        rcases passes with held | other
        · exact absurd (inside held) (by omega)
        · exact other comma
      refine ⟨char :: taken, by rw [stepped, cons_append, ← parts], ?_⟩
      rw [hasOuterComma_cons, dropDescriptors_cons, if_neg goesOn, if_neg goesOn]
      exact emptied

theorem dropDescriptors_of_whitespace {spaces : List Char}
    (blank : ∀ char ∈ spaces, isHtmlWhitespace char = true) (parentheses : Nat) (text : List Char) :
    dropDescriptors parentheses (spaces ++ text) = dropDescriptors parentheses text ∧
      hasOuterComma parentheses (spaces ++ text) = hasOuterComma parentheses text := by
  induction spaces with
  | nil => exact ⟨rfl, rfl⟩
  | cons char spaces ih =>
    have space := blank char mem_cons_self
    have others := ih fun other member =>
      blank other (mem_cons_of_mem char member)
    have comma : char ≠ ',' := by rintro rfl; cases space
    have opening : char ≠ '(' := by rintro rfl; cases space
    have closing : char ≠ ')' := by rintro rfl; cases space
    simpa [dropDescriptors, hasOuterComma, comma, opening, closing] using others

theorem standardSplitter_passOver (run rest : List Char) :
    ∃ taken, rest = taken ++ standardSplitter.passOver run rest ∧
      (hasOuterComma 0 taken = true → dropDescriptors 0 taken = []) := by
  unfold standardSplitter
  dsimp only
  split
  · exact ⟨[], rfl, fun _ => rfl⟩
  · obtain ⟨taken, parts, emptied⟩ := @dropDescriptors_of_tokenizeDescriptors 0 .inDescriptor
      (rest.dropWhile isHtmlWhitespace) (by simp)
    have blank := dropDescriptors_of_whitespace
      (fun _ member => mem_takeWhile_imp member :
        ∀ char ∈ rest.takeWhile isHtmlWhitespace, isHtmlWhitespace char = true) 0 taken
    refine ⟨rest.takeWhile isHtmlWhitespace ++ taken, ?_, ?_⟩
    · rw [append_assoc, ← parts, takeWhile_append_dropWhile]
    · rw [blank.1, blank.2]
      exact emptied

/-- Where the next candidate of the standard starts, and what the scanner makes of
the text up to there. -/
theorem dropDescriptors_of_gap {taken separators here : List Char}
    (emptied : hasOuterComma 0 taken = true → dropDescriptors 0 taken = [])
    (separate : ∀ char ∈ separators, isSeparator char = true) :
    (hasOuterComma 0 (taken ++ separators) = true →
      (dropDescriptors 0 (taken ++ separators ++ here)).dropWhile isSeparator =
        here.dropWhile isSeparator) ∧
    (hasOuterComma 0 (taken ++ separators) = false →
      ∃ depth, dropDescriptors 0 (taken ++ separators ++ here) = dropDescriptors depth here) := by
  constructor
  · intro ends
    have rest : ∃ left, left <:+ separators ∧
        dropDescriptors 0 (taken ++ separators ++ here) = left ++ here := by
      cases within : hasOuterComma 0 taken with
      | true =>
        refine ⟨separators, suffix_rfl, ?_⟩
        rw [append_assoc, dropDescriptors_of_hasOuterComma within, emptied within,
          nil_append]
      | false =>
        obtain ⟨depth, same⟩ := dropDescriptors_of_not_hasOuterComma within
        rw [(same separators).2] at ends
        refine ⟨dropDescriptors depth separators, dropDescriptors_suffix depth separators, ?_⟩
        rw [append_assoc, (same _).1, dropDescriptors_of_hasOuterComma ends]
    obtain ⟨left, suffix, same⟩ := rest
    rw [same]
    exact dropWhile_append_of_pos fun char member =>
      separate char (suffix.subset member)
  · intro passes
    obtain ⟨depth, same⟩ := dropDescriptors_of_not_hasOuterComma passes
    exact ⟨depth, (same here).1⟩

theorem takeWhile_isSeparator (input : List Char) :
    ∀ char ∈ input.takeWhile isSeparator, isSeparator char = true :=
  fun _ member => mem_takeWhile_imp member

theorem Candidate.gap_eq {candidate next : Candidate}
    (parts : afterRun candidate.here = text ++ next.here) : candidate.gap next = text := by
  rw [gap, parts, length_append, Nat.add_sub_cancel]
  exact take_left

/-- Without an outer comma before it, the scanner misses the next candidate of the
standard: what it finds instead, if anything, starts later. -/
theorem scan_misses {total : Nat} {input rest : List Char}
    (skipped : input.dropWhile isSeparator = char :: rest) (fits : size input ≤ total)
    (depth : Nat) : (standardSplitter.candidates input).map (Candidate.reference total) ≠
      (scanSplitter.candidates (dropDescriptors depth (char :: rest))).map
        (Candidate.reference total) := by
  have shorter : dropDescriptors depth (char :: rest) <:+ rest := by
    rw [dropDescriptors_cons]
    split
    · exact suffix_rfl
    · exact dropDescriptors_suffix _ rest
  have within : size (char :: rest) ≤ size input :=
    size_le_of_suffix (skipped ▸ dropWhile_suffix isSeparator)
  intro same
  rw [standardSplitter.candidates_of_here skipped (cons_ne_nil _ _)] at same
  cases found : scanSplitter.candidates (dropDescriptors depth (char :: rest)) with
  | nil =>
    rw [found] at same
    cases same
  | cons candidate others =>
    rw [found, map_cons, map_cons, List.cons.injEq] at same
    have later : size candidate.here ≤ size rest :=
      size_le_of_suffix ((Splitter.here_suffix_of_head scanSplitter
        (by rw [found]; rfl)).trans shorter)
    have start : total - size (char :: rest) = total - size candidate.here :=
      congrArg (fun reference => reference.range.start) same.1
    have wide := Char.utf8Size_pos char
    rw [size_cons] at start within
    omega

/-- Both ways of splitting find the same references exactly if every two candidates
of the standard are separated by a comma the scanner stops at. -/
theorem standard_eq_scan_iff {total : Nat} (input : List Char) (fits : size input ≤ total) :
    (standardSplitter.candidates input).map (Candidate.reference total) =
        (scanSplitter.candidates input).map (Candidate.reference total) ↔
      (standardSplitter.candidates input).IsChain fun candidate next =>
        hasOuterComma 0 (candidate.gap next) = true := by
  induction sized : input.length using Nat.strong_induction_on generalizing input with
  | _ length ih =>
  cases skipped : input.dropWhile isSeparator with
  | nil => simp [Splitter.candidates_of_nil _ skipped]
  | cons char rest =>
    have first := standardSplitter.candidates_of_here skipped (cons_ne_nil _ _)
    have second := scanSplitter.candidates_of_here skipped (cons_ne_nil _ _)
    obtain ⟨taken, parts, emptied⟩ := standardSplitter_passOver (urlRun (char :: rest))
      (afterRun (char :: rest))
    have suffix := standardSplitter.passOver_suffix skipped
    generalize standardSplitter.passOver (urlRun (char :: rest)) (afterRun (char :: rest)) =
      behind at first parts suffix
    have within : char :: rest <:+ input := skipped ▸ dropWhile_suffix isSeparator
    have reach : behind <:+ input := (suffix.trans (suffix_cons char rest)).trans within
    have joined : behind.takeWhile isSeparator ++ behind.dropWhile isSeparator = behind :=
      takeWhile_append_dropWhile
    have scanned := @dropDescriptors_of_gap _ _ (behind.dropWhile isSeparator) emptied
      (takeWhile_isSeparator behind)
    rw [append_assoc, joined, ← parts] at scanned
    rw [first, second]
    simp only [map_cons, List.cons.injEq, true_and]
    show _ = (scanSplitter.candidates (dropDescriptors 0 (afterRun (char :: rest)))).map _ ↔ _
    cases next : behind.dropWhile isSeparator with
    | nil =>
      have blank :
          (dropDescriptors 0 (afterRun (char :: rest))).dropWhile isSeparator = [] := by
        rw [next] at scanned
        cases ends : hasOuterComma 0 (taken ++ behind.takeWhile isSeparator) with
        | true => exact scanned.1 ends
        | false =>
          obtain ⟨depth, same⟩ := scanned.2 ends
          rw [same]
          rfl
      simp [Splitter.candidates_of_nil _ next, Splitter.candidates_of_nil _ blank]
    | cons nextChar nextRest =>
      have text : afterRun (char :: rest) =
          (taken ++ behind.takeWhile isSeparator) ++ (nextChar :: nextRest) := by
        rw [parts, append_assoc, ← next, joined]
      have tail := standardSplitter.candidates_of_here next (cons_ne_nil _ _)
      rw [tail, isChain_cons_cons, Candidate.gap_eq text, ← tail]
      have fitting : size behind ≤ total := (size_le_of_suffix reach).trans fits
      cases ends : hasOuterComma 0 (taken ++ behind.takeWhile isSeparator) with
      | true =>
        have same := scanned.1 ends
        rw [dropWhile_idempotent] at same
        rw [Splitter.candidates_congr scanSplitter same]
        have shorter : behind.length < length := by
          have longer := within.length_le
          have bound := suffix.length_le
          rw [length_cons] at longer
          omega
        simpa using ih behind.length shorter behind fitting rfl
      | false =>
        obtain ⟨depth, same⟩ := scanned.2 ends
        rw [same, next]
        simpa using scan_misses next fitting depth

/-- The scanner finds the candidate URLs of the HTML standard, in order and with their
ranges, exactly if every two of them are separated by a comma that stands behind the
white space after the first and outside parentheses that nest.  Every bound that
is no smaller than the attribute is no bound. -/
theorem srcsetReferencesBounded_standard_iff
    (srcset : List Char) (maximum : Nat) (unbounded : Text.size srcset ≤ maximum) :
    srcsetReferencesBounded srcset maximum = .ok (standardCandidates srcset) ↔
      CommaSeparated srcset := by
  have few : (srcsetCandidates srcset).length ≤ maximum :=
    calc (srcsetCandidates srcset).length
      _ = (scanSplitter.candidates srcset).length := List.length_map _
      _ ≤ srcset.length := scanSplitter.scanner.length_run_le srcset
      _ ≤ Text.size srcset := Text.length_le_size srcset
      _ ≤ maximum := unbounded
  rw [srcsetReferencesBounded_eq, if_pos few, Checked.ok.injEq, eq_comm]
  exact standard_eq_scan_iff srcset (Nat.le_refl _)

/-- Two candidates, the first with a descriptor in parentheses. -/
theorem srcsetReferencesBounded_standard_parentheses :
    srcsetReferencesBounded "a.png (1,2)x, b.png".toList 1000 =
        .ok [⟨"a.png".toList, ⟨0, 5⟩⟩, ⟨"b.png".toList, ⟨14, 19⟩⟩] ∧
      CommaSeparated "a.png (1,2)x, b.png".toList :=
  ⟨rfl, (srcsetReferencesBounded_standard_iff _ 1000 (by decide)).mp rfl⟩

/-- A URL that a comma follows directly: the scanner takes the next candidate for its
descriptors. -/
theorem srcsetReferencesBounded_loses_candidate :
    srcsetReferencesBounded "a.png, b.png".toList usizeMax =
        .ok [⟨"a.png".toList, ⟨0, 5⟩⟩] ∧
      standardCandidates "a.png, b.png".toList =
        [⟨"a.png".toList, ⟨0, 5⟩⟩, ⟨"b.png".toList, ⟨7, 12⟩⟩] :=
  ⟨rfl, rfl⟩

end Standard
end Offprint.Document
