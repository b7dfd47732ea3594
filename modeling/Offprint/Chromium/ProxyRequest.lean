import Mathlib.Data.List.DropRight
import Offprint.Data.Utf8
import Offprint.Model.Error
import Offprint.Model.Url

/-!
# Requests of the validating proxy

The proxy reads a request head from the browser and forwards it in origin form.
The end of the head is searched once in all that was read, and once more behind
the request line, where a head without header lines no longer shows its end.
-/

namespace Offprint.Chromium

open Data Model List Utf8

def proxyError (message : String) : OffprintError :=
  .new "offprint.navigation.proxy" .navigation message

def maximumRequestHeadBytes : Nat := 64 * 1024

def crlf : List UInt8 := [13, 10]

/-- Where a pattern first occurs. -/
def windowPosition (pattern : List UInt8) : List UInt8 → Option Nat
  | [] => none
  | byte :: rest =>
    if pattern.isPrefixOf (byte :: rest) then some 0
    else (windowPosition pattern rest).map (· + 1)

def findHeaderEnd (bytes : List UInt8) : Option Nat :=
  (windowPosition (crlf ++ crlf) bytes).map (· + 4)

structure ProxyRequest where
  method : String
  target : String
  version : String
  remainder : List UInt8
  deriving DecidableEq

/-- The `White_Space` characters of Unicode. -/
def isWhitespace (char : Char) : Bool :=
  let code := char.toNat
  (9 ≤ code && code ≤ 13) || (0x2000 ≤ code && code ≤ 0x200a) ||
    [0x20, 0x85, 0xa0, 0x1680, 0x2028, 0x2029, 0x202f, 0x205f, 0x3000].contains code

def splitWhitespace (text : List Char) : List String :=
  ((text.splitOnP isWhitespace).filter (· ≠ [])).map String.ofList

def parseRequestHead (bytes : List UInt8) : Except OffprintError ProxyRequest :=
  match windowPosition crlf bytes with
  | none => .error (proxyError "proxy request line is incomplete")
  | some requestLineEnd =>
    match (decode (bytes.take requestLineEnd)).map splitWhitespace with
    | none => .error (proxyError "proxy request line is not UTF-8")
    | some [] => .error (proxyError "proxy request omitted its method")
    | some [_] => .error (proxyError "proxy request omitted its destination")
    | some [_, _] => .error (proxyError "proxy request used an unsupported HTTP version")
    | some (method :: target :: version :: more) =>
      if version ∉ ["HTTP/1.0", "HTTP/1.1"] then
        .error (proxyError "proxy request used an unsupported HTTP version")
      else if more ≠ [] then
        .error (proxyError "proxy request line has unexpected fields")
      else
        .ok ⟨method, target, version, bytes.drop (requestLineEnd + 2)⟩

/-- What one read from the browser gives; no bytes stand for the end of the stream. -/
inductive Read where
  | failed (cause : String)
  | data (bytes : List UInt8)

/-- Read until the head is complete. Also returns the reads that are left; when
they run out, the deadline passes. -/
def readRequestHead (bytes : List UInt8) : List Read → Except OffprintError ProxyRequest × List Read
  | [] => (.error (proxyError "proxy request head exceeded its deadline"), [])
  | .failed cause :: rest =>
    (.error (proxyError ("failed to read the proxy request: " ++ cause)), rest)
  | .data chunk :: rest =>
    if chunk = [] then
      (.error (proxyError "proxy client closed before sending a request"), rest)
    else if maximumRequestHeadBytes < bytes.length + chunk.length then
      (.error (proxyError "proxy request head exceeds the byte limit"), rest)
    else if (findHeaderEnd (bytes ++ chunk)).isSome then
      (parseRequestHead (bytes ++ chunk), rest)
    else
      readRequestHead (bytes ++ chunk) rest

/-- Lines with their line feeds. -/
def splitInclusive : List UInt8 → List (List UInt8)
  | [] => []
  | byte :: rest =>
    if byte = 10 then [byte] :: splitInclusive rest
    else match splitInclusive rest with
      | [] => [[byte]]
      | line :: lines => (byte :: line) :: lines

def trimAscii (bytes : List UInt8) : List UInt8 :=
  (bytes.dropWhile [32, 9, 10, 12, 13].contains).rdropWhile [32, 9, 10, 12, 13].contains

def lowercase (byte : UInt8) : UInt8 :=
  if 65 ≤ byte ∧ byte ≤ 90 then byte + 32 else byte

/-- The line is no header line of the connection between browser and proxy. -/
def isForwarded (line : List UInt8) : Bool :=
  let name := (trimAscii (line.takeWhile (· ≠ 58))).map lowercase
  name ≠ encode "connection".toList && name ≠ encode "proxy-connection".toList

def connectionClose : List UInt8 :=
  encode "Connection: close\r\n\r\n".toList

namespace ProxyRequest

variable (parse : String → Option Url)

def firstLine (request : ProxyRequest) : List UInt8 :=
  let path :=
    match parse request.target with
    | some url => (if url.path = "" then "/" else url.path) ++ url.query.elim "" ("?" ++ ·)
    | none => request.target
  encode (request.method ++ " " ++ path ++ " " ++ request.version ++ "\r\n").toList

def originForm (request : ProxyRequest) : List UInt8 :=
  let headerEnd := (findHeaderEnd request.remainder).getD request.remainder.length
  let lines := splitInclusive (request.remainder.take (headerEnd - 2))
  request.firstLine parse ++ (lines.filter isForwarded).flatten ++ connectionClose ++
    request.remainder.drop headerEnd

end ProxyRequest

/-! ## What is forwarded -/

/-- The request line, the block of header lines and what was read behind the head. -/
structure Head (received line block body : List UInt8) : Prop where
  parts : received = line ++ crlf ++ block ++ crlf ++ body
  line_ends : windowPosition crlf received = some line.length
  block_ends : windowPosition (crlf ++ crlf) received = some (line.length + block.length)

section Positions

variable {pattern bytes : List UInt8} {index count : Nat}

theorem windowPosition_drop (found : windowPosition pattern bytes = some (count + index)) :
    windowPosition pattern (bytes.drop count) = some index := by
  induction count generalizing bytes with
  | zero => simpa using found
  | succ count ih =>
    cases bytes with
    | nil => cases found
    | cons byte rest =>
      unfold windowPosition at found
      split at found
      · simp at found
        omega
      · obtain ⟨before, foundLater, same⟩ := Option.map_eq_some_iff.mp found
        obtain rfl : before = count + index := by omega
        exact ih foundLater

variable (found : windowPosition pattern bytes = some index)
include found

theorem isPrefixOf_drop : pattern <+: bytes.drop index := by
  have start := @windowPosition_drop pattern bytes 0 index found
  cases rest : bytes.drop index with
  | nil => simp [rest, windowPosition] at start
  | cons byte rest' =>
    rw [rest] at start
    unfold windowPosition at start
    split at start
    next isPrefix => exact isPrefixOf_iff_prefix.mp isPrefix
    next =>
      obtain ⟨before, -, positive⟩ := Option.map_eq_some_iff.mp start
      omega

theorem le_of_prefix (filled : pattern ≠ [])
    (also : pattern <+: bytes.drop count) : index ≤ count := by
  by_contra later
  obtain ⟨more, rfl⟩ := Nat.exists_eq_add_of_lt (Nat.lt_of_not_le later)
  have further := @windowPosition_drop pattern bytes (more + 1) count found
  cases rest : bytes.drop count with
  | nil => exact filled (prefix_nil.mp (rest ▸ also))
  | cons byte rest' =>
    rw [rest] at also further
    rw [windowPosition, if_pos ( isPrefixOf_iff_prefix.mpr also)] at further
    cases further

end Positions

theorem exists_of_readRequestHead {bytes : List UInt8} {reads rest : List Read}
    {request : ProxyRequest} (accepted : readRequestHead bytes reads = (.ok request, rest)) :
    ∃ consumed : List (List UInt8), reads = consumed.map .data ++ rest ∧
      (findHeaderEnd (bytes ++ consumed.flatten)).isSome = true ∧
      parseRequestHead (bytes ++ consumed.flatten) = .ok request := by
  induction reads generalizing bytes with
  | nil => cases accepted
  | cons read reads ih =>
    cases read with
    | failed cause => cases accepted
    | data chunk =>
      unfold readRequestHead at accepted
      split_ifs at accepted with empty large complete
      · cases accepted
      · cases accepted
      · obtain ⟨parsed, rfl⟩ := Prod.mk.inj accepted
        exact ⟨[chunk], rfl, by simpa using complete, by simpa using parsed⟩
      · obtain ⟨consumed, parts, ends, parsed⟩ := ih accepted
        refine ⟨chunk :: consumed, by simp [parts], ?_, ?_⟩
        · simpa using ends
        · simpa using parsed

theorem remainder_of_parseRequestHead {bytes : List UInt8} {request : ProxyRequest}
    (parsed : parseRequestHead bytes = .ok request) :
    ∃ index, windowPosition crlf bytes = some index ∧
      request.remainder = bytes.drop (index + 2) := by
  unfold parseRequestHead at parsed
  cases found : windowPosition crlf bytes with
  | none => simp [found] at parsed
  | some index =>
    rw [found] at parsed
    refine ⟨index, rfl, ?_⟩
    dsimp only at parsed
    split at parsed <;> try cases parsed
    split_ifs at parsed
    cases parsed
    rfl

/-- Behind the request line the head ends where it did, unless it ended there. -/
theorem exists_head {received : List UInt8} {index : Nat}
    (line : windowPosition crlf received = some index)
    (ends : (findHeaderEnd received).isSome = true) :
    ∃ block body, Head received (received.take index) block body ∧
      received.drop (index + 2) = block ++ crlf ++ body ∧
      (block = [] ∨
        block ≠ [] ∧ findHeaderEnd (received.drop (index + 2)) = some (block.length + 2)) := by
  obtain ⟨last, found⟩ : ∃ last, windowPosition (crlf ++ crlf) received = some last := by
    simpa [findHeaderEnd, Option.isSome_iff_exists] using ends
  obtain ⟨body, blank⟩ := isPrefixOf_drop found
  obtain ⟨remainder, behind⟩ := isPrefixOf_drop line
  have before : index ≤ last := le_of_prefix line (by decide) ⟨crlf ++ body, by simp [← blank]⟩
  have split : received = received.take index ++ (crlf ++ remainder) := by
    rw [behind, take_append_drop]
  have isRemainder : received.drop (index + 2) = remainder := by
    rw [← drop_drop, ← behind]
    rfl
  have length : (received.take index).length = index := by
    have short := congrArg List.length behind
    simp [crlf] at short ⊢
    omega
  obtain ⟨distance, rfl⟩ := Nat.exists_eq_add_of_le before
  rw [← drop_drop, ← behind] at blank
  match distance with
  | 0 =>
    obtain rfl : crlf ++ body = remainder := by simpa [crlf] using blank
    exact ⟨[], body, ⟨by simpa using split, by rw [length, line], by rw [length, found]; rfl⟩,
      isRemainder, .inl rfl⟩
  | 1 => simp [crlf] at blank
  | distance + 2 =>
    have rest : crlf ++ crlf ++ body = remainder.drop distance := by simpa [crlf] using blank
    have whole : remainder = remainder.take distance ++ crlf ++ crlf ++ body := by
      rw [append_assoc, append_assoc, ← append_assoc crlf, rest,
        take_append_drop]
    have short : (remainder.take distance ++ crlf).length = distance + 2 := by
      have lengths := congrArg List.length rest
      simp [crlf] at lengths ⊢
      omega
    refine ⟨remainder.take distance ++ crlf, body, ⟨?_, by rw [length, line], ?_⟩, ?_,
      .inr ⟨by simp [crlf], ?_⟩⟩
    · exact split.trans ((congrArg (fun rest => received.take index ++ (crlf ++ rest)) whole).trans
        (by simp))
    · rw [length, found, short]
    · rw [isRemainder]
      exact whole
    · rw [findHeaderEnd, @windowPosition_drop _ _ distance (index + 2)]
      · rw [short]
        rfl
      · rw [found]
        congr 1
        omega

/-- Where the end of the head is missed, its last line end is taken for a header line. -/
theorem exists_lines_of_blank (body : List UInt8) {count : Nat} (positive : 0 < count) :
    ∃ others, ((splitInclusive ((crlf ++ body).take count)).filter isForwarded).flatten =
      13 :: others := by
  match count with
  | 1 => exact ⟨[], rfl⟩
  | count + 2 =>
    have kept : isForwarded crlf = true := by decide
    have lines : splitInclusive ((crlf ++ body).take (count + 2)) =
        crlf :: splitInclusive (body.take count) := by
      simp [crlf, splitInclusive]
    rw [lines, filter_cons_of_pos kept]
    exact ⟨_, rfl⟩

/-- A request is forwarded as it was received, unless it has no header line and
bytes were read behind its head. -/
theorem originForm_forwards_iff (parse : String → Option Url) {reads rest : List Read}
    {request : ProxyRequest} (accepted : readRequestHead [] reads = (.ok request, rest)) :
    ∃ (consumed : List (List UInt8)) (line block body : List UInt8),
      reads = consumed.map .data ++ rest ∧ Head consumed.flatten line block body ∧
      (request.originForm parse =
          request.firstLine parse ++ ((splitInclusive block).filter isForwarded).flatten ++
            connectionClose ++ body ↔
        block ≠ [] ∨ body = []) := by
  obtain ⟨consumed, parts, ends, parsed⟩ := exists_of_readRequestHead accepted
  rw [List.nil_append] at ends parsed
  obtain ⟨index, found, remainder⟩ := remainder_of_parseRequestHead parsed
  obtain ⟨block, body, head, behind, position⟩ := exists_head found ends
  rw [behind] at remainder position
  refine ⟨consumed, _, block, body, parts, head, ?_⟩
  unfold ProxyRequest.originForm
  rw [remainder]
  rcases position with rfl | ⟨filled, position⟩
  · rw [List.nil_append]
    constructor
    · intro forwarded
      by_contra unended
      have filled : body ≠ [] := fun empty => unended (.inr empty)
      have positive : 0 < (findHeaderEnd (crlf ++ body)).getD (crlf ++ body).length - 2 := by
        have longer := List.length_pos_iff.mpr filled
        cases ended : findHeaderEnd (crlf ++ body) with
        | none =>
          simp [crlf]
          omega
        | some position =>
          obtain ⟨before, -, rfl⟩ := Option.map_eq_some_iff.mp ended
          simp
      obtain ⟨others, first⟩ := exists_lines_of_blank body positive
      simp only [first, List.append_assoc, List.append_cancel_left_eq] at forwarded
      have heads : some 13 = some (67 : UInt8) := congrArg List.head? forwarded
      exact absurd heads (by decide)
    · rintro (filled | rfl)
      · exact absurd rfl filled
      · have missed : findHeaderEnd crlf = none := by decide
        rw [List.append_nil, missed]
        simp [crlf, splitInclusive]
  · rw [position]
    simp [filled, crlf]

/-- A request without header lines, read together with one byte behind its head. -/
def headless : List UInt8 :=
  encode "GET / HTTP/1.1\r\n\r\nX".toList

theorem readRequestHead_headless :
    readRequestHead [] [.data headless] = (.ok ⟨"GET", "/", "HTTP/1.1", crlf ++ [88]⟩, []) := by
  have decoded : decode (headless.take 14) = some "GET / HTTP/1.1".toList := by
    rw [show headless.take 14 = encode "GET / HTTP/1.1".toList by decide, decode_encode]
  have parsed : parseRequestHead headless = .ok ⟨"GET", "/", "HTTP/1.1", crlf ++ [88]⟩ := by
    rw [parseRequestHead, show windowPosition crlf headless = some 14 by decide]
    simp only [decoded]
    rfl
  rw [readRequestHead, if_neg (by decide), if_neg (by decide), if_pos (by decide), nil_append,
    parsed]

theorem originForm_forwards_iff_headless :
    readRequestHead [] [.data headless] = (.ok ⟨"GET", "/", "HTTP/1.1", crlf ++ [88]⟩, []) ∧
    ∃ (consumed : List (List UInt8)) (line block body : List UInt8),
      [.data headless] = consumed.map Read.data ++ [] ∧ Head consumed.flatten line block body ∧
      (ProxyRequest.originForm (fun _ => none) ⟨"GET", "/", "HTTP/1.1", crlf ++ [88]⟩ =
          ProxyRequest.firstLine (fun _ => none) ⟨"GET", "/", "HTTP/1.1", crlf ++ [88]⟩ ++
            ((splitInclusive block).filter isForwarded).flatten ++ connectionClose ++ body ↔
        block ≠ [] ∨ body = []) :=
  ⟨readRequestHead_headless, originForm_forwards_iff _ readRequestHead_headless⟩

/-- The byte behind the head is lost, and the head ends with a bare carriage return. -/
theorem not_forwarded_headless :
    readRequestHead [] [.data headless] = (.ok ⟨"GET", "/", "HTTP/1.1", crlf ++ [88]⟩, []) ∧
    Head headless (encode "GET / HTTP/1.1".toList) [] [88] ∧
    ProxyRequest.originForm (fun _ => none) ⟨"GET", "/", "HTTP/1.1", crlf ++ [88]⟩ =
      encode "GET / HTTP/1.1\r\n\rConnection: close\r\n\r\n".toList := by
  refine ⟨readRequestHead_headless, ⟨?_, ?_, ?_⟩, ?_⟩ <;> decide

end Offprint.Chromium
