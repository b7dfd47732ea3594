import Offprint.Artifact.Payload
import Offprint.Data.JsonCut

/-!
# Transaction journals

A journal snapshot says how far a transaction has come and what it needs to be
undone or finished.  Snapshots are stored as compact JSON.
-/

namespace Offprint.Artifact

open Data Model Json Option ArtifactFormat

def journalSchemaVersion : UInt32 := 2
def maximumJournalBytes : Nat := 64 * 1024
def maximumJournalFiles : Nat := 16
def maximumJournalVariants : Nat := 8
def transactionPrefix : String := "txn-"

inductive CommitMode where
  | entries
  | directorySwap
  deriving Repr, DecidableEq

inductive JournalPhase where
  | staging
  | prepared
  | mutating
  | rollingBack
  | committed
  deriving Repr, DecidableEq

structure JournalEntry where
  destinationName : String
  format : ArtifactFormat
  outputKind : OutputKind
  existed : Bool
  previousKind : Option OutputKind
  verification : FormatVerification
  directoryFiles : UInt64
  entrypoint : Option String
  deriving Repr, DecidableEq

structure TransactionJournal where
  schemaVersion : UInt32
  transactionId : String
  outputIdentity : String
  sequence : UInt32
  phase : JournalPhase
  mode : CommitMode
  entries : List JournalEntry
  deriving Repr, DecidableEq

def journalError (stage : ErrorStage) (message : String) : OffprintError :=
  .new "offprint.export.output" stage message

section Texts

def OutputKind.text : OutputKind → String
  | .file => "file"
  | .directory => "directory"

def OutputKind.ofText? (text : String) : Option OutputKind :=
  [OutputKind.file, .directory].find? fun kind => kind.text = text

def CommitMode.text : CommitMode → String
  | .entries => "entries"
  | .directorySwap => "directory-swap"

def CommitMode.ofText? (text : String) : Option CommitMode :=
  [CommitMode.entries, .directorySwap].find? fun mode => mode.text = text

def JournalPhase.text : JournalPhase → String
  | .staging => "staging"
  | .prepared => "prepared"
  | .mutating => "mutating"
  | .rollingBack => "rolling-back"
  | .committed => "committed"

def JournalPhase.ofText? (text : String) : Option JournalPhase :=
  [JournalPhase.staging, .prepared, .mutating, .rollingBack, .committed].find?
    fun phase => phase.text = text

def JournalPhase.debug : JournalPhase → String
  | .staging => "Staging"
  | .prepared => "Prepared"
  | .mutating => "Mutating"
  | .rollingBack => "RollingBack"
  | .committed => "Committed"

theorem OutputKind.ofText?_text (kind : OutputKind) : ofText? kind.text = some kind := by
  cases kind <;> rfl

theorem CommitMode.ofText?_text (mode : CommitMode) : ofText? mode.text = some mode := by
  cases mode <;> rfl

theorem JournalPhase.ofText?_text (phase : JournalPhase) : ofText? phase.text = some phase := by
  cases phase <;> rfl

end Texts

section Encode

def natural (value : Nat) : Json :=
  .number (.natural value)

def optional {α : Type} (encode : α → Json) : Option α → Json
  | some value => encode value
  | none => .null

def verificationToJson (verification : FormatVerification) : Json :=
  .object
    [("format", .string verification.format.text), ("bytes", natural verification.bytes.toNat),
     ("sha256", .string verification.sha256.toHex)]

def JournalEntry.toJson (entry : JournalEntry) : Json :=
  .object
    [("destinationName", .string entry.destinationName), ("format", .string entry.format.text),
     ("outputKind", .string entry.outputKind.text),
     ("existed", .bool entry.existed),
     ("previousKind", optional (fun kind => .string kind.text) entry.previousKind),
     ("verification", verificationToJson entry.verification),
     ("directoryFiles", natural entry.directoryFiles.toNat),
     ("entrypoint", optional .string entry.entrypoint)]

def TransactionJournal.toJson (journal : TransactionJournal) : Json :=
  .object
    [("schemaVersion", natural journal.schemaVersion.toNat),
     ("transactionId", .string journal.transactionId),
     ("outputIdentity", .string journal.outputIdentity),
     ("sequence", natural journal.sequence.toNat),
     ("phase", .string journal.phase.text),
     ("mode", .string journal.mode.text),
     ("entries", .array (journal.entries.map JournalEntry.toJson))]

def TransactionJournal.encode (journal : TransactionJournal) : List UInt8 :=
  Utf8.encode journal.toJson.render

end Encode

section Decode

/-- A required member of an object; a member given twice is an error. -/
def member (members : List (String × Json)) (key : String) : Option Json :=
  match members.filter fun pair => pair.1 = key with
  | [(_, value)] => some value
  | _ => none

/-- A member that may be left out, in which case it is null. -/
def optionalMember (members : List (String × Json)) (key : String) : Option Json :=
  match members.filter fun pair => pair.1 = key with
  | [] => some .null
  | [(_, value)] => some value
  | _ => none

def decodeString : Json → Option String
  | .string text => some text
  | _ => none

def decodeBool : Json → Option Bool
  | .bool value => some value
  | _ => none

def decodeUInt32 : Json → Option UInt32
  | .number (.natural value) => if value < 2 ^ 32 then some (UInt32.ofNat value) else none
  | _ => none

def decodeUInt64 : Json → Option UInt64
  | .number (.natural value) => if value < 2 ^ 64 then some (UInt64.ofNat value) else none
  | _ => none

def decodeOptional {α : Type} (decode : Json → Option α) : Json → Option (Option α)
  | .null => some none
  | value => (decode value).map some

def decodeKind (value : Json) : Option OutputKind :=
  decodeString value >>= OutputKind.ofText?

def decodeVerification : Json → Option FormatVerification
  | .object members => do
      guard (members.all fun pair => ["format", "bytes", "sha256"].contains pair.1)
      let format ← member members "format" >>= decodeString >>= ofText?
      let bytes ← member members "bytes" >>= decodeUInt64
      let sha256 ← member members "sha256" >>= decodeString >>= ContentDigest.ofHex?
      return ⟨format, bytes, sha256⟩
  | _ => none

def JournalEntry.ofJson? : Json → Option JournalEntry
  | .object members => do
      let destinationName ← member members "destinationName" >>= decodeString
      let format ← member members "format" >>= decodeString >>= ofText?
      let outputKind ← member members "outputKind" >>= decodeKind
      let existed ← member members "existed" >>= decodeBool
      let previousKind ← optionalMember members "previousKind" >>= decodeOptional decodeKind
      let verification ← member members "verification" >>= decodeVerification
      let directoryFiles ← member members "directoryFiles" >>= decodeUInt64
      let entrypoint ← optionalMember members "entrypoint" >>= decodeOptional decodeString
      return ⟨destinationName, format, outputKind, existed, previousKind, verification,
        directoryFiles, entrypoint⟩
  | _ => none

def decodeEntries : Json → Option (List JournalEntry)
  | .array elements => elements.mapM JournalEntry.ofJson?
  | _ => none

def TransactionJournal.ofJson? : Json → Option TransactionJournal
  | .object members => do
      let schemaVersion ← member members "schemaVersion" >>= decodeUInt32
      let transactionId ← member members "transactionId" >>= decodeString
      let outputIdentity ← member members "outputIdentity" >>= decodeString
      let sequence ← member members "sequence" >>= decodeUInt32
      let phase ← member members "phase" >>= decodeString >>= JournalPhase.ofText?
      let mode ← member members "mode" >>= decodeString >>= CommitMode.ofText?
      let entries ← member members "entries" >>= decodeEntries
      return ⟨schemaVersion, transactionId, outputIdentity, sequence, phase, mode, entries⟩
  | _ => none

def TransactionJournal.decode (bytes : List UInt8) : Option TransactionJournal :=
  Utf8.decode bytes >>= Json.read >>= TransactionJournal.ofJson?

end Decode

section RoundTrip

theorem decodeUInt32_natural (value : UInt32) :
    decodeUInt32 (natural value.toNat) = some value := by
  rw [natural, decodeUInt32, if_pos value.toNat_lt, UInt32.ofNat_toNat]

theorem decodeUInt64_natural (value : UInt64) :
    decodeUInt64 (natural value.toNat) = some value := by
  rw [natural, decodeUInt64, if_pos value.toNat_lt, UInt64.ofNat_toNat]

theorem decodeString_string (text : String) : decodeString (.string text) = some text :=
  rfl

theorem decodeKind_text (kind : OutputKind) : decodeKind (.string kind.text) = some kind :=
  OutputKind.ofText?_text kind

theorem decodeVerification_toJson (verification : FormatVerification) :
    decodeVerification (verificationToJson verification) = some verification := by
  simp [decodeVerification, verificationToJson, member, decodeString_string,
    decodeUInt64_natural, ofText?_text, ContentDigest.ofHex?_toHex]

theorem decodeOptional_kind (kind : Option OutputKind) :
    decodeOptional decodeKind (optional (fun kind => .string kind.text) kind) = some kind := by
  cases kind with
  | none => rfl
  | some kind => simp [optional, decodeOptional, decodeKind_text]

theorem decodeOptional_string (text : Option String) :
    decodeOptional decodeString (optional .string text) = some text := by
  cases text <;> rfl

variable (entries : List JournalEntry) (entry : JournalEntry)

theorem JournalEntry.ofJson?_toJson : ofJson? entry.toJson = some entry := by
  simp [ofJson?, toJson, member, optionalMember, decodeString_string, decodeBool,
    decodeUInt64_natural, decodeVerification_toJson, ofText?_text,
    decodeKind_text, decodeOptional_kind, decodeOptional_string]

theorem decodeEntries_toJson :
    decodeEntries (.array (entries.map JournalEntry.toJson)) = some entries := by
  rw [decodeEntries]
  induction entries with
  | nil => rfl
  | cons entry entries ih =>
    simp [JournalEntry.ofJson?_toJson, ih]

theorem TransactionJournal.ofJson?_toJson (journal : TransactionJournal) :
    ofJson? journal.toJson = some journal := by
  simp [ofJson?, toJson, member, decodeString_string, decodeUInt32_natural,
    decodeEntries_toJson, JournalPhase.ofText?_text, CommitMode.ofText?_text]

theorem JournalEntry.toJson_integral : entry.toJson.Integral := by
  cases kind : entry.previousKind <;> cases entrypoint : entry.entrypoint <;>
    simp [toJson, verificationToJson, natural, optional, kind, entrypoint, Integral,
      IntegralMembers]

theorem JournalEntry.toJson_depth : entry.toJson.depth = 2 := by
  cases kind : entry.previousKind <;> cases entrypoint : entry.entrypoint <;>
    simp [toJson, verificationToJson, natural, optional, kind, entrypoint, depth,
      membersDepth]

theorem entriesToJson_integral : IntegralElements (entries.map JournalEntry.toJson) := by
  induction entries with
  | nil => trivial
  | cons entry entries ih => exact ⟨entry.toJson_integral, ih⟩

theorem entriesToJson_depth : elementsDepth (entries.map JournalEntry.toJson) ≤ 2 := by
  induction entries with
  | nil => decide
  | cons entry entries ih =>
    simp only [List.map_cons, elementsDepth, entry.toJson_depth]
    omega

section

variable (journal : TransactionJournal)
include journal

theorem TransactionJournal.toJson_integral : journal.toJson.Integral := by
  simp [toJson, natural, Integral, IntegralMembers, entriesToJson_integral]

theorem TransactionJournal.toJson_depth : journal.toJson.depth ≤ maximumDepth := by
  have shallow := entriesToJson_depth journal.entries
  simp only [toJson, natural, depth, membersDepth, maximumDepth]
  omega

theorem TransactionJournal.decode_encode : decode journal.encode = some journal := by
  simp only [decode, encode, Utf8.decode_encode, bind_eq_bind, bind_some,
    read_render journal.toJson_integral journal.toJson_depth, ofJson?_toJson]

end

theorem TransactionJournal.decode_cut {journal : TransactionJournal} {cut missing : List UInt8}
    (parts : cut ++ missing = journal.encode) (proper : missing ≠ []) : decode cut = none := by
  rw [decode, bind_eq_bind, bind_eq_none_iff]
  intro value read
  rw [bind_eq_bind, bind_eq_some_iff] at read
  obtain ⟨text, decoded, textRead⟩ := read
  obtain ⟨rest, whole, encoded⟩ := Utf8.append_of_decode_cut parts decoded
  have cutText : rest ≠ [] := by
    rintro rfl
    exact proper encoded
  rw [read_cut journal.toJson_integral journal.toJson_depth whole.symm cutText] at textRead
  cases textRead

end RoundTrip
end Offprint.Artifact
