import Mathlib.Data.List.Lex
import Mathlib.Data.List.Sort
import Offprint.Data.Utf8
import Offprint.Effect.FileOperations
import Offprint.Model.Error

/-!
# Durable file operations

Creating, renaming, linking and removing with the directory synchronisation the
transaction relies on.  Paths are relative to the parent of the output directory.
-/

namespace Offprint.Artifact

open Data Effect Model Utf8

/-- A file name: text, or bytes that are no text. -/
inductive OsString where
  | utf8 (text : String)
  | raw (bytes : List UInt8) (invalid : Utf8.decode bytes = none)
  deriving DecidableEq

namespace OsString

def toStr : OsString → Option String
  | utf8 text => some text
  | raw _ _ => none

def bytes : OsString → List UInt8
  | utf8 text => Utf8.encode text.toList
  | raw bytes _ => bytes

/-- Text for people; bytes outside ASCII in a name that is no text are replaced. -/
def display : OsString → String
  | utf8 text => text
  | raw bytes _ => String.ofList <| bytes.map fun byte =>
    if byte < 128 then Char.ofNat byte.toNat else Char.ofNat 0xfffd

def startsWith (name : OsString) (start : String) : Bool :=
  (Utf8.encode start.toList).isPrefixOf name.bytes

/-- The order of names: by their bytes. -/
def le (first second : OsString) : Prop :=
  first.bytes.map UInt8.toNat ≤ second.bytes.map UInt8.toNat

instance : DecidableRel le :=
  fun first second =>
    inferInstanceAs (Decidable (first.bytes.map UInt8.toNat ≤ second.bytes.map UInt8.toNat))

instance : Std.Total le where
  total first second := le_total (first.bytes.map UInt8.toNat) (second.bytes.map UInt8.toNat)

instance : IsTrans OsString le where
  trans _ _ _ early late := le_trans early late

theorem bytes_injective {first second : OsString} (same : first.bytes = second.bytes) :
    first = second := by
  cases first with
  | utf8 text =>
    cases second with
    | utf8 other =>
      have decoded := decode_encode text.toList
      rw [show encode text.toList = encode other.toList from same,
        decode_encode, Option.some.injEq] at decoded
      rw [String.toList_inj.mp decoded]
    | raw bytes invalid =>
      have decoded := decode_encode text.toList
      rw [show encode text.toList = bytes from same, invalid] at decoded
      cases decoded
  | raw bytes invalid =>
    cases second with
    | utf8 other =>
      have decoded := decode_encode other.toList
      rw [show encode other.toList = bytes from same.symm, invalid] at decoded
      cases decoded
    | raw others _ =>
      obtain rfl : bytes = others := same
      rfl

instance : Std.Antisymm le where
  antisymm first second early late := by
    apply bytes_injective
    have same := le_antisymm early late
    exact List.map_injective_iff.mpr (fun _ _ => UInt8.toNat_inj.mp) same

theorem le_refl (name : OsString) : le name name :=
  le_rfl

end OsString

def sortNames (names : List OsString) : List OsString :=
  names.insertionSort OsString.le

variable {names : List OsString}

theorem mem_sortNames {name : OsString} : name ∈ sortNames names ↔ name ∈ names :=
  List.mem_insertionSort OsString.le

theorem pairwise_sortNames (names : List OsString) : (sortNames names).Pairwise OsString.le :=
  List.pairwise_insertionSort OsString.le names

theorem nodup_sortNames (distinct : names.Nodup) : (sortNames names).Nodup :=
  (List.perm_insertionSort OsString.le names).nodup_iff.mpr distinct

abbrev Path : Type := List OsString
abbrev Files : Type := FileSystem OsString

abbrev Durable (α : Type) : Type :=
  Action (fileInterface OsString) OffprintError α

/-- One operation, its error put into words by the caller. -/
def perform (op : FileOp OsString) (wrap : IoError → OffprintError) : Durable op.Response :=
  ExceptT.mk ((fun result => result.mapError wrap) <$> op.program)

/-- One operation whose error the caller looks at. -/
def performIo (op : FileOp OsString) : Durable (Except IoError op.Response) :=
  ExceptT.lift op.program

def failIf (bad : Prop) [Decidable bad] (error : OffprintError) : Durable Unit :=
  if bad then throw error else return ()

def ioDetail (error : OffprintError) (cause : IoError) : OffprintError :=
  error.withDetail "ioKind" (.string cause.kind)

def ioError (stage : ErrorStage) (message : String) (cause : IoError) : OffprintError :=
  ioDetail (.new "offprint.export.output" stage (message ++ ": " ++ cause.message)) cause

/-- The directory a path lies in; the current directory above the root. -/
def parent (path : Path) : Path :=
  path.dropLast

section Operations

def syncDirectory (path : Path) (stage : ErrorStage) : Durable Unit :=
  perform (.syncDirectory path) (ioError stage "failed to synchronize an export directory")

def syncParent (path : Path) (stage : ErrorStage) : Durable Unit :=
  syncDirectory (parent path) stage

def createDirectory (path : Path) (stage : ErrorStage) : Durable Unit := do
  perform (.createDirectory path)
    (ioError stage "failed to create an export transaction directory")
  syncParent path stage
  syncDirectory path stage

def writeNewFile (path : Path) (bytes : List UInt8) (stage : ErrorStage) : Durable Unit := do
  perform (.createNew path) (ioError stage "failed to create an export transaction file")
  perform (.append path bytes) (ioError stage "failed to write an export transaction file")
  perform (.syncFile path) (ioError stage "failed to synchronize an export transaction file")
  syncParent path stage

inductive DurabilityOutcome where
  | synced
  | appliedWithSyncWarning
  deriving Repr, DecidableEq

def syncParents (source destination : Path) : Durable Unit := do
  syncDirectory (parent source) .commit
  if parent destination ≠ parent source then
    syncDirectory (parent destination) .commit

/-- Once the change has happened, a failed synchronisation is only a warning. -/
def confirm (sync : Durable Unit) : Durable DurabilityOutcome := do
  match ← sync.attempt with
  | .ok () => return .synced
  | .error _ => return .appliedWithSyncWarning

def durableRename (source destination : Path) : Durable DurabilityOutcome := do
  syncParents source destination
  perform (.rename source destination)
    (ioError .commit "failed to durably rename an export transaction path")
  confirm (syncParents source destination)

def durableHardLink (source destination : Path) : Durable DurabilityOutcome := do
  syncParents source destination
  perform (.hardLink source destination)
    (ioError .commit "failed to commit a verified file artifact format")
  confirm (syncDirectory (parent destination) .commit)

def removeDirectPath (path : Path) : Durable Unit := do
  let metadata ← perform (.metadata path)
    (ioError .commit "failed to inspect an export transaction path for removal")
  let failed := ioError .commit "failed to remove an export transaction path"
  match metadata.kind with
  | .symlink | .file => perform (.removeFile path) failed
  | .directory => perform (.removeAll path) failed
  | .special => throw (.new "offprint.export.output" .commit
      "export transaction cleanup found an unsupported filesystem entry")

def isJournalName (name : OsString) : Bool :=
  match name.toStr with
  | some text => "journal-".toList.isPrefixOf text.toList && ".json".toList.isSuffixOf text.toList
  | none => false

def removeJournal (root : Path) (name : OsString) : Durable Unit := do
  removeDirectPath (root ++ [name])
  syncDirectory root .commit

/-- Remove a transaction directory, its journal last. -/
def cleanupTransactionRoot (root : Path) : Durable Unit := do
  let names ← perform (.readDirectory root)
    (ioError .commit "failed to enumerate an export transaction directory")
  let journals := sortNames (names.filter isJournalName)
  let other := sortNames (names.filter fun name => !isJournalName name)
  other.forM fun name => removeDirectPath (root ++ [name])
  syncDirectory root .commit
  journals.forM (removeJournal root)
  perform (.removeDirectory root)
    (ioError .commit "failed to remove a completed export transaction directory")
  syncDirectory (parent root) .commit

end Operations
end Offprint.Artifact
