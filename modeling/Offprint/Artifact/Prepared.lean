import Offprint.Artifact.Pages
import Offprint.Artifact.Commit

/-!
# Prepared transactions

A prepared transaction is a staged one together with the file system its commit
starts from.  Everything later is said relative to it: the original of an output is
what stood at its destination then, and its replacement is what was staged for it.
-/

namespace Offprint.Artifact

open Data Effect Model JournalEntry OsString List FileSystem

/-- Neither path lies at or below the other. -/
def Apart (first second : Path) : Prop :=
  ¬ first <+: second ∧ ¬ second <+: first

variable {first second : Path}

theorem Apart.symm (apart : Apart first second) : Apart second first :=
  ⟨apart.2, apart.1⟩

theorem apart_of_diverging
    (base : Path) {first second : OsString} (differs : first ≠ second) (left right : Path) :
    Apart (base ++ first :: left) (base ++ second :: right) := by
  constructor
  · rw [prefix_append_right_inj, cons_prefix_cons]
    exact fun reaches => differs reaches.1
  · rw [prefix_append_right_inj, cons_prefix_cons]
    exact fun reaches => differs reaches.1.symm

theorem Apart.extend (apart : Apart first second) (rest : Path) : Apart first (second ++ rest) :=
  ⟨not_prefix_of_apart apart (prefix_append second rest),
    fun reaches => apart.2 ((prefix_append second rest).trans reaches)⟩

theorem entryName_injective {first second : Nat} (same : entryName first = entryName second) :
    first = second := by
  rw [entryName, entryName, utf8.injEq, String.append_right_inj] at same
  have digits := congrArg String.toList same
  rw [show toString first = first.repr from rfl, show toString second = second.repr from rfl,
    Nat.toList_repr, Nat.toList_repr] at digits
  rw [← @Nat.ofDigitChars_ten_toDigits first, digits, Nat.ofDigitChars_ten_toDigits]

theorem validateEntriesFrom_ok {names : List String} {entries : List JournalEntry}
    (valid : validateEntriesFrom names entries = .ok ()) :
    (entries.map destinationName).Nodup ∧
      ∀ entry ∈ entries, entry.destinationName ∉ names := by
  induction entries generalizing names with
  | nil => simp
  | cons entry entries ih =>
    rw [validateEntriesFrom] at valid
    split at valid
    · cases valid
    · next accepted =>
      cases metadata : validEntryMetadata entry with
      | error error =>
        rw [metadata] at valid
        cases valid
      | ok checked =>
        rw [metadata] at valid
        obtain ⟨distinct, fresh⟩ := ih valid
        have unseen : entry.destinationName ∉ names := by
          intro seen
          simp [seen] at accepted
        constructor
        · refine nodup_cons.mpr ⟨?_, distinct⟩
          intro again
          obtain ⟨other, member, same⟩ := mem_map.mp again
          exact fresh other member (same ▸ mem_cons_self)
        · intro other member
          rcases mem_cons.mp member with rfl | later
          · exact unseen
          · exact fun seen => fresh other later (mem_cons_of_mem _ seen)

/-- The pages of a transaction that has been staged. -/
def preparedPages : Pages := fun sequence =>
  if sequence = 0 then .full .staging else if sequence = 1 then .full .prepared else .absent

namespace TransactionPlan

variable (plan : TransactionPlan)

def destination (entry : JournalEntry) : Path :=
  plan.output ++ [.utf8 entry.destinationName]

def stagedOutput : Path :=
  plan.root ++ [.utf8 "staged-output"]

def staged (entry : JournalEntry) : Path :=
  plan.stagedOutput ++ [.utf8 entry.destinationName]

def previous : Path :=
  plan.root ++ [.utf8 "previous-output"]

def discardOutput : Path :=
  plan.root ++ [.utf8 "discard-output"]

/-- The entries with the numbers of their backups. -/
def slots : List (JournalEntry × Nat) :=
  plan.entries.zipIdx

section Apart

variable {plan}

theorem apart_output_root (left right : Path) : Apart (plan.output ++ left) (plan.root ++ right) :=
  apart_of_diverging [] (fun same => plan.space.apart (utf8.inj same)) left
    (.utf8 plan.name :: right)

theorem not_root_reaches_output {path : Path} (inside : plan.output <+: path) :
    ¬ plan.root <+: path := by
  have apart := @apart_output_root plan [] []
  rw [append_nil, append_nil] at apart
  exact not_prefix_of_apart apart.symm inside

variable (index : Nat) (entry : JournalEntry) {first second : JournalEntry}

theorem apart_destination_root (right : Path) :
    Apart (plan.destination entry) (plan.root ++ right) :=
  apart_output_root [.utf8 entry.destinationName] right

theorem apart_backups {first second : Nat} (differs : first ≠ second) :
    Apart (backupPath plan.root first) (backupPath plan.root second) := by
  have diverging := apart_of_diverging (plan.root ++ [.utf8 "backups"])
    (fun same => differs (entryName_injective same)) [] []
  simpa only [backupPath, append_assoc, cons_append, nil_append] using diverging

theorem apart_discards {first second : Nat} (differs : first ≠ second) :
    Apart (discardPath plan.root first) (discardPath plan.root second) := by
  have diverging := apart_of_diverging (plan.root ++ [.utf8 "discard"])
    (fun same => differs (entryName_injective same)) [] []
  simpa only [discardPath, append_assoc, cons_append, nil_append] using diverging

theorem apart_areas {first second : String} (differs : first ≠ second) (left right : Path) :
    Apart (plan.root ++ .utf8 first :: left) (plan.root ++ .utf8 second :: right) :=
  apart_of_diverging plan.root (fun same => differs (utf8.inj same)) left right

theorem staged_eq :
    plan.staged entry = plan.root ++ [.utf8 "staged-output", .utf8 entry.destinationName] := by
  rw [staged, stagedOutput, append_assoc]
  rfl

theorem root_reaches_staged {entry : JournalEntry} : plan.root <+: plan.staged entry := by
  rw [staged_eq]
  exact prefix_append _ _

theorem apart_destination_staged (first second : JournalEntry) :
    Apart (plan.destination first) (plan.staged second) := by
  rw [staged_eq]
  exact apart_destination_root first _

theorem apart_backup_staged : Apart (backupPath plan.root index) (plan.staged entry) := by
  rw [staged_eq]
  exact apart_areas (by decide) _ _

theorem apart_discard_staged : Apart (discardPath plan.root index) (plan.staged entry) := by
  rw [staged_eq]
  exact apart_areas (by decide) _ _

theorem slots_distinct {first second : JournalEntry × Nat} (member : first ∈ plan.slots)
    (other : second ∈ plan.slots) (differs : first ≠ second) :
    first.1.destinationName ≠ second.1.destinationName ∧ first.2 ≠ second.2 := by
  have located := mk_mem_zipIdx_iff_getElem?.mp member
  have otherLocated := mk_mem_zipIdx_iff_getElem?.mp other
  have indices : first.2 ≠ second.2 := by
    intro same
    rw [same, otherLocated, Option.some.injEq] at located
    exact differs (Prod.ext located.symm same)
  refine ⟨?_, indices⟩
  intro same
  have valid := plan.valid
  rw [validateEntries] at valid
  split at valid
  · cases valid
  · obtain ⟨distinct, _⟩ := validateEntriesFrom_ok valid
    rw [getElem?_eq_some_iff] at located otherLocated
    obtain ⟨bound, found⟩ := located
    obtain ⟨otherBound, otherFound⟩ := otherLocated
    have named : first.2 < (plan.entries.map destinationName).length := by
      simpa using bound
    have otherNamed : second.2 < (plan.entries.map destinationName).length := by
      simpa using otherBound
    have equal : (plan.entries.map destinationName)[first.2] =
        (plan.entries.map destinationName)[second.2] := by
      simp only [getElem_map, found, otherFound, same]
    exact indices (distinct.getElem_inj_iff.mp equal)

theorem mem_entries_of_slot {slot : JournalEntry × Nat} (member : slot ∈ plan.slots) :
    slot.1 ∈ plan.entries :=
  fst_mem_of_mem_zipIdx member

end Apart
end TransactionPlan

/-- A staged transaction, with the file system its commit starts from. -/
structure PreparedTransaction [Sha256] extends TransactionPlan where
  conflict : ConflictPolicy
  limits : ArtifactTransactionLimits
  files : Files
  housed : Housed toTransactionPlan files
  journaled : Journaled toTransactionPlan preparedPages files
  bare : ∀ child ∈ areaNames, child ≠ .utf8 "staged-output" →
    files.entry (toTransactionPlan.root ++ [child]) = none
  output_eq : files.entry toTransactionPlan.output = some .directory
  stagedOutput_eq : files.entry toTransactionPlan.stagedOutput = some .directory
  stagedNames : ∀ child, (files.entry (toTransactionPlan.stagedOutput ++ [child])).isSome ↔
    ∃ entry ∈ entries, child = .utf8 entry.destinationName
  accepted : ∀ entry ∈ entries,
    matchesEntry limits entry (files.subtree (toTransactionPlan.staged entry)) = true
  stagedKind : ∀ entry ∈ entries,
    match entry.outputKind with
    | .file => ∃ content, files.entry (toTransactionPlan.staged entry) = some (.file content)
    | .directory => files.entry (toTransactionPlan.staged entry) = some .directory
  existed_eq : ∀ entry ∈ entries,
    entry.existed = (files.entry (toTransactionPlan.destination entry)).isSome
  previousKind_eq : ∀ entry ∈ entries, ∀ found,
    files.entry (toTransactionPlan.destination entry) = some found →
    entry.previousKind = metadataKind found.metadata ∧ entry.previousKind.isSome
  replaces : conflict ≠ .replace → ∀ entry ∈ entries, entry.existed = false
  emptied : mode = .directorySwap →
    ∀ child, files.entry (toTransactionPlan.output ++ [child]) = none

namespace PreparedTransaction

variable [Sha256] (p : PreparedTransaction)

/-- What stood at a destination before the commit. -/
def original (entry : JournalEntry) : Files :=
  p.files.subtree (p.destination entry)

def payload (entry : JournalEntry) : Files :=
  p.files.subtree (p.staged entry)

section States

variable (fs : Files)

def IsOriginal (slot : JournalEntry × Nat) : Prop :=
  fs.subtree (p.destination slot.1) = p.original slot.1 ∧
    fs.entry (backupPath p.root slot.2) = none

def IsSaved (slot : JournalEntry × Nat) : Prop :=
  slot.1.existed = true ∧ fs.entry (p.destination slot.1) = none ∧
    fs.subtree (backupPath p.root slot.2) = p.original slot.1

def IsReplaced (slot : JournalEntry × Nat) : Prop :=
  fs.subtree (p.destination slot.1) = p.payload slot.1 ∧
    fs.entry (discardPath p.root slot.2) = none ∧
    if slot.1.existed then fs.subtree (backupPath p.root slot.2) = p.original slot.1
    else fs.entry (backupPath p.root slot.2) = none

def IsKnown (slot : JournalEntry × Nat) : Prop :=
  p.IsOriginal fs slot ∨ p.IsSaved fs slot ∨ p.IsReplaced fs slot

/-- Where a swap of the whole output directory stands. -/
inductive Swap where
  | untouched
  | moved
  | recreated
  | replaced

def SwapIs : Swap → Prop
  | .untouched => fs.subtree p.output = leaf .directory ∧ fs.entry p.previous = none
  | .moved => fs.entry p.output = none ∧ fs.subtree p.previous = leaf .directory
  | .recreated => fs.subtree p.output = leaf .directory ∧
      fs.subtree p.previous = leaf .directory
  | .replaced => fs.subtree p.output = p.files.subtree p.stagedOutput ∧
      fs.subtree p.previous = leaf .directory ∧ fs.entry p.discardOutput = none

/-- Outside the output and the transaction directory nothing has changed. -/
def Outside : Prop :=
  ∀ path, ¬ p.root <+: path → ¬ p.output <+: path → fs.entry path = p.files.entry path

/-- Inside the output nothing has changed but the destinations. -/
def Rest : Prop :=
  ∀ path, p.output <+: path → (∀ entry ∈ p.entries, ¬ p.destination entry <+: path) →
    fs.entry path = p.files.entry path

/-- The outputs, by slots or as a whole according to the mode. -/
def Outputs (slot : JournalEntry × Nat → Prop) (whole : Prop) (fs : Files) : Prop :=
  match p.mode with
  | .entries => p.Rest fs ∧ ∀ each ∈ p.slots, slot each
  | .directorySwap => whole

/-- The outputs somewhere between the originals and the replacements. -/
def Working : Prop :=
  p.Outside fs ∧ p.Outputs (p.IsKnown fs) (∃ swap, p.SwapIs fs swap) fs

def Restored : Prop :=
  p.Outside fs ∧ p.Outputs (p.IsOriginal fs) (p.SwapIs fs .untouched) fs

def Delivered : Prop :=
  p.Outside fs ∧ p.Outputs (fun slot => fs.subtree (p.destination slot.1) = p.payload slot.1)
    (fs.subtree p.output = p.files.subtree p.stagedOutput) fs

end States
end PreparedTransaction
end Offprint.Artifact
