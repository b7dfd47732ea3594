import Offprint.Artifact.Staging
import Offprint.Effect.Interruption

/-!
# Crash atomicity

A process may die between any two operations of a commit.  Unless one of the originals
already has the content that replaces it, or the journal has no room left for the
rollback, a recovery then restores the output or completes it.
-/

namespace Offprint.Artifact

open Data Effect Model Environment PreparedTransaction FileSystem FileOp List Action Option

variable {entry : JournalEntry} {path : Path}

section Before

variable {fs : Files}

theorem exec_directMetadata {name : OsString} (directory : fs.entry path = some .directory)
    (direct : fs.entry (path ++ [name]) ≠ some .symlink) :
    (directMetadata (path ++ [name])).run.exec fs =
      (.ok ((fs.entry (path ++ [name])).map Entry.metadata), fs) := by
  have looked : (performIo (.metadata (path ++ [name]))).run.exec fs =
      (.ok (((metadata (path ++ [name])).run fs).map Prod.fst), fs) := by
    rw [performIo, ExceptT.run_lift, ← bind_pure_comp, Program.exec_bind, program,
      Program.operation, Program.exec_of_reads rfl]
    rfl
  unfold directMetadata
  rw [exec_run_bind_of_ok looked]
  cases located : fs.entry (path ++ [name]) with
  | none =>
    simp only [FileOp.run, located, missing_eq_notFound directory located []]
    rfl
  | some found =>
    simp only [FileOp.run, located, Except.map]
    rw [exec_run_bind_of_ok (exec_failIf ?_ _)]
    · rfl
    · cases found with
      | symlink => exact absurd located direct
      | file | directory | special => simp [Entry.metadata]

variable [Sha256] {p : PreparedTransaction}

theorem PreparedTransaction.direct (member : entry ∈ p.entries) :
    p.files.entry (p.destination entry) ≠ some .symlink := by
  intro located
  obtain ⟨kind, known⟩ := p.previousKind_eq entry member _ located
  rw [kind] at known
  cases known

theorem exec_recheckDestination (member : entry ∈ p.entries) :
    (recheckDestination p.space p.conflict (p.artifact entry)).run.exec p.files =
      (.ok (), p.files) := by
  have seen : (directMetadata (p.destination entry)).run.exec p.files = (.ok
      ((p.files.entry (p.destination entry)).map Entry.metadata), p.files) :=
    exec_directMetadata p.output_eq (p.direct member)
  have existed := p.existed_eq entry member
  have fresh : p.conflict ≠ .replace → p.files.entry (p.destination entry) = none := by
    intro differs
    rw [p.replaces differs entry member] at existed
    exact not_isSome_iff_eq_none.mp (by rw [← existed]; nofun)
  unfold recheckDestination PreparedTransaction.artifact
  rw [exec_run_bind_of_ok seen]
  cases conflict : p.conflict with
  | fail | uniquify =>
    rw [fresh (by rw [conflict]; nofun)]
    exact exec_failIf nofun _
  | replace =>
    have kind := p.previousKind_eq entry member
    rw [existed]
    cases located : p.files.entry (p.destination entry) with
    | none => rfl
    | some found =>
      obtain ⟨known, supported⟩ := kind found located
      rw [known] at supported
      obtain ⟨outputKind, is⟩ := isSome_iff_exists.mp supported
      simp only [isSome_some, map_some, is]
      refine exec_failIf ?_ _
      rw [known, is]
      exact not_not.mpr rfl

theorem exec_validateBeforeMutation (journal : JournalStore) :
    (validateBeforeMutation (p.request journal)).run.exec p.files = (.ok (), p.files) := by
  have staged : (validateStagedArtifacts p.artifacts p.limits).run.exec p.files =
      (.ok (), p.files) := by
    refine exec_forM_ok fun artifact membership => ?_
    obtain ⟨entry, member, rfl⟩ := mem_map.mp membership
    refine exec_validateEntryPath ?_ (p.accepted entry member)
    exact (congrArg _ dropLast_concat).trans p.stagedOutput_eq
  have unchanged : (recheckDestinations p.space p.conflict p.artifacts).run.exec p.files =
      (.ok (), p.files) := by
    refine exec_forM_ok fun artifact membership => ?_
    obtain ⟨entry, member, rfl⟩ := mem_map.mp membership
    exact exec_recheckDestination member
  unfold validateBeforeMutation request
  rw [exec_run_bind_of_ok staged, exec_run_bind_of_ok unchanged]
  cases mode : p.mode with
  | entries => rfl
  | directorySwap => exact exec_ensureEmpty p.output_eq (p.emptied mode)

end Before

section Death

/-- An operation that is not the middle of writing a file. -/
def Between (op : FileOp OsString) : Prop :=
  ∀ path bytes, op ≠ .append path bytes

variable {fs : Files}

theorem dies_perform {kind : FileOp OsString → Prop} {op : FileOp OsString}
    {wrap : IoError → OffprintError} (deadly : kind op) (progress : Nat) :
    (perform op wrap).run.DiesIn kind fs (op.interrupted progress fs) := by
  rw [perform, ExceptT.run_mk, ← bind_pure_comp]
  exact Program.DiesIn.bind (Program.dies_perform deadly progress) _

theorem dies_writeNewFile (absent : fs.entry path = none)
    (directory : fs.entry (parent path) = some .directory) (bytes : List UInt8) (stage : ErrorStage)
    :
    ∃ written, Added path (.file bytes) fs written ∧
      (writeNewFile path bytes stage).run.DiesIn Between fs written := by
  obtain ⟨created, begun, new⟩ := run_createNew absent directory
  obtain ⟨written, ended, complete⟩ := run_append bytes new.entry
  refine ⟨written, new.overwritten complete, ?_⟩
  have between : Between (.syncFile path) := fun _ _ => nofun
  refine dies_after (exec_perform_ok begun) (dies_after (exec_perform_ok ended) ?_)
  exact dies_bind (dies_perform between 0) _

variable [Sha256] {p : PreparedTransaction}

theorem dies_mutating (fits : p.fits .mutating 2) :
    ∃ crashed, p.transaction.commit.run.DiesIn Between p.files crashed ∧ Mutating p crashed ∧
      p.Restored crashed := by
  have absent : p.files.entry (p.root ++ [JournalStore.fileName 2]) = none :=
    p.journaled.page 2 (by decide)
  have directory : p.files.entry (parent (p.root ++ [JournalStore.fileName 2])) =
      some .directory := by
    rw [p.parent_child, p.journaled.directory]
  obtain ⟨written, new, dies⟩ :=
    dies_writeNewFile absent directory (p.snapshot .mutating 2).encode .commit
  have alike : Alike p p.files written := alike_of_page (by decide) new.same
  have restored := alike.kept.restored restored_files
  have journaled := p.journaled.write (by decide) new
    (show PageIs p.toTransactionPlan written 2 (.full .mutating) from ⟨new.entry, fits⟩)
  rw [update_preparedPages] at journaled
  refine ⟨written, ?_, ⟨journaled, restored.working, alike.bare (by decide) (by decide)⟩, restored⟩
  have validated : (validateBeforeMutation (p.request p.preparedStore)).attempt.run.exec p.files =
      (.ok (.ok ()), p.files) := by
    rw [exec_run_attempt, exec_validateBeforeMutation]
  refine dies_bind (dies_after validated (dies_bind (dies_attempt ?_) _)) _
  exact dies_after (exec_failIf (Nat.not_lt.mpr fits) _) (dies_bind dies _)

end Death

section Output

/-- The output directory is exactly as it was. -/
def SameOutput (space : TransactionNamespace) (before after : Files) : Prop :=
  ∀ path, space.outputDirectory <+: path → after.entry path = before.entry path

/-- Every destination holds what was staged for it, and the rest of the output is as it was. -/
def NewOutput (transaction : ArtifactTransaction) (before after : Files) : Prop :=
  (∀ artifact ∈ transaction.artifacts, ∀ rest,
    after.entry (artifact.destination ++ rest) = before.entry (artifact.stagedPath ++ rest)) ∧
  ∀ path, transaction.space.outputDirectory <+: path →
    (∀ artifact ∈ transaction.artifacts, ¬ artifact.destination <+: path) →
    after.entry path = before.entry path

variable [Sha256] {p : PreparedTransaction} {fs : Files}

theorem PreparedTransaction.entry_of_subtree
    {base place : Path} (same : fs.subtree place = p.files.subtree base) (rest : Path) :
    fs.entry (place ++ rest) = p.files.entry (base ++ rest) := by
  rw [← entry_subtree, same, entry_subtree]

theorem mem_slots_of_mem_entries (member : entry ∈ p.entries) :
    ∃ index, (entry, index) ∈ p.slots := by
  obtain ⟨index, bound, located⟩ := mem_iff_getElem.mp member
  exact ⟨index,
    mk_mem_zipIdx_iff_getElem?.mpr (List.getElem?_eq_some_iff.mpr ⟨bound, located⟩)⟩

theorem PreparedTransaction.Restored.sameOutput (restored : p.Restored fs) :
    SameOutput p.space p.files fs := by
  rintro path inside
  obtain ⟨_, outputs⟩ := restored
  unfold Outputs at outputs
  cases mode : p.mode with
  | entries =>
    rw [mode] at outputs
    obtain ⟨rest, slots⟩ := outputs
    by_cases below : ∃ entry ∈ p.entries, p.destination entry <+: path
    · obtain ⟨entry, member, remainder, rfl⟩ := below
      obtain ⟨index, slot⟩ := mem_slots_of_mem_entries member
      exact p.entry_of_subtree (slots _ slot).1 remainder
    · exact rest path inside fun entry member reaches => below ⟨entry, member, reaches⟩
  | directorySwap =>
    rw [mode] at outputs
    obtain ⟨remainder, rfl⟩ := inside
    refine p.entry_of_subtree (outputs.1.trans ?_) remainder
    exact (subtree_eq_leaf p.output_eq (p.emptied mode)).symm

theorem PreparedTransaction.Delivered.newOutput (delivered : p.Delivered fs) :
    NewOutput p.transaction p.files fs := by
  obtain ⟨_, outputs⟩ := delivered
  unfold Outputs at outputs
  cases mode : p.mode with
  | entries =>
    rw [mode] at outputs
    obtain ⟨rest, slots⟩ := outputs
    refine ⟨?_, ?_⟩
    · intro artifact membership remainder
      obtain ⟨entry, member, rfl⟩ := mem_map.mp membership
      obtain ⟨index, slot⟩ := mem_slots_of_mem_entries member
      exact p.entry_of_subtree (slots _ slot) remainder
    · intro path inside away
      exact rest path inside fun entry member => away _ (mem_map_of_mem member)
  | directorySwap =>
    rw [mode] at outputs
    have whole : ∀ remainder, fs.entry (p.output ++ remainder) =
        p.files.entry (p.stagedOutput ++ remainder) := p.entry_of_subtree outputs
    refine ⟨?_, ?_⟩
    · intro artifact membership remainder
      obtain ⟨entry, member, rfl⟩ := mem_map.mp membership
      have same := whole (.utf8 entry.destinationName :: remainder)
      exact same
    · intro path inside away
      obtain ⟨remainder, rfl⟩ := inside
      rw [show p.transaction.space.outputDirectory = p.output from rfl, whole remainder]
      cases remainder with
      | nil => rw [append_nil, append_nil, p.stagedOutput_eq, p.output_eq]
      | cons child remainder =>
        have unstaged : p.files.entry (p.stagedOutput ++ [child]) = none := by
          by_contra present
          rw [← ne_eq, ne_none_iff_isSome, p.stagedNames] at present
          obtain ⟨entry, member, rfl⟩ := present
          refine away _ (mem_map_of_mem member) ?_
          exact ⟨remainder, by simp [PreparedTransaction.artifact, TransactionPlan.destination,
            TransactionPlan.output, PreparedTransaction.transaction]⟩
        rw [append_cons, entry_append_eq_none unstaged, append_cons,
          entry_append_eq_none (p.emptied mode child)]

end Output

section Atomicity

variable [Sha256] (crash : Files → Prop) (transaction : ArtifactTransaction)
  {p : PreparedTransaction} {fs : Files} {pages : Pages}

/-- A recovery after a crash succeeds, leaves no transaction directory behind, and leaves the
output as it was or as it was to be. -/
def RecoversFrom (before crashed : Files) : Prop :=
  let outcome := (recoverPendingTransactions transaction.space transaction.limits).run.exec
    (recreateOutput transaction.space crashed)
  outcome.1 = .ok () ∧
    (∀ child, (outcome.2.entry (transaction.space.path ++ [child])).isSome → child = .utf8 "lock") ∧
    (SameOutput transaction.space before outcome.2 ∨ NewOutput transaction before outcome.2)

/-- No original has the content that is to replace it, and rolling back can be recorded. -/
def Revocable (before : Files) : Prop :=
  { transaction.journal.snapshot with
      phase := .rollingBack, sequence := 3 }.encode.length ≤ maximumJournalBytes ∧
    ∀ artifact ∈ transaction.artifacts, artifact.entry.existed = true →
      matchesEntry transaction.limits artifact.entry (before.subtree artifact.destination) = false

theorem PreparedTransaction.Outside.only_lock (outside : p.Outside fs)
    (gone : fs.entry p.root = none) (child : OsString)
    (present : (fs.entry (p.space.path ++ [child])).isSome) : child = .utf8 "lock" := by
  rcases outside.housed.alone child present with lock | rfl
  · exact lock
  · exact absurd gone (ne_none_iff_isSome.mpr present)

theorem Unfinished.recoversFrom_iff (unfinished : Unfinished p pages (recreateOutput p.space fs)) :
    RecoversFrom p.transaction p.files fs ↔ Live p pages (recreateOutput p.space fs) := by
  have reliable := @faultFree_reliable _ _ (fileInterface OsString)
  have promised : (recoverPendingTransactions p.space p.limits).run.wp
      (faultFree (fileInterface OsString))
      (fun result after => (result = .ok () ↔ Live p pages (recreateOutput p.space fs)) ∧
        (result = .ok () → after.entry p.root = none ∧ p.Restored after))
      (recreateOutput p.space fs) := by
    refine unfinished.wp_recover (fun _ _ _ allowed => allowed.elim)
      ⟨fun _ _ => trivial, ?_, ?_, ?_⟩
    · exact fun after _ _ _ _ => ⟨fun _ => trivial, fun unreliable => absurd reliable unreliable⟩
    · intro after _ gone restored live
      exact ⟨⟨fun _ => live reliable, fun _ => rfl⟩, fun _ => ⟨gone, restored⟩⟩
    · intro error after _ stuck
      exact ⟨⟨nofun, fun live => absurd live (stuck reliable)⟩, nofun⟩
  obtain ⟨succeeds, restores⟩ := Program.wp_exec promised fun _ stopped => stopped
  constructor
  · exact fun recovers => succeeds.mp recovers.1
  · intro live
    have success := succeeds.mpr live
    obtain ⟨gone, restored⟩ := restores success
    exact ⟨success, restored.1.only_lock gone, .inl restored.sameOutput⟩

theorem recoversFrom_of_gone (gone : fs.entry p.root = none) (restored : p.Restored fs) :
    RecoversFrom p.transaction p.files fs := by
  have promised : (recoverPendingTransactions p.space p.limits).run.wp
      (faultFree (fileInterface OsString))
      (fun result after => result = .ok () ∧ after = fs) (recreateOutput p.space fs) := by
    rw [restored.recreate]
    exact wp_recover_gone gone restored.1 safe_faultFree ⟨rfl, rfl⟩
  obtain ⟨success, same⟩ := Program.wp_exec promised fun _ stopped => stopped
  refine ⟨success, ?_⟩
  rw [show p.transaction.space = p.space from rfl, show p.transaction.limits = p.limits from rfl,
    same]
  exact ⟨restored.1.only_lock gone, .inl restored.sameOutput⟩

theorem Settled.recoversFrom (settled : Settled p fs) : RecoversFrom p.transaction p.files fs := by
  have promised : (recoverPendingTransactions p.space p.limits).run.wp
      (faultFree (fileInterface OsString))
      (fun result after => result = .ok () ∧ after.entry p.root = none ∧ p.Delivered after)
      (recreateOutput p.space fs) :=
    settled.recreate.wp_recover (fun _ _ => safe_faultFree)
      fun after gone delivered => ⟨rfl, gone, delivered⟩
  obtain ⟨success, gone, delivered⟩ := Program.wp_exec promised fun _ stopped => stopped
  exact ⟨success, delivered.1.only_lock gone, .inr delivered.newOutput⟩

theorem Cleaning.recoversFrom (cleaning : Cleaning p.root p.files fs) :
    RecoversFrom p.transaction p.files fs := by
  have restored := cleaning.kept.restored (@restored_files _ p)
  by_cases gone : fs.entry p.root = none
  · exact recoversFrom_of_gone gone restored
  · obtain ⟨part, journaled, within, readable⟩ := p.journaled.cleaned cleaning gone
    have idle : ¬ part.Mutated := by
      rintro (two | three)
      · rcases within 2 with same | same <;> rw [same] at two <;> cases two
      · rcases within 3 with same | same <;> rw [same] at three <;> cases three
    have unfinished : Unfinished p part (recreateOutput p.space fs) := by
      rw [restored.recreate]
      exact ⟨journaled, within.uncommitted uncommitted_preparedPages, restored.working,
        fun _ => restored⟩
    have intact : ∀ sequence ∈ sequences, preparedPages sequence ≠ .torn := by
      apply forall_sequences <;> decide
    refine unfinished.recoversFrom_iff.mpr ⟨?_, fun two => absurd (.inl two) idle,
      fun mutated => absurd mutated idle⟩
    intro unreadable
    rw [restored.recreate]
    rcases readable intact with same | bare
    · rw [same] at unreadable
      cases unreadable
    · exact bare

omit [Sha256] in
theorem entry_recreateOutput {space : TransactionNamespace}
    (outside : ¬ space.outputDirectory <+: path) :
    (recreateOutput space fs).entry path = fs.entry path := by
  unfold recreateOutput
  split
  · next done =>
    exact entry_of_run done fun place only => mem_singleton.mp only ▸ outside
  · rfl

theorem Mutating.recoversFrom (mutating : Mutating p fs)
    (revocable : Revocable p.transaction p.files) : RecoversFrom p.transaction p.files fs := by
  obtain ⟨fits, differs⟩ := revocable
  refine mutating.unfinished.recreate.recoversFrom_iff.mpr ⟨nofun, fun _ => .inr ⟨rfl, fits⟩, ?_⟩
  intro _
  unfold Undoable
  cases p.mode with
  | entries =>
    rintro slot member ⟨_, existed, same⟩
    have other := differs _ (mem_map_of_mem (TransactionPlan.mem_entries_of_slot member))
      existed
    exact absurd same (Bool.eq_false_iff.mp other)
  | directorySwap =>
    rintro ⟨_, _, crowded⟩
    have outside : ¬ p.output <+: p.discardOutput := by
      have apart := @TransactionPlan.apart_output_root p.toTransactionPlan []
        [.utf8 "discard-output"]
      exact apart.1
    rw [entry_recreateOutput outside, mutating.fresh] at crowded
    cases crowded

theorem Mutating.revocable (mutating : Mutating p fs) (restored : p.Restored fs)
    (recovers : RecoversFrom p.transaction p.files fs) : Revocable p.transaction p.files := by
  obtain ⟨_, room, undoable⟩ := mutating.unfinished.recreate.recoversFrom_iff.mp recovers
  rw [restored.recreate] at undoable
  refine ⟨?_, ?_⟩
  · rcases room rfl with begun | ⟨_, fits⟩
    · cases begun
    · exact fits
  · intro artifact membership existed
    obtain ⟨entry, member, rfl⟩ := mem_map.mp membership
    have possible := undoable (.inl rfl)
    unfold Undoable at possible
    cases mode : p.mode with
    | entries =>
      rw [mode] at possible
      obtain ⟨index, slot⟩ := mem_slots_of_mem_entries member
      have original := ((restored_entries_iff mode).mp restored).2.2 _ slot
      by_contra same
      exact possible _ slot ⟨original, existed, Bool.not_eq_false _ ▸ same⟩
    | directorySwap =>
      have absent := p.existed_eq entry member
      rw [show p.destination entry = p.output ++ [.utf8 entry.destinationName] from rfl,
        p.emptied mode] at absent
      exact absurd (existed.symm.trans absent) nofun

/-- The environment in which a process may only die, and only between two operations. -/
def crashOnly (crash : Files → Prop) : Environment (fileInterface OsString) where
  allowed op event := (∃ progress, event = .crash progress) ∧ Between op
  stop _ := False
  crash := crash

omit [Sha256] in
theorem crashOnly_reliable : (crashOnly crash).Reliable := by
  rintro op error progress ⟨⟨_, same⟩, _⟩
  cases same

omit [Sha256] in
theorem not_disturbed_crashOnly : ¬ Disturbed (crashOnly crash) noFault := by
  rintro (unreliable | ⟨path, bytes, progress, _, between⟩ | ⟨point, injected⟩)
  · exact unreliable (crashOnly_reliable crash)
  · exact between path bytes rfl
  · exact injected rfl

theorem wp_commit_crashOnly : p.transaction.commit.run.wp
      (crashOnly fun fs => Cleaning p.root p.files fs ∨ Mutating p fs ∨ Settled p fs)
      (fun _ _ => True) p.files := by
  refine wp_bind (wp_recordCommit ?_ ?_ ?_ ?_)
  · rintro op error progress ⟨⟨_, same⟩, _⟩
    cases same
  · rintro fs (cleaning | mutating | ⟨disturbed, _⟩)
    · exact .inl cleaning
    · exact .inr (.inl mutating)
    · exact absurd disturbed (not_disturbed_crashOnly _)
  · intro fs journaled delivered
    have settled := settled_of_journaled journaled delivered
    refine .inr ⟨.inr (.inr settled), ?_, fun _ _ _ => trivial⟩
    exact wp_finishCommit journaled delivered (fun _ settled => .inr (.inr settled))
      (fun _ _ _ => trivial) fun _ _ _ _ => trivial
  · exact fun _ _ _ _ => trivial

/-- A commit that is killed between two operations leaves something that a recovery restores or
completes, for every point at which it may be killed, exactly if it never records that it changes
outputs or what it changes is revocable. -/
theorem recoversFrom_every_crash_iff
    {space : TransactionNamespace} {conflict : ConflictPolicy} {prepared : List PreparedArtifact}
    {limits : ArtifactTransactionLimits} {drawn : String} {initial before : Files}
    {transaction : ArtifactTransaction}
    (staged : (ArtifactTransaction.stage space conflict prepared limits drawn).run.exec initial =
      (.ok transaction, before)) :
    (∀ crashed, transaction.commit.run.DiesIn Between before crashed →
      RecoversFrom transaction before crashed) ↔
    ({ transaction.journal.snapshot with
        phase := .mutating, sequence := 2 }.encode.length ≤ maximumJournalBytes →
      Revocable transaction before) := by
  obtain ⟨p, rfl, rfl⟩ := prepared_of_stage staged
  constructor
  · intro recovers fits
    obtain ⟨crashed, dies, mutating, restored⟩ := dies_mutating fits
    exact mutating.revocable restored (recovers crashed dies)
  · rintro revocable crashed ⟨schedule, ended, deadly⟩
    have promised := Program.wp_run_of_never_stops wp_commit_crashOnly (fun _ stopped => stopped)
      schedule deadly
    rw [ended] at promised
    rcases promised with cleaning | mutating | settled
    · exact cleaning.recoversFrom
    · obtain ⟨_, fits⟩ := mutating.journaled.page 2 (by decide)
      exact mutating.recoversFrom (revocable fits)
    · exact settled.recoversFrom

end Atomicity

section Sample

theorem parents_of_keys (entries : List (Path × Entry))
    (found : ∀ key ∈ entries.map Prod.fst,
      key = [] ∨ entries.lookup key.dropLast = some .directory) :
    ∀ path name,
      (entries.lookup (path ++ [name])).isSome → entries.lookup path = some .directory := by
  intro path name present
  rw [lookup_isSome_iff_mem_keys] at present
  simpa using found _ present

def sampleDigest (size : Nat) : ContentDigest :=
  ⟨List.replicate 32 (UInt8.ofNat size), by simp⟩

/-- A digest that tells contents apart by their length. -/
@[reducible]
def sampleSha256 : Sha256 :=
  ⟨fun bytes => sampleDigest bytes.length⟩

attribute [local instance] sampleSha256

def sampleSpace : TransactionNamespace :=
  ⟨"/srv", "out", "0", by decide⟩

def sampleLimits : ArtifactTransactionLimits :=
  ⟨10, 1000⟩

/-- An output directory that holds one file. -/
def sampleFiles (content : List UInt8) : Files where
  entries := [([], .directory), ([.utf8 "out"], .directory),
    ([.utf8 "out", .utf8 "page.html"], .file content)]
  distinct := by simp
  parents := by
    apply parents_of_keys
    intro key member
    simp only [List.map_cons, List.map_nil, List.mem_cons, List.not_mem_nil, or_false] at member
    rcases member with rfl | rfl | rfl
    · exact Or.inl rfl
    · exact Or.inr rfl
    · exact Or.inr rfl

def sampleArtifact (byte : UInt8) : PreparedArtifact :=
  ⟨"page.html", .file [byte], ⟨.html, 1, sampleDigest 1⟩, by decide, rfl, rfl⟩

def sampleStage (content : List UInt8) (byte : UInt8) : Except OffprintError ArtifactTransaction ×
    Files :=
  (ArtifactTransaction.stage sampleSpace .replace [sampleArtifact byte] sampleLimits "0").run.exec
    (sampleFiles content)

/-- What a check finds out about a staged transaction. -/
def stagedAnd (outcome : Except OffprintError ArtifactTransaction × Files)
    (check : ArtifactTransaction → Files → Bool) : Bool :=
  match outcome with
  | (.ok transaction, before) => check transaction before
  | _ => false

theorem exists_of_stagedAnd {outcome : Except OffprintError ArtifactTransaction × Files}
    {check : ArtifactTransaction → Files → Bool} (passes : stagedAnd outcome check = true) :
    ∃ transaction before, outcome = (.ok transaction, before) ∧
      check transaction before = true := by
  rcases outcome with ⟨result, before⟩
  cases result with
  | ok transaction => exact ⟨transaction, before, rfl, passes⟩
  | error error => cases passes

theorem staged_longer_file :
    ∃ transaction before, sampleStage [1, 2] 3 = (.ok transaction, before) ∧
      { transaction.journal.snapshot with
        phase := .mutating, sequence := 2 }.encode.length ≤ maximumJournalBytes := by
  have passes : stagedAnd (sampleStage [1, 2] 3) (fun transaction _ =>
      { transaction.journal.snapshot with
        phase := .mutating, sequence := 2 }.encode.length ≤ maximumJournalBytes) = true := by
    decide +kernel
  obtain ⟨transaction, before, staged, fits⟩ := exists_of_stagedAnd passes
  exact ⟨transaction, before, staged, of_decide_eq_true fits⟩

/-- A replacement of other content can be killed anywhere. -/
theorem recoversFrom_every_crash_of_longer_file :
    ∃ transaction before, sampleStage [1, 2] 3 = (.ok transaction, before) ∧
      ((∀ crashed, transaction.commit.run.DiesIn Between before crashed →
        RecoversFrom transaction before crashed) ↔
      ({ transaction.journal.snapshot with
          phase := .mutating, sequence := 2 }.encode.length ≤ maximumJournalBytes →
        Revocable transaction before)) := by
  obtain ⟨transaction, before, staged, _⟩ := staged_longer_file
  exact ⟨transaction, before, staged, recoversFrom_every_crash_iff staged⟩

/-- A replacement of a file by one that matches it cannot be killed once it has recorded that
it is about to change the output. -/
theorem not_recoversFrom_crash_of_matching_file :
    ∃ transaction before crashed, sampleStage [1] 2 = (.ok transaction, before) ∧
      transaction.commit.run.DiesIn Between before crashed ∧
      ¬ RecoversFrom transaction before crashed := by
  have passes : stagedAnd (sampleStage [1] 2) (fun transaction before =>
      decide ({ transaction.journal.snapshot with
        phase := .mutating, sequence := 2 }.encode.length ≤ maximumJournalBytes) &&
      transaction.artifacts.any fun artifact => artifact.entry.existed &&
        matchesEntry transaction.limits artifact.entry
          (before.subtree artifact.destination)) = true := by
    decide +kernel
  obtain ⟨transaction, before, staged, found⟩ := exists_of_stagedAnd passes
  obtain ⟨p, rfl, rfl⟩ := prepared_of_stage staged
  rw [Bool.and_eq_true, decide_eq_true_eq, List.any_eq_true] at found
  obtain ⟨fits, artifact, member, same⟩ := found
  rw [Bool.and_eq_true] at same
  obtain ⟨crashed, dies, mutating, restored⟩ := dies_mutating fits
  refine ⟨_, _, crashed, staged, dies, fun recovers => ?_⟩
  have differs := (mutating.revocable restored recovers).2 artifact member same.1
  rw [same.2] at differs
  cases differs

end Sample
end Offprint.Artifact
