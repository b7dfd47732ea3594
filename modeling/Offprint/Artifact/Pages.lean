import Offprint.Artifact.Cleanup
import Offprint.Artifact.Locality

/-!
# The pages of a transaction journal

A transaction writes at most four snapshots, each to a file of its own.  `Pages`
says what has become of every one of them, and `Journaled` that a transaction
directory holds those pages and nothing but the areas the transaction works in.
-/

namespace Offprint.Artifact

open Data Effect Model JournalStore Action FileOp OsString FileSystem TransactionJournal List

structure TransactionPlan where
  space : TransactionNamespace
  drawn : String
  mode : CommitMode
  entries : List JournalEntry
  valid : validateEntries entries = .ok ()

namespace TransactionPlan

variable (plan : TransactionPlan)

def name : String :=
  transactionPrefix ++ plan.drawn

def output : Path :=
  plan.space.outputDirectory

def root : Path :=
  plan.space.path ++ [.utf8 plan.name]

def snapshot (phase : JournalPhase) (sequence : UInt32) : TransactionJournal :=
  ⟨journalSchemaVersion, plan.name, plan.space.identity, sequence, phase, plan.mode, plan.entries⟩

def fits (phase : JournalPhase) (sequence : UInt32) : Prop :=
  (plan.snapshot phase sequence).encode.length ≤ maximumJournalBytes

theorem root_ne_nil : plan.root ≠ [] := by
  simp [root]

theorem parent_child (child : OsString) : parent (plan.root ++ [child]) = plan.root :=
  dropLast_concat

end TransactionPlan

section Names

def sequences : List UInt32 :=
  [0, 1, 2, 3]

theorem forall_sequences {holds : UInt32 → Prop} (zero : holds 0) (one : holds 1) (two : holds 2)
    (three : holds 3) : ∀ sequence ∈ sequences, holds sequence := by
  simp [sequences, zero, one, two, three]

/-- The names of the journal files, in their order. -/
def journalNames : List OsString :=
  sequences.map JournalStore.fileName

/-- The names of the directories a transaction works in. -/
def areaNames : List OsString :=
  [.utf8 "staged-output", .utf8 "backups", .utf8 "discard", .utf8 "previous-output",
    .utf8 "discard-output"]

theorem isJournalName_of_mem_journalNames : ∀ name ∈ journalNames, isJournalName name = true := by
  decide

theorem isJournalName_of_mem_areaNames : ∀ name ∈ areaNames, isJournalName name = false := by
  decide

theorem not_journal_of_area : ∀ name ∈ areaNames, name ∉ journalNames := by
  decide

theorem pairwise_journalNames : journalNames.Pairwise le := by
  decide

theorem nodup_journalNames : journalNames.Nodup := by
  decide

theorem fileSequence_fileName :
    ∀ sequence ∈ sequences,
      fileSequence (fileName sequence) = some sequence := by
  apply forall_sequences <;> decide

theorem fileName_inj :
    ∀ first ∈ sequences, ∀ second ∈ sequences,
      fileName first = fileName second → first = second := by
  apply forall_sequences <;> apply forall_sequences <;> decide

end Names

section Page

inductive Page where
  | absent
  | torn
  | full (phase : JournalPhase)
  deriving DecidableEq

abbrev Pages : Type := UInt32 → Page

/-- A page that can be read, and otherwise what was found before it. -/
def Page.orElse (page : Page) (sequence : UInt32)
    (earlier : Option (JournalPhase × UInt32)) : Option (JournalPhase × UInt32) :=
  match page with
  | .full phase => some (phase, sequence)
  | _ => earlier

def Pages.latest (pages : Pages) : Option (JournalPhase × UInt32) :=
  (pages 3).orElse 3 ((pages 2).orElse 2 ((pages 1).orElse 1 ((pages 0).orElse 0 none)))

variable (plan : TransactionPlan)

def PageIs (fs : Files) (sequence : UInt32) : Page → Prop
  | .absent => fs.entry (plan.root ++ [JournalStore.fileName sequence]) = none
  | .torn => ∃ bytes, fs.entry (plan.root ++ [JournalStore.fileName sequence]) =
      some (.file bytes) ∧
        acceptSnapshot plan.root plan.space.identity (JournalStore.fileName sequence) bytes = none
  | .full phase => fs.entry (plan.root ++ [JournalStore.fileName sequence]) =
      some (.file (plan.snapshot phase sequence).encode) ∧ plan.fits phase sequence

structure Journaled (pages : Pages) (fs : Files) : Prop where
  directory : fs.entry plan.root = some .directory
  above : fs.entry plan.space.path = some .directory
  known : ∀ child, (fs.entry (plan.root ++ [child])).isSome →
    child ∈ journalNames ∨ child ∈ areaNames
  area : ∀ child ∈ areaNames, fs.entry (plan.root ++ [child]) = none ∨
    fs.entry (plan.root ++ [child]) = some .directory
  page : ∀ sequence ∈ sequences, PageIs plan fs sequence (pages sequence)

variable {plan}

theorem getLast_root : (plan.root.getLast? >>= toStr) = some plan.name := by
  simp [TransactionPlan.root, toStr]

theorem acceptSnapshot_encode {phase : JournalPhase} {sequence : UInt32}
    (fits : plan.fits phase sequence) (small : sequence ∈ sequences) :
    acceptSnapshot plan.root plan.space.identity (fileName sequence)
      (plan.snapshot phase sequence).encode = some (plan.snapshot phase sequence) := by
  have bounded : (plan.snapshot phase sequence).encode.length ≤ maximumJournalBytes := fits
  have entriesOk : (validateEntries plan.entries).isOk = true := by rw [plan.valid]; rfl
  rw [acceptSnapshot, guard, if_pos bounded]
  simp [decode_encode, TransactionPlan.snapshot, getLast_root, entriesOk,
    fileSequence_fileName sequence small, guard]

theorem acceptSnapshot_cut {journal : TransactionJournal} {name : OsString} {progress : Nat}
    (proper : progress < journal.encode.length) :
    acceptSnapshot plan.root plan.space.identity name (journal.encode.take progress) = none := by
  have unread : decode (journal.encode.take progress) = none := by
    apply decode_cut (take_append_drop progress journal.encode)
    intro nothing
    rw [drop_eq_nil_iff] at nothing
    omega
  simp [acceptSnapshot, unread]

end Page

variable {E : Environment (fileInterface OsString)} {bytes : List UInt8}

section Load

variable {plan : TransactionPlan} {fs : Files} {sequence : UInt32} {page : Page}

theorem strict_loadSnapshot (root : Path) (outputIdentity : String)
    (current : Option TransactionJournal) (name : OsString) :
    (loadSnapshot root outputIdentity current name).run.Strict := by
  refine strict_bind (strict_perform rfl _) fun metadata => ?_
  split
  · exact strict_pure current
  · unfold readSnapshot
    refine strict_bind (strict_perform rfl _) fun _ => ?_
    refine strict_bind (strict_perform rfl _) fun bytes => ?_
    split <;> exact strict_pure _

theorem strict_loadLatestJournal (root : Path) (outputIdentity : String) :
    (loadLatestJournal root outputIdentity).run.Strict := by
  refine strict_bind (strict_perform rfl _) fun names => ?_
  refine strict_bind (strict_failIf _ _) fun _ => ?_
  exact strict_foldlM (strict_loadSnapshot root outputIdentity) _ _

/-- What the loader holds after it has looked at a page. -/
def Page.advance (plan : TransactionPlan) (sequence : UInt32) (page : Page)
    (current : Option TransactionJournal) : Option TransactionJournal :=
  match page with
  | .full phase => some (latest current (plan.snapshot phase sequence))
  | _ => current

theorem exec_loadSnapshot_file {root : Path} {name : OsString}
    (located : fs.entry (root ++ [name]) = some (.file bytes)) (outputIdentity : String)
    (current : Option TransactionJournal) :
    (loadSnapshot root outputIdentity current name).run.exec fs =
      (.ok (if bytes.length > maximumJournalBytes then current
        else match acceptSnapshot root outputIdentity name bytes with
          | some snapshot => some (latest current snapshot)
          | none => current), fs) := by
  have opened : (openFile (root ++ [name])).run fs = .ok ((), fs) := by
    simp only [FileOp.run, located]
  have contents : (readFile (root ++ [name])).run fs = .ok (bytes, fs) := by
    simp only [FileOp.run, located]
  rw [loadSnapshot, exec_run_bind, exec_perform_ok (run_metadata located)]
  by_cases long : bytes.length > maximumJournalBytes
  · simp only [Entry.metadata, long, or_true, if_true]
    rfl
  · simp only [Entry.metadata, ne_eq, not_true_eq_false, long, or_self, if_false]
    rw [readSnapshot, exec_run_bind, exec_perform_ok opened]
    rw [exec_run_bind, exec_perform_ok contents]
    simp only
    cases acceptSnapshot root outputIdentity name bytes <;> rfl

section

variable (is : PageIs plan fs sequence page)
include is

theorem exec_loadSnapshot (present : page ≠ .absent)
    (small : sequence ∈ sequences) (current : Option TransactionJournal) :
    (loadSnapshot plan.root plan.space.identity current (fileName sequence)).run.exec
      fs = (.ok (page.advance plan sequence current), fs) := by
  cases page with
  | absent => exact absurd rfl present
  | torn =>
    obtain ⟨bytes, located, rejected⟩ := is
    rw [exec_loadSnapshot_file located, rejected, ite_self]
    rfl
  | full phase =>
    obtain ⟨located, fits⟩ := is
    rw [exec_loadSnapshot_file located, if_neg (Nat.not_lt.mpr fits),
      acceptSnapshot_encode fits small]
    rfl

theorem PageIs.isSome_iff :
    (fs.entry (plan.root ++ [fileName sequence])).isSome = true ↔
      page ≠ .absent := by
  cases page with
  | absent =>
    rw [show fs.entry (plan.root ++ [fileName sequence]) = none from is]
    simp
  | torn =>
    obtain ⟨bytes, located, _⟩ := is
    simp [located]
  | full phase => simp [is.1]

theorem PageIs.file (present : page ≠ .absent) :
    ∃ bytes, fs.entry (plan.root ++ [fileName sequence]) = some (.file bytes) := by
  cases page with
  | absent => exact absurd rfl present
  | torn => exact is.imp fun _ => And.left
  | full phase => exact ⟨_, is.1⟩

theorem exec_load_cons (small : sequence ∈ sequences)
    (names : List OsString) (current : Option TransactionJournal) :
    (((fileName sequence :: names).filter fun name =>
        (fs.entry (plan.root ++ [name])).isSome).foldlM
          (loadSnapshot plan.root plan.space.identity) current).run.exec fs =
      ((names.filter fun name => (fs.entry (plan.root ++ [name])).isSome).foldlM
        (loadSnapshot plan.root plan.space.identity)
          (page.advance plan sequence current)).run.exec fs := by
  by_cases present : page = .absent
  · rw [filter_cons_of_neg (by rw [is.isSome_iff]; exact not_not.mpr present), present]
    rfl
  · rw [filter_cons_of_pos (by rw [is.isSome_iff]; exact present), foldlM_cons,
      exec_run_bind, exec_loadSnapshot is present small]

end

variable {pages : Pages}

theorem Journaled.sorted_journals (journaled : Journaled plan pages fs) :
    sortNames ((fs.children plan.root).filter isJournalName) =
      journalNames.filter fun name => (fs.entry (plan.root ++ [name])).isSome := by
  apply List.Perm.eq_of_pairwise' (pairwise_sortNames _)
    (pairwise_journalNames.sublist filter_sublist)
  apply (perm_ext_iff_of_nodup
    (nodup_sortNames ((fs.nodup_children plan.root).filter isJournalName))
    (nodup_journalNames.filter _)).mpr
  intro name
  rw [mem_sortNames, mem_filter, mem_filter, mem_children]
  constructor
  · rintro ⟨present, journal⟩
    rcases journaled.known name present with member | other
    · exact ⟨member, present⟩
    · rw [isJournalName_of_mem_areaNames name other] at journal
      cases journal
  · rintro ⟨member, present⟩
    exact ⟨present, isJournalName_of_mem_journalNames name member⟩

theorem advance_eq_latest (pages : Pages) :
    (pages 3).advance plan 3 ((pages 2).advance plan 2 ((pages 1).advance plan 1
      ((pages 0).advance plan 0 none))) =
      pages.latest.map fun found => plan.snapshot found.1 found.2 := by
  unfold Pages.latest
  cases pages 0 <;> cases pages 1 <;> cases pages 2 <;> cases pages 3 <;> rfl

theorem Journaled.exec_load (journaled : Journaled plan pages fs) :
    ((loadLatestJournal plan.root plan.space.identity).run.exec fs).1 =
      .ok (pages.latest.map fun found => plan.snapshot found.1 found.2) := by
  have few : ¬ ((fs.children plan.root).filter isJournalName).length > maximumJournalFiles := by
    have same := congrArg List.length journaled.sorted_journals
    rw [sortNames, length_insertionSort] at same
    have bound := length_filter_le
      (fun name => (fs.entry (plan.root ++ [name])).isSome) journalNames
    have four : journalNames.length ≤ maximumJournalFiles := by decide
    omega
  rw [loadLatestJournal, exec_run_bind,
    exec_perform_ok (run_readDirectory journaled.directory)]
  simp only
  rw [exec_run_bind, failIf, if_neg few]
  simp only [ExceptT.run_pure, Program.exec_pure]
  rw [journaled.sorted_journals]
  simp only [journalNames, sequences, map_cons, map_nil]
  rw [exec_load_cons (journaled.page 0 (by decide)) (by decide),
    exec_load_cons (journaled.page 1 (by decide)) (by decide),
    exec_load_cons (journaled.page 2 (by decide)) (by decide),
    exec_load_cons (journaled.page 3 (by decide)) (by decide), advance_eq_latest]
  rfl

theorem Journaled.wp_load {post : Post (Option TransactionJournal)}
    (journaled : Journaled plan pages fs) (safe : E.Safe (post ∘ .error) fs)
    (success : post (.ok (pages.latest.map fun found => plan.snapshot found.1 found.2)) fs) :
    (loadLatestJournal plan.root plan.space.identity).run.wp E post fs :=
  Program.wp_of_strict (strict_loadLatestJournal _ _) safe
    (by rw [journaled.exec_load]; exact success)

end Load

section Change

variable {plan : TransactionPlan} {pages : Pages} {fs after : Files} {page : Page}

theorem PageIs.congr {sequence : UInt32} (is : PageIs plan fs sequence page)
    (same : after.entry (plan.root ++ [fileName sequence]) =
      fs.entry (plan.root ++ [fileName sequence])) : PageIs plan after sequence page := by
  cases page with
  | absent => exact same.trans is
  | torn =>
    obtain ⟨bytes, located, rejected⟩ := is
    exact ⟨bytes, same.trans located, rejected⟩
  | full phase => exact ⟨same.trans is.1, is.2⟩

section

variable (journaled : Journaled plan pages fs)
include journaled

theorem Journaled.congr
    (root : after.entry plan.root = fs.entry plan.root)
    (above : after.entry plan.space.path = fs.entry plan.space.path)
    (children : ∀ child, after.entry (plan.root ++ [child]) = fs.entry (plan.root ++ [child]) ∨
      child ∈ areaNames ∧ (after.entry (plan.root ++ [child]) = none ∨
        after.entry (plan.root ++ [child]) = some .directory)) : Journaled plan pages after := by
  have page : ∀ name ∈ journalNames,
      after.entry (plan.root ++ [name]) = fs.entry (plan.root ++ [name]) := by
    intro name member
    refine (children name).resolve_right ?_
    exact fun changed => not_journal_of_area name changed.1 member
  refine ⟨root.trans journaled.directory, above.trans journaled.above, ?_, ?_,
    fun sequence small => (journaled.page sequence small).congr
      (page _ (mem_map_of_mem small))⟩
  · intro child present
    rcases children child with same | ⟨area, _⟩
    · rw [same] at present
      exact journaled.known child present
    · exact .inr area
  · intro child area
    rcases children child with same | ⟨_, kinds⟩
    · rw [same]
      exact journaled.area child area
    · exact kinds

theorem Journaled.write {sequence : UInt32} (small : sequence ∈ sequences)
    (new : Added (plan.root ++ [fileName sequence]) (.file bytes) fs after)
    (is : PageIs plan after sequence page) :
    Journaled plan (Function.update pages sequence page) after := by
  have others : ∀ other, other ≠ fileName sequence →
      after.entry (plan.root ++ [other]) = fs.entry (plan.root ++ [other]) :=
    fun other differs => new.same.entry_one (not_child_reaches differs)
  have member : fileName sequence ∈ journalNames := mem_map_of_mem small
  refine ⟨?_, ?_, ?_, ?_, ?_⟩
  · rw [new.same.entry_one not_child_reaches_self, journaled.directory]
  · rw [new.same.entry_one, journaled.above]
    intro reaches
    exact not_child_reaches_self (reaches.trans (prefix_append _ _))
  · intro child present
    by_cases written : child = fileName sequence
    · exact .inl (written ▸ member)
    · rw [others child written] at present
      exact journaled.known child present
  · intro child area
    rw [others child]
    · exact journaled.area child area
    · rintro rfl
      exact not_journal_of_area _ area member
  · intro other otherSmall
    by_cases written : other = sequence
    · subst written
      rw [Function.update_self]
      exact is
    · rw [Function.update_of_ne written]
      refine (journaled.page other otherSmall).congr (others _ ?_)
      exact fun clash => written (fileName_inj other otherSmall sequence small clash)

theorem Journaled.clear {area : OsString} (member : area ∈ areaNames) (name : OsString) :
    fs.entry (plan.root ++ [area, name]) = none →
      fs.missing (plan.root ++ [area, name]) = .notFound := by
  intro absent
  rcases journaled.area area member with nothing | directory
  · exact missing_eq_notFound journaled.directory nothing [name]
  · have inside := @missing_eq_notFound _ _ fs (plan.root ++ [area]) name directory
      (by simpa using absent) []
    simpa using inside

end

def Pages.Part (part whole : Pages) : Prop :=
  ∀ sequence, part sequence = .absent ∨ part sequence = whole sequence

def Pages.Intact (pages : Pages) : Prop :=
  ∀ sequence ∈ sequences, pages sequence ≠ .torn

theorem Page.eq_full_of_intact (present : page ≠ .absent) (whole : page ≠ .torn) :
    ∃ phase, page = .full phase := by
  cases page with
  | absent => exact absurd rfl present
  | torn => exact absurd rfl whole
  | full phase => exact ⟨phase, rfl⟩

theorem Pages.latest_eq_of_top {part : Pages} (intact : pages.Intact) (within : part.Part pages)
    (top : ∀ sequence ∈ sequences, pages sequence ≠ .absent →
      (∀ later ∈ sequences, pages later ≠ .absent → later ≤ sequence) →
      part sequence = pages sequence) : part.latest = pages.latest := by
  have gone : ∀ sequence, pages sequence = .absent → part sequence = .absent := by
    intro sequence absent
    rcases within sequence with nothing | same
    · exact nothing
    · exact same.trans absent
  by_cases final : pages 3 = .absent
  · by_cases mutating : pages 2 = .absent
    · by_cases prepared : pages 1 = .absent
      · by_cases staging : pages 0 = .absent
        · simp only [latest, final, mutating, prepared, staging, gone]
        · have kept := top 0 (by decide) staging (by
            simp [sequences, final, mutating, prepared])
          simp only [latest, final, mutating, prepared, gone, kept]
      · have kept := top 1 (by decide) prepared (by
          simp [sequences, final, mutating])
        obtain ⟨phase, full⟩ := Page.eq_full_of_intact prepared (intact 1 (by decide))
        simp only [latest, final, mutating, gone, kept, full, Page.orElse]
    · have kept := top 2 (by decide) mutating (by
        simp [sequences, final])
      obtain ⟨phase, full⟩ := Page.eq_full_of_intact mutating (intact 2 (by decide))
      simp only [latest, final, gone, kept, full, Page.orElse]
  · have kept := top 3 (by decide) final (by simp [sequences])
    obtain ⟨phase, full⟩ := Page.eq_full_of_intact final (intact 3 (by decide))
    simp only [latest, kept, full, Page.orElse]

theorem le_fileName :
    ∀ first ∈ sequences, ∀ second ∈ sequences, first ≤ second →
      le (fileName first) (fileName second) := by
  apply forall_sequences <;> apply forall_sequences <;> decide

theorem Journaled.cleaned (journaled : Journaled plan pages fs)
    (cleaning : Cleaning plan.root fs after) (remains : after.entry plan.root ≠ none) :
    ∃ part : Pages, Journaled plan part after ∧ part.Part pages ∧
      (pages.Intact → part.latest = pages.latest ∨
        ∀ child, after.entry (plan.root ++ [child]) = none) := by
  have kept : ∀ child, after.entry (plan.root ++ [child]) = none ∨
      after.entry (plan.root ++ [child]) = fs.entry (plan.root ++ [child]) := by
    intro child
    cases found : after.entry (plan.root ++ [child]) with
    | none => exact .inl rfl
    | some entry => exact .inr (cleaning.pruned.kept [child] entry found).symm
  have present : ∀ child, (after.entry (plan.root ++ [child])).isSome →
      after.entry (plan.root ++ [child]) = fs.entry (plan.root ++ [child]) := by
    intro child found
    refine (kept child).resolve_left ?_
    intro absent
    rw [absent] at found
    cases found
  let part : Pages := fun sequence =>
    if (after.entry (plan.root ++ [fileName sequence])).isSome then pages sequence
    else .absent
  have within : part.Part pages := by
    intro sequence
    by_cases found : (after.entry (plan.root ++ [fileName sequence])).isSome
    · exact .inr (if_pos found)
    · exact .inl (if_neg found)
  refine ⟨part, ⟨?_, ?_, ?_, ?_, ?_⟩, within, ?_⟩
  · rw [cleaning.entry_root.resolve_left remains, journaled.directory]
  · rw [cleaning.pruned.same.entry_one not_child_reaches_self, journaled.above]
  · intro child found
    rw [present child found] at found
    exact journaled.known child found
  · intro child area
    rcases kept child with absent | same
    · exact .inl absent
    · rw [same]
      exact journaled.area child area
  · intro sequence small
    by_cases found : (after.entry (plan.root ++ [fileName sequence])).isSome
    · rw [show part sequence = pages sequence from if_pos found]
      exact (journaled.page sequence small).congr (present _ found)
    · rw [show part sequence = .absent from if_neg found]
      exact Option.not_isSome_iff_eq_none.mp found
  · intro intact
    by_cases empty : ∀ child, after.entry (plan.root ++ [child]) = none
    · exact .inr empty
    · left
      obtain ⟨child, remaining⟩ := not_forall.mp empty
      rw [← ne_eq, Option.ne_none_iff_isSome] at remaining
      refine Pages.latest_eq_of_top intact within ?_
      intro sequence small full top
      apply if_pos
      rw [cleaning.last_kept (isJournalName_of_mem_journalNames _ (mem_map_of_mem small)) ?_
        remaining]
      · exact (journaled.page sequence small).isSome_iff.mpr full
      · intro other journal found
        rcases journaled.known other found with member | area
        · obtain ⟨later, laterSmall, rfl⟩ := mem_map.mp member
          have laterFull := (journaled.page later laterSmall).isSome_iff.mp found
          exact le_fileName later laterSmall sequence small (top later laterSmall laterFull)
        · rw [isJournalName_of_mem_areaNames other area] at journal
          cases journal

end Change

section Persist

variable {plan : TransactionPlan} {pages : Pages} {fs : Files}
  {E : Environment (fileInterface OsString)} {sequence : UInt32} {phase recorded : JournalPhase}
  {post : Post JournalStore}

theorem pageIs_take {progress : Nat} {after : Files} (fits : plan.fits phase sequence)
    (located : after.entry (plan.root ++ [fileName sequence]) =
      some (.file ((plan.snapshot phase sequence).encode.take progress))) :
    PageIs plan after sequence .torn ∨
      (plan.snapshot phase sequence).encode.take progress = (plan.snapshot phase sequence).encode ∧
        PageIs plan after sequence (.full phase) := by
  by_cases proper : progress < (plan.snapshot phase sequence).encode.length
  · exact .inl ⟨_, located, acceptSnapshot_cut proper⟩
  · have whole := take_of_length_le (Nat.not_lt.mp proper)
    rw [whole] at located
    exact .inr ⟨whole, located, fits⟩

section

variable (journaled : Journaled plan pages fs) {store : JournalStore} {before : UInt32}
include journaled

section

variable (stored : store = ⟨plan.root, plan.snapshot recorded before, sequence⟩)
  (small : sequence ∈ sequences)
include stored small

theorem Journaled.wp_persist
    (absent : pages sequence = .absent)
    (safe : E.Safe (post ∘ .error) fs)
    (oversize : ¬ plan.fits phase sequence → ∀ error, post (.error error) fs)
    (written : plan.fits phase sequence → ∀ after,
      Journaled plan (Function.update pages sequence (.full phase)) after →
      SameOutside [plan.root ++ [fileName sequence]] fs after →
      E.stop after ∨ E.Safe (post ∘ .error) after ∧
        post (.ok ⟨plan.root, plan.snapshot phase sequence, saturatingSucc sequence⟩)
          after)
    (torn : ∀ after, Journaled plan (Function.update pages sequence .torn) after →
      SameOutside [plan.root ++ [fileName sequence]] fs after →
      (E.Tears → E.stop after ∨ E.crash after) ∧
        (¬ E.Reliable → ∀ error, E.stop after ∨ post (.error error) after)) :
    (store.persist phase).run.wp E post fs := by
  subst stored
  have target : fs.entry (plan.root ++ [fileName sequence]) = none := by
    have page := journaled.page sequence small
    rwa [absent] at page
  refine wp_bind (wp_failIf ?_ ?_)
  · intro long
    exact oversize (Nat.not_le.mpr long) _
  · intro short
    have fits : plan.fits phase sequence := Nat.not_lt.mp short
    refine wp_bind (wp_writeNewFile target ?_ safe ?_ ?_ ?_)
    · exact (congrArg fs.entry (plan.parent_child _)).trans journaled.directory
    · intro progress after allowed part
      rcases pageIs_take fits part.entry with cut | ⟨whole, full⟩
      · exact (torn after (journaled.write small part cut) part.same).1 ⟨_, _, _, allowed⟩
      · refine (written fits after (journaled.write small part full) part.same).imp_right ?_
        exact fun settled => settled.1.crash
    · intro after new
      exact written fits after (journaled.write small new ⟨new.entry, fits⟩) new.same
    · intro unreliable error progress after part
      rcases pageIs_take fits part.entry with cut | ⟨whole, full⟩
      · exact (torn after (journaled.write small part cut) part.same).2 unreliable error
      · refine (written fits after (journaled.write small part full) part.same).imp_right ?_
        exact fun settled => settled.1.failure unreliable error

theorem Journaled.wp_persist_occupied (present : pages sequence ≠ .absent) (crashes : E.crash fs)
    (failed : ∀ error, post (.error error) fs) : (store.persist phase).run.wp E post fs := by
  subst stored
  have occupied := (journaled.page sequence small).isSome_iff.mpr present
  have collides : (createNew (plan.root ++ [fileName sequence])).run fs =
      .error .alreadyExists := by
    simp only [FileOp.run, add]
    rw [dif_neg (Option.ne_none_iff_isSome.mpr occupied)]
    rfl
  refine wp_bind (wp_failIf (fun _ => failed _) fun _ => ?_)
  refine wp_bind (wp_bind (wp_perform.mpr ⟨?_, ?_, ?_, ?_⟩))
  · exact fun _ _ => .inr crashes
  · exact fun _ _ _ => .inr (failed _)
  · intro _ _ done
    cases collides.symm.trans done
  · exact fun _ _ => .inr (failed _)

end

theorem Journaled.not_special (child : OsString) :
    fs.entry (plan.root ++ [child]) ≠ some .special := by
  intro special
  rcases journaled.known child (by rw [special]; rfl) with journal | area
  · obtain ⟨sequence, small, rfl⟩ := mem_map.mp journal
    have page := journaled.page sequence small
    obtain ⟨bytes, located⟩ := page.file (page.isSome_iff.mp (by rw [special]; rfl))
    rw [located] at special
    cases special
  · rcases journaled.area child area with absent | directory
    · rw [absent] at special
      cases special
    · rw [directory] at special
      cases special

theorem Journaled.wp_cleanup {post : Post Unit}
    (safe : ∀ after, Cleaning plan.root fs after → E.Safe (post ∘ .error) after)
    (success : ∀ after, Cleaning plan.root fs after → after.entry plan.root = none →
      post (.ok ()) after) : (cleanupTransactionRoot plan.root).run.wp E post fs := by
  refine wp_cleanupTransactionRoot journaled.directory ?_ plan.root_ne_nil journaled.not_special
    safe success
  exact journaled.above

end

end Persist

section Roots

variable {plan : TransactionPlan} {fs : Files}

/-- The namespace holds the lock and at most this transaction. -/
structure Housed (plan : TransactionPlan) (fs : Files) : Prop where
  directory : fs.entry plan.space.path = some .directory
  alone : ∀ child, (fs.entry (plan.space.path ++ [child])).isSome →
    child = .utf8 "lock" ∨ child = .utf8 plan.name

theorem strict_transactionRoots (space : TransactionNamespace) :
    space.transactionRoots.run.Strict := by
  refine strict_bind (strict_perform rfl _) fun names => ?_
  refine strict_bind (strict_forM ?_ _) fun _ => strict_pure _
  intro name
  exact strict_bind (strict_perform rfl _) fun metadata => strict_failIf _ _

theorem name_ne_lock : utf8 plan.name ≠ .utf8 "lock" := by
  intro same
  have first := congrArg (fun text => text.toList.head?) (utf8.inj same)
  simp [TransactionPlan.name, transactionPrefix] at first

theorem startsWith_name : (utf8 plan.name).startsWith transactionPrefix = true := by
  rw [startsWith, OsString.bytes, TransactionPlan.name, String.toList_append,
    isPrefixOf_iff_prefix, Utf8.encode, Utf8.encode, flatMap_append]
  exact prefix_append _ _

theorem Housed.roots (housed : Housed plan fs) :
    ((fs.children plan.space.path).filter fun name => name ≠ .utf8 "lock") =
      if (fs.entry plan.root).isSome then [.utf8 plan.name] else [] := by
  have distinct := (fs.nodup_children plan.space.path).filter
    fun name => decide (name ≠ .utf8 "lock")
  have only : ∀ name,
      name ∈ (fs.children plan.space.path).filter (fun name => name ≠ .utf8 "lock") ↔
        name = .utf8 plan.name ∧ (fs.entry plan.root).isSome = true := by
    intro name
    rw [mem_filter, mem_children, decide_eq_true_iff]
    constructor
    · rintro ⟨present, unlocked⟩
      obtain rfl := (housed.alone name present).resolve_left unlocked
      exact ⟨rfl, present⟩
    · rintro ⟨rfl, present⟩
      exact ⟨present, name_ne_lock⟩
  split
  · next present =>
    rw [← perm_singleton]
    apply (perm_ext_iff_of_nodup distinct (nodup_singleton _)).mpr
    intro name
    rw [only, mem_singleton]
    exact and_iff_left present
  · next absent =>
    rw [eq_nil_iff_forall_not_mem]
    intro name member
    exact absent ((only name).mp member).2

theorem exec_recognizeRoot (directory : fs.entry plan.root = some .directory) :
    (plan.space.recognizeRoot (.utf8 plan.name)).run.exec fs = (.ok (), fs) := by
  rw [TransactionPlan.root] at directory
  rw [TransactionNamespace.recognizeRoot, exec_run_bind,
    exec_perform_ok (run_metadata directory)]
  simp only [Entry.metadata, startsWith_name, failIf, Bool.true_eq_false, ne_eq,
    not_true_eq_false, or_self, if_false]
  rfl

variable (housed : Housed plan fs)
  (directory : (fs.entry plan.root).isSome → fs.entry plan.root = some .directory)
include housed directory

theorem Housed.exec_transactionRoots :
    (plan.space.transactionRoots.run.exec fs).1 =
      .ok (if (fs.entry plan.root).isSome then [plan.root] else []) := by
  rw [TransactionNamespace.transactionRoots, exec_run_bind,
    exec_perform_ok (run_readDirectory housed.directory)]
  simp only
  rw [housed.roots, exec_run_bind]
  by_cases present : (fs.entry plan.root).isSome
  · simp only [if_pos present]
    rw [show List.forM [utf8 plan.name] plan.space.recognizeRoot =
      (plan.space.recognizeRoot (.utf8 plan.name) >>= fun _ => pure ⟨⟩) from rfl,
      exec_run_bind, exec_recognizeRoot (directory present)]
    rfl
  · simp only [if_neg present]
    rfl

theorem Housed.wp_transactionRoots {post : Post (List Path)} (safe : E.Safe (post ∘ .error) fs)
    (success : post (.ok (if (fs.entry plan.root).isSome then [plan.root] else [])) fs) :
    plan.space.transactionRoots.run.wp E post fs :=
  Program.wp_of_strict (strict_transactionRoots _) safe
    (by rw [housed.exec_transactionRoots directory]; exact success)

end Roots
end Offprint.Artifact
