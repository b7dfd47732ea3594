import Offprint.Artifact.Pages

/-!
# Whether the phases of a journal fit

The snapshots of a transaction differ in the name of the phase and in one digit,
so their sizes differ by the lengths of the names. The longest name belongs to
the rollback, which is recorded after outputs were changed.
-/

namespace Offprint.Artifact

open Data Model Json Utf8 List JournalPhase

/-- The store that a persisted phase leaves. -/
def JournalStore.advanced (store : JournalStore) (phase : JournalPhase) : JournalStore :=
  ⟨store.root, store.next phase, saturatingSucc store.nextSequence⟩

/-- The phases that are recorded behind a phase. -/
def JournalPhase.followers : JournalPhase → List JournalPhase
  | .staging => [.prepared]
  | .prepared => [.mutating]
  | .mutating => [.rollingBack, .committed]
  | .rollingBack | .committed => []

/-- The stores of one transaction behind its first snapshot, also when they were
read back from the journal. -/
inductive JournalStore.Later (store : JournalStore) : JournalStore → Prop
  | staged : Later store (store.advanced .staging)
  | persisted {current : JournalStore} {phase : JournalPhase} : Later store current →
      phase ∈ current.snapshot.phase.followers → Later store (current.advanced phase)
  | reloaded {current : JournalStore} : Later store current →
      Later store (.fromSnapshot current.root current.snapshot)

namespace TransactionPlan

variable (plan : TransactionPlan)

theorem new_eq :
    JournalStore.new plan.root plan.space.identity plan.mode plan.entries =
      .ok ⟨plan.root, plan.snapshot .staging 0, 0⟩ := by
  unfold JournalStore.new
  rw [getLast_root]
  simp [plan.valid, name, snapshot, bind, Except.bind, pure, Except.pure]

/-- The sequence number of a phase. -/
def sequenceOf : JournalPhase → UInt32
  | .staging => 0
  | .prepared => 1
  | .mutating => 2
  | .rollingBack | .committed => 3

variable {plan}

theorem eq_of_later {store : JournalStore}
    (later : JournalStore.Later ⟨plan.root, plan.snapshot .staging 0, 0⟩ store) :
    ∃ phase, store = ⟨plan.root, plan.snapshot phase (sequenceOf phase), sequenceOf phase + 1⟩ := by
  induction later with
  | staged => exact ⟨.staging, rfl⟩
  | @persisted _ next _ follows ih =>
    obtain ⟨phase, rfl⟩ := ih
    refine ⟨next, ?_⟩
    revert follows
    cases phase <;> cases next <;> first | (intro; rfl) | exact fun follows => nomatch follows
  | reloaded _ ih =>
    obtain ⟨phase, rfl⟩ := ih
    exact ⟨phase, by cases phase <;> rfl⟩

theorem later_rollingBack : JournalStore.Later ⟨plan.root, plan.snapshot .staging 0, 0⟩
      ⟨plan.root, plan.snapshot .rollingBack 3, 4⟩ := by
  have prepared := JournalStore.Later.persisted
    (@JournalStore.Later.staged ⟨plan.root, plan.snapshot .staging 0, 0⟩)
    (mem_singleton_self prepared)
  have mutating := prepared.persisted (mem_singleton_self JournalPhase.mutating)
  exact mutating.persisted mem_cons_self

theorem length_encode_snapshot (phase : JournalPhase) :
    (plan.snapshot phase (sequenceOf phase)).encode.length + 7 =
      (plan.snapshot .staging 0).encode.length + phase.text.length := by
  have named (phase : JournalPhase) :
      (encode (renderString phase.text)).length = phase.text.length + 2 := by
    cases phase <;> decide
  have digit (phase : JournalPhase) :
      (encode (Nat.toDigits 10 (sequenceOf phase).toNat)).length = 1 := by
    cases phase <;> decide
  show _ = (plan.snapshot .staging (sequenceOf .staging)).encode.length + _
  simp only [TransactionJournal.encode, TransactionJournal.toJson, snapshot, render,
    renderMembers, natural, renderNumber, length_encode_append,
    length_encode_cons, named, digit]
  have seven : staging.text.length = 7 := by decide
  omega

/-- Whatever follows a first snapshot within the limit is within the limit and
can be read, so that a snapshot is refused only before outputs are changed. -/
structure PhasesFit (plan : TransactionPlan) : Prop where
  later_fits : plan.fits .staging 0 → ∀ first store,
    JournalStore.new plan.root plan.space.identity plan.mode plan.entries = .ok first →
    JournalStore.Later first store →
      store.snapshot.encode.length ≤ maximumJournalBytes ∧
      acceptSnapshot plan.root plan.space.identity (JournalStore.fileName store.snapshot.sequence)
        store.snapshot.encode = some store.snapshot
  mutating_fits : plan.fits .mutating 2 → plan.fits .rollingBack 3 ∧ plan.fits .committed 3

theorem fits_of_length_le (phase : JournalPhase)
    (short : (plan.snapshot .staging 0).encode.length + 5 ≤ maximumJournalBytes) :
    plan.fits phase (sequenceOf phase) := by
  have sizes := @length_encode_snapshot plan phase
  have longest : phase.text.length ≤ 12 := by cases phase <;> decide
  unfold fits
  omega

/-- The phases of a journal fit unless its first snapshot comes within five bytes
of the limit. -/
theorem phasesFit_iff (plan : TransactionPlan) :
    plan.PhasesFit ↔
      (plan.fits .staging 0 →
        (plan.snapshot .staging 0).encode.length + 5 ≤ maximumJournalBytes) := by
  have rollback := @length_encode_snapshot plan .rollingBack
  have twelve : rollingBack.text.length = 12 := by decide
  constructor
  · intro promised fits
    have within := (promised.later_fits fits _ _ plan.new_eq later_rollingBack).1
    change (plan.snapshot .rollingBack (sequenceOf .rollingBack)).encode.length ≤ _ at within
    omega
  · intro short
    refine ⟨?_, ?_⟩
    · intro fits first store started later
      cases plan.new_eq.symm.trans started
      obtain ⟨phase, rfl⟩ := eq_of_later later
      have within := fits_of_length_le phase (short fits)
      have numbered : sequenceOf phase ∈ sequences := by cases phase <;> decide
      exact ⟨within, acceptSnapshot_encode within numbered⟩
    · intro mutating
      have sizes := @length_encode_snapshot plan .mutating
      have eight : JournalPhase.mutating.text.length = 8 := by decide
      have fits : plan.fits .staging 0 := by
        unfold fits at mutating ⊢
        change (plan.snapshot .mutating (sequenceOf .mutating)).encode.length ≤ _ at mutating
        omega
      exact ⟨fits_of_length_le .rollingBack (short fits), fits_of_length_le .committed (short fits)⟩

/-! ## A journal close to the limit -/

/-- A file of the given name. -/
def namedEntry (name : List Char) : JournalEntry :=
  ⟨String.ofList name, .html, .file, false, none, ⟨.html, 0, .zero⟩, 1, none⟩

theorem validateEntries_replicate (count : Nat) :
    validateEntries [namedEntry (List.replicate (count + 1) 'a')] = .ok () := by
  have plain : components (String.ofList (List.replicate (count + 1) 'a')) =
      [String.ofList (List.replicate (count + 1) 'a')] := by
    rw [components, String.toList_ofList, List.splitOn, splitOnP_eq_singleton]
    · rfl
    · intro char member
      rw [(mem_replicate.mp member).2]
      rfl
  have head : (List.replicate (count + 1) 'a').head? = some 'a' := rfl
  have other (text : String) (apart : text.toList.head? ≠ some 'a') :
      String.ofList (List.replicate (count + 1) 'a') ≠ text := by
    rintro rfl
    simp [head] at apart
  have single : isSingleComponent (String.ofList (List.replicate (count + 1) 'a')) = true := by
    simp [isSingleComponent, plain, other "" (by decide), other "." (by decide),
      other ".." (by decide), head]
  simp [validateEntries, validateEntriesFrom, namedEntry, single, validEntryMetadata,
    maximumJournalVariants, bind, Except.bind]

/-- A transaction that replaces nothing and writes one file of a long name. -/
def longNamed (count : Nat) : TransactionPlan :=
  ⟨⟨"/", "out", "", by decide⟩, "1", .entries, _, validateEntries_replicate count⟩

theorem length_longNamed (count : Nat) :
    ((longNamed count).snapshot .staging 0).encode.length =
      ((longNamed 0).snapshot .staging 0).encode.length + count := by
  have escaped (count : Nat) : (encode
      ((List.replicate count 'a').flatMap escapeChar)).length = count := by
    induction count with
    | zero => rfl
    | succ count ih =>
      rw [replicate_succ, flatMap_cons, length_encode_append, ih, Nat.add_comm]
      rfl
  have named (count : Nat) : (encode (renderString
      (String.ofList (List.replicate (count + 1) 'a')))).length = count + 3 := by
    rw [renderString, String.toList_ofList, length_encode_cons,
      length_encode_append, escaped]
    have quote : (encode ['"']).length = 1 := by decide
    have quoted : (String.utf8EncodeChar '"').length = 1 := by decide
    omega
  simp only [TransactionJournal.encode, TransactionJournal.toJson, snapshot, longNamed, name,
    JournalEntry.toJson, namedEntry, map_cons, map_nil, render,
    renderElements, renderMembers, natural, renderNumber, length_encode_append,
    length_encode_cons, named]
  omega

/-- A first snapshot that fills the limit leaves no room for what follows. -/
theorem not_phasesFit_longNamed : ¬ (longNamed 65159).PhasesFit := by
  rw [phasesFit_iff]
  intro short
  have size := length_longNamed 65159
  have base : ((longNamed 0).snapshot .staging 0).encode.length = 375 := by decide +kernel
  have fits : (longNamed 65159).fits .staging 0 := by
    unfold fits maximumJournalBytes
    omega
  have within := short fits
  unfold maximumJournalBytes at within
  omega

end TransactionPlan
end Offprint.Artifact
