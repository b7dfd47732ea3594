import Offprint.Artifact.Prepared

/-!
# Rolling outputs back

Rolling back visits the entries from the last to the first.  Whatever fails on the
way, every output stays in one of the states the journal accounts for, and a
rollback that reports no failure has put every original back.
-/

namespace Offprint.Artifact

open Data Effect Model TransactionPlan Action PreparedTransaction FileSystem List FileOp

variable {E : Environment (fileInterface OsString)} {fs : Files}

section Observe

theorem reading_directExists (space : TransactionNamespace) (path : Path) :
    (directExists space path).run.Reading := by
  refine each_bind (reading_performIo rfl) fun result => ?_
  split
  · exact each_pure _
  · exact each_pure _
  · exact each_throw _

variable {path : Path} {found : Entry}

theorem wp_directExists {space : TransactionNamespace} {post : Post Bool} (truthful : E.Truthful)
    (safe : E.Safe (post ∘ .error) fs) (clear : fs.entry path = none → fs.missing path = .notFound)
    (success : post (.ok (fs.entry path).isSome) fs) :
    (directExists space path).run.wp E post fs := by
  refine wp_bind (wp_performIo.mpr (wp_metadata truthful safe.crash ?_ ?_ ?_))
  · intro found located
    rw [located] at success
    exact success
  · intro absent
    rw [absent] at success
    rw [clear absent]
    exact success
  · intro unreliable error other
    cases error with
    | notFound => exact absurd rfl other
    | _ => exact safe.failure unreliable _

theorem wp_pathMatchesEntry [Sha256] {entry : JournalEntry} {limits : ArtifactTransactionLimits}
    {post : Post Bool}
    (directory : fs.entry (parent path) = some .directory) (crashes : E.crash fs)
    (success : ∀ matched, (E.Reliable → matched = matchesEntry limits entry (fs.subtree path)) →
      post (.ok matched) fs) : (pathMatchesEntry path entry limits).run.wp E post fs := by
  refine wp_attempt_bind ?_
  refine Program.wp_of_observing (reading_validateEntryPath path entry limits).observing crashes ?_
  intro result truth
  refine success result.isOk ?_
  intro reliable
  rw [truth reliable, validateEntryPath_isOk directory]

theorem entry_of_subtree {first second : Files} {other : Path}
    (same : first.subtree path = second.subtree other) : first.entry path = second.entry other := by
  simpa using entry_of_subtree_eq same []

theorem entry_of_leaf (only : fs.subtree path = leaf found) : fs.entry path = some found := by
  have located := entry_subtree fs path []
  rw [only, append_nil] at located
  exact located.symm

theorem entry_below_leaf (only : fs.subtree path = leaf found)
    (child : OsString) : fs.entry (path ++ [child]) = none := by
  rw [← entry_subtree, only]
  rfl

end Observe

section Slots

variable [Sha256] {p : PreparedTransaction} {pages : Pages} {after : Files}
  {slot : JournalEntry × Nat} {places : List Path} {area : OsString} {middle : Files}

/-- A transaction that is being worked on entry by entry. -/
structure Mid (p : PreparedTransaction) (pages : Pages) (fs : Files) : Prop where
  journaled : Journaled p.toTransactionPlan pages fs
  outside : p.Outside fs
  rest : p.Rest fs
  slot : ∀ each ∈ p.slots, p.IsKnown fs each

structure SameSlot (p : PreparedTransaction) (fs after : Files) (slot : JournalEntry × Nat) :
    Prop where
  destination : after.subtree (p.destination slot.1) = fs.subtree (p.destination slot.1)
  backup : after.subtree (backupPath p.root slot.2) = fs.subtree (backupPath p.root slot.2)
  discard : after.entry (discardPath p.root slot.2) = fs.entry (discardPath p.root slot.2)
  staged : after.subtree (p.staged slot.1) = fs.subtree (p.staged slot.1)

section

variable (same : SameSlot p fs after slot)
include same

theorem SameSlot.isOriginal (is : p.IsOriginal fs slot) : p.IsOriginal after slot :=
  ⟨same.destination.trans is.1, (entry_of_subtree same.backup).trans is.2⟩

theorem SameSlot.isSaved (is : p.IsSaved fs slot) : p.IsSaved after slot :=
  ⟨is.1, (entry_of_subtree same.destination).trans is.2.1, same.backup.trans is.2.2⟩

theorem SameSlot.isReplaced (is : p.IsReplaced fs slot) : p.IsReplaced after slot := by
  obtain ⟨arrived, vacant, backed⟩ := is
  refine ⟨same.destination.trans arrived, same.discard.trans vacant, ?_⟩
  by_cases existed : slot.1.existed = true
  · rw [if_pos existed] at backed ⊢
    exact same.backup.trans backed
  · rw [if_neg existed] at backed ⊢
    exact (entry_of_subtree same.backup).trans backed

theorem SameSlot.isKnown (is : p.IsKnown fs slot) : p.IsKnown after slot :=
  is.imp same.isOriginal (Or.imp same.isSaved same.isReplaced)

end

theorem Mid.output (mid : Mid p pages fs) : fs.entry p.output = some .directory := by
  rw [mid.rest p.output (prefix_refl _), p.output_eq]
  intro entry _
  exact not_child_reaches_self

theorem parent_destination (entry : JournalEntry) : parent (p.destination entry) = p.output :=
  dropLast_concat

def slotPlaces (p : PreparedTransaction) (slot : JournalEntry × Nat) : List Path :=
  [p.destination slot.1, backupPath p.root slot.2, discardPath p.root slot.2, p.staged slot.1]

theorem forall_slotPlaces {holds : Path → Prop} :
    (∀ place ∈ slotPlaces p slot, holds place) ↔ holds (p.destination slot.1) ∧
      holds (backupPath p.root slot.2) ∧ holds (discardPath p.root slot.2) ∧
        holds (p.staged slot.1) := by
  simp [slotPlaces]

theorem sameSlot_of_sameOutside {other : JournalEntry × Nat} (member : slot ∈ p.slots)
    (otherMember : other ∈ p.slots) (differs : other ≠ slot) (within : places ⊆ slotPlaces p slot)
    (same : SameOutside places fs after) : SameSlot p fs after other := by
  obtain ⟨names, indices⟩ := slots_distinct otherMember member differs
  have apart : ∀ path, (∀ place ∈ slotPlaces p slot, Apart place path) →
      ∀ place ∈ places, ¬ place <+: path ∧ ¬ path <+: place :=
    fun path away place membership => away place (within membership)
  have backupDiscard : ∀ first second : Nat,
      Apart (backupPath p.root first) (discardPath p.root second) :=
    fun first second => apart_areas (by decide) _ _
  refine ⟨same.subtree _ (apart _ ?_), same.subtree _ (apart _ ?_),
    same.entry _ fun place membership => (apart _ ?_ place membership).1,
    same.subtree _ (apart _ ?_)⟩
  · exact forall_slotPlaces.mpr ⟨apart_of_diverging _ (names.symm ∘ OsString.utf8.inj) [] [],
      (apart_destination_root _ _).symm,
      (apart_destination_root _ _).symm,
      (apart_destination_staged _ _).symm⟩
  · exact forall_slotPlaces.mpr ⟨apart_destination_root _ _,
      apart_backups indices.symm,
      (backupDiscard _ _).symm, (apart_backup_staged _ _).symm⟩
  · exact forall_slotPlaces.mpr ⟨apart_destination_root _ _, backupDiscard _ _,
      apart_discards indices.symm,
      (apart_discard_staged _ _).symm⟩
  · exact forall_slotPlaces.mpr ⟨apart_destination_staged _ _,
      apart_backup_staged _ _,
      apart_discard_staged _ _, apart_of_diverging _ (names.symm ∘ OsString.utf8.inj) [] []⟩

theorem slotPlaces_outside {path : Path} (destination : ¬ p.destination slot.1 <+: path)
    (outsideRoot : ¬ p.root <+: path) : ∀ place ∈ slotPlaces p slot, ¬ place <+: path :=
  forall_slotPlaces.mpr ⟨destination,
    fun reaches => outsideRoot ((prefix_append _ _).trans reaches),
    fun reaches => outsideRoot ((prefix_append _ _).trans reaches),
    fun reaches => outsideRoot (root_reaches_staged.trans reaches)⟩

theorem slotPlaces_not_child (child : OsString) :
    ∀ place ∈ slotPlaces p slot, ¬ place <+: p.root ++ [child] := by
  have long : ∀ first second : OsString, ¬ p.root ++ [first, second] <+: p.root ++ [child] := by
    intro first second reaches
    have longer := reaches.length_le
    simp at longer
  exact forall_slotPlaces.mpr ⟨(apart_destination_root slot.1 [child]).1,
    long _ _, long _ _, long _ _⟩

theorem Mid.change (mid : Mid p pages fs) (member : slot ∈ p.slots)
    (within : places ⊆ slotPlaces p slot) (same : SameOutside places fs after)
    (known : p.IsKnown after slot) : Mid p pages after := by
  have unchanged : ∀ path, (∀ place ∈ slotPlaces p slot, ¬ place <+: path) →
      after.entry path = fs.entry path :=
    fun path away => same.entry path fun place membership => away place (within membership)
  have child : ∀ name, after.entry (p.root ++ [name]) = fs.entry (p.root ++ [name]) :=
    fun name => unchanged _ (slotPlaces_not_child name)
  have above : ∀ path, path <+: p.root → after.entry path = fs.entry path := by
    intro path reaches
    refine unchanged path fun place membership inside => ?_
    exact slotPlaces_not_child (.utf8 "discard") place membership
      (inside.trans (reaches.trans (prefix_append _ _)))
  refine ⟨mid.journaled.congr ?_ ?_ ?_, ?_, ?_, ?_⟩
  · exact above _ (prefix_refl _)
  · exact above _ (prefix_append _ _)
  · exact fun name => .inl (child name)
  · intro path outsideRoot outsideOutput
    rw [unchanged path, mid.outside path outsideRoot outsideOutput]
    exact slotPlaces_outside
      (fun reaches => outsideOutput ((prefix_append _ _).trans reaches)) outsideRoot
  · intro path inside away
    rw [unchanged path, mid.rest path inside away]
    exact slotPlaces_outside (away slot.1 (mem_entries_of_slot member))
      (not_root_reaches_output inside)
  · intro other otherMember
    by_cases this : other = slot
    · exact this ▸ known
    · exact (sameSlot_of_sameOutside member otherMember this within same).isKnown
        (mid.slot other otherMember)

theorem subtree_below_added (absent : fs.entry (p.root ++ [area]) = none)
    (new : Added (p.root ++ [area]) .directory fs after) (other name : OsString) :
    after.subtree (p.root ++ [other, name]) = fs.subtree (p.root ++ [other, name]) := by
  by_cases this : other = area
  · subst this
    have vacant := entry_append_eq_none absent [name]
    have empty := entry_below_leaf new.placed name
    exact subtree_eq_of_vacant empty vacant
  · exact new.same.subtree_one (apart_of_diverging p.root (fun same => this same.symm) [] [name])

theorem Mid.addArea (member : area ∈ areaNames)
    (mid : Mid p pages fs) (absent : fs.entry (p.root ++ [area]) = none)
    (new : Added (p.root ++ [area]) .directory fs after) :
    Mid p pages after ∧ ∀ slot, SameSlot p fs after slot := by
  have unchanged : ∀ path, ¬ p.root ++ [area] <+: path → after.entry path = fs.entry path :=
    fun path => new.same.entry_one
  have below := subtree_below_added absent new
  have same : ∀ slot, SameSlot p fs after slot := by
    intro slot
    refine ⟨?_, below _ _, entry_of_subtree (below _ _),
      staged_eq slot.1 ▸ below _ _⟩
    exact new.same.subtree_one (apart_destination_root slot.1 _).symm
  refine ⟨⟨mid.journaled.congr ?_ ?_ ?_, ?_, ?_, ?_⟩, same⟩
  · exact unchanged _ not_child_reaches_self
  · refine unchanged _ ?_
    intro reaches
    exact not_child_reaches_self (reaches.trans (prefix_append _ _))
  · intro child
    by_cases this : child = area
    · subst this
      exact .inr ⟨member, .inr new.entry⟩
    · exact .inl (unchanged _ (not_child_reaches this))
  · intro path outsideRoot outsideOutput
    rw [unchanged path fun reaches => outsideRoot ((prefix_append _ _).trans reaches),
      mid.outside path outsideRoot outsideOutput]
  · intro path inside away
    rw [unchanged path ?_, mid.rest path inside away]
    exact fun reaches => not_root_reaches_output inside
      ((prefix_append _ _).trans reaches)
  · intro slot member
    exact (same slot).isKnown (mid.slot slot member)

/-- At most room for discarded outputs was made. -/
def Still (p : PreparedTransaction) (pages : Pages) (fs after : Files) : Prop :=
  Mid p pages after ∧ ∀ slot, SameSlot p fs after slot

def Touched (p : PreparedTransaction) (pages : Pages) (slot : JournalEntry × Nat)
    (fs after : Files) : Prop :=
  Mid p pages after ∧ ∀ other ∈ p.slots, other ≠ slot → SameSlot p fs after other

theorem SameSlot.refl (slot : JournalEntry × Nat) : SameSlot p fs fs slot :=
  ⟨rfl, rfl, rfl, rfl⟩

theorem SameSlot.trans (early : SameSlot p fs middle slot)
    (late : SameSlot p middle after slot) : SameSlot p fs after slot :=
  ⟨late.destination.trans early.destination, late.backup.trans early.backup,
    late.discard.trans early.discard, late.staged.trans early.staged⟩

theorem SameSlot.symm (same : SameSlot p fs after slot) : SameSlot p after fs slot :=
  ⟨same.destination.symm, same.backup.symm, same.discard.symm, same.staged.symm⟩

theorem Mid.still (mid : Mid p pages fs) : Still p pages fs fs :=
  ⟨mid, SameSlot.refl⟩

theorem Still.touched (still : Still p pages fs after) (slot : JournalEntry × Nat) :
    Touched p pages slot fs after :=
  ⟨still.1, fun other _ _ => still.2 other⟩

theorem Touched.trans (early : Touched p pages slot fs middle)
    (late : Touched p pages slot middle after) : Touched p pages slot fs after :=
  ⟨late.1, fun other member differs =>
    (early.2 other member differs).trans (late.2 other member differs)⟩

theorem Mid.touch (mid : Mid p pages fs) (member : slot ∈ p.slots)
    (within : places ⊆ slotPlaces p slot) (same : SameOutside places fs after)
    (known : p.IsKnown after slot) : Touched p pages slot fs after :=
  ⟨mid.change member within same known, fun _ otherMember differs =>
    sameSlot_of_sameOutside member otherMember differs within same⟩

end Slots

section Rules

variable [Sha256] {p : PreparedTransaction} {pages : Pages} {slot : JournalEntry × Nat}
  {post : Post (List String)}

theorem Mid.wp_retire {post : Post Unit} (mid : Mid p pages fs)
    (truthful : E.Truthful) (present : (fs.entry (p.destination slot.1)).isSome)
    (vacant : fs.entry (discardPath p.root slot.2) = none)
    (safe : ∀ after, Still p pages fs after → E.Safe (post ∘ .error) after)
    (moved : ∀ room after, Still p pages fs room →
      Renamed (p.destination slot.1) (discardPath p.root slot.2) room after →
      E.crash after ∧ post (.ok ()) after) :
    (ensureParentAndMove p.space (p.destination slot.1) (discardPath p.root slot.2)).run.wp E post
      fs := by
  have above : parent (discardPath p.root slot.2) = p.root ++ [.utf8 "discard"] := by
    rw [discardPath, append_cons]
    exact dropLast_concat
  have move : ∀ room, Still p pages fs room →
      room.entry (p.root ++ [.utf8 "discard"]) = some .directory →
      (do
        let occupied ← directExists p.space (discardPath p.root slot.2)
        failIf occupied (.new "offprint.export.output" .commit
          "export rollback retention path is already occupied")
        let _ ← durableRename (p.destination slot.1) (discardPath p.root slot.2) :
          Durable Unit).run.wp E post room := by
    intro room still directory
    have free : room.entry (discardPath p.root slot.2) = none :=
      (still.2 slot).discard.trans vacant
    refine wp_bind (wp_directExists truthful (safe room still)
      (still.1.journaled.clear (by decide) _) ?_)
    rw [free]
    refine wp_bind (wp_failIf (fun occupied => by cases occupied) fun _ => ?_)
    refine wp_bind (wp_durableRename ?_ ?_ free (by rw [above, directory]) ?_ ?_
      (safe room still) ?_)
    · rw [entry_of_subtree (still.2 slot).destination]
      exact present
    · rw [TransactionPlan.destination, parent, dropLast_concat]
      exact still.1.output
    · exact (apart_destination_root slot.1 _).1
    · simp [TransactionPlan.destination]
    · intro after renamed
      obtain ⟨crashesAfter, success⟩ := moved room after still renamed
      exact ⟨crashesAfter, fun _ => success⟩
  unfold ensureParentAndMove ensureParent
  rw [above]
  refine wp_bind (wp_bind (wp_directExists truthful
    (safe fs mid.still) (missing_eq_notFound mid.journaled.directory · []) ?_))
  rcases mid.journaled.area (.utf8 "discard") (by decide) with absent | directory
  · rw [absent]
    refine wp_createDirectory absent ?_ (safe fs mid.still) ?_
    · rw [parent_child]
      exact mid.journaled.directory
    · intro room new
      have still : Still p pages fs room := mid.addArea (by decide) absent new
      exact ⟨safe room still, move room still new.entry⟩
  · rw [directory]
    exact move fs mid.still directory

section

variable (member : slot ∈ p.slots)
include member

theorem PreparedTransaction.original_eq (existed : slot.1.existed = true) :
    ∃ found, p.files.entry (p.destination slot.1) = some found ∧
      metadataKind found.metadata = slot.1.previousKind := by
  have entry := mem_entries_of_slot member
  rw [p.existed_eq slot.1 entry] at existed
  obtain ⟨found, located⟩ := Option.isSome_iff_exists.mp existed
  exact ⟨found, located, (p.previousKind_eq slot.1 entry found located).1.symm⟩

theorem PreparedTransaction.original_eq_none (new : slot.1.existed = false) :
    p.files.entry (p.destination slot.1) = none := by
  have entry := mem_entries_of_slot member
  rw [p.existed_eq slot.1 entry] at new
  exact Option.not_isSome_iff_eq_none.mp (by rw [new]; exact Bool.false_ne_true)

theorem PreparedTransaction.staged_isSome : (p.files.entry (p.staged slot.1)).isSome := by
  have kind := p.stagedKind slot.1 (mem_entries_of_slot member)
  split at kind
  · obtain ⟨content, located⟩ := kind
    rw [located]
    rfl
  · rw [kind]
    rfl

theorem isSome_destination_of_isReplaced (replaced : p.IsReplaced fs slot) :
    (fs.entry (p.destination slot.1)).isSome := by
  rw [entry_of_subtree replaced.1]
  exact staged_isSome member

end

theorem backups_directory (present : (fs.entry (backupPath p.root slot.2)).isSome) :
    fs.entry (parent (backupPath p.root slot.2)) = some .directory := by
  rw [backupPath, append_cons] at present ⊢
  exact entry_parent present

/-- A state in which a run may be stopped, and failures may be reported. -/
def Reports (E : Environment (fileInterface OsString))
    (post : Except OffprintError (List String) → Files → Prop) : Files → Prop :=
  E.Safe fun failures after => failures ≠ [] → post (.ok failures) after

omit [Sha256] in
theorem Reports.safe (reports : Reports E post fs) {report : OffprintError → String} :
    E.Safe (fun error after => post (.ok [report error]) after) fs :=
  ⟨reports.crash, fun unreliable _ => reports.failure unreliable _ (cons_ne_nil _ _)⟩

theorem Mid.wp_restoreBackup
    (mid : Mid p pages fs) (member : slot ∈ p.slots) (saved : p.IsSaved fs slot)
    (reports : Reports E post fs)
    (restored : ∀ after, Touched p pages slot fs after → p.IsOriginal after slot →
      E.crash after ∧ post (.ok []) after) :
    (restoreBackup p.space p.root slot.2 slot.1).run.wp E post fs := by
  obtain ⟨existed, vacant, backed⟩ := saved
  obtain ⟨found, located, kind⟩ := original_eq member existed
  have present : fs.entry (backupPath p.root slot.2) = some found :=
    (entry_of_subtree backed).trans located
  have looked := run_metadata present
  refine wp_attempt_bind ?_
  refine wp_bind (wp_perform_ok looked (fun _ _ => rfl) reports.safe ?_)
  refine wp_failIf (fun differs => absurd kind differs) fun _ => ?_
  refine wp_attempt_bind ?_
  refine wp_durableRename (by rw [present]; rfl) (backups_directory (by rw [present]; rfl)) vacant
    ?_ ?_ ?_ reports.safe ?_
  · rw [parent, dropLast_concat]
    exact mid.output
  · exact (apart_destination_root slot.1 _).2
  · simp [backupPath]
  · intro after renamed
    have original : p.IsOriginal after slot := by
      refine ⟨renamed.moved.trans backed, ?_⟩
      simpa using renamed.left []
    have touched : Touched p pages slot fs after := by
      refine mid.touch member ?_ renamed.same (.inl original)
      simp [slotPlaces, TransactionPlan.destination, TransactionPlan.output]
    obtain ⟨crashesAfter, success⟩ := restored after touched original
    exact ⟨crashesAfter, fun _ => success⟩

theorem Still.retired {room after : Files} (member : slot ∈ p.slots)
    (replaced : p.IsReplaced fs slot) (still : Still p pages fs room)
    (renamed : Renamed (p.destination slot.1) (discardPath p.root slot.2) room after) :
    Touched p pages slot fs after ∧
      if slot.1.existed then p.IsSaved after slot else p.IsOriginal after slot := by
  have gone : after.entry (p.destination slot.1) = none := by
    simpa using renamed.left []
  have kept : after.subtree (backupPath p.root slot.2) = fs.subtree (backupPath p.root slot.2) := by
    refine (renamed.same.subtree_two (apart_destination_root _ _) ?_).trans
      (still.2 slot).backup
    exact apart_areas (by decide) _ _
  have settled : if slot.1.existed then p.IsSaved after slot else p.IsOriginal after slot := by
    have backed := replaced.2.2
    split
    · next existed =>
      rw [if_pos existed] at backed
      exact ⟨existed, gone, kept.trans backed⟩
    · next new =>
      rw [if_neg new] at backed
      have absent := original_eq_none member (Bool.not_eq_true _ ▸ new)
      exact ⟨subtree_eq_of_vacant gone absent, (entry_of_subtree kept).trans backed⟩
  refine ⟨(still.touched slot).trans (still.1.touch member ?_ renamed.same ?_), settled⟩
  · simp [slotPlaces]
  · split at settled
    · exact .inr (.inl settled)
    · exact .inl settled

/-- A slot on its way back: what is original stays so. -/
structure Undoing (p : PreparedTransaction) (pages : Pages) (slot : JournalEntry × Nat)
    (fs after : Files) : Prop where
  touched : Touched p pages slot fs after
  kept : p.IsOriginal fs slot → p.IsOriginal after slot

/-- An original that looks like its replacement. -/
def Stuck (p : PreparedTransaction) (fs : Files) (slot : JournalEntry × Nat) : Prop :=
  p.IsOriginal fs slot ∧ slot.1.existed = true ∧
    matchesEntry p.limits slot.1 (p.original slot.1) = true

theorem Undoing.of_backup {after : Files} (touched : Touched p pages slot fs after)
    (present : (fs.entry (backupPath p.root slot.2)).isSome) : Undoing p pages slot fs after := by
  refine ⟨touched, ?_⟩
  intro original
  rw [original.2] at present
  cases present

theorem not_stuck_of_backup (present : (fs.entry (backupPath p.root slot.2)).isSome) :
    ¬ Stuck p fs slot := by
  intro stuck
  rw [stuck.1.2] at present
  cases present

theorem isSome_backup_of_saved (member : slot ∈ p.slots) (existed : slot.1.existed = true)
    (backed : fs.subtree (backupPath p.root slot.2) = p.original slot.1) :
    (fs.entry (backupPath p.root slot.2)).isSome := by
  obtain ⟨found, located, _⟩ := original_eq member existed
  rw [(entry_of_subtree backed).trans located]
  rfl

theorem Mid.wp_restore (mid : Mid p pages fs) (member : slot ∈ p.slots) (saved : p.IsSaved fs slot)
    (crashes : ∀ after, Touched p pages slot fs after → E.crash after)
    (done : ∀ failures after, Touched p pages slot fs after →
      (failures = [] → p.IsOriginal after slot) → (E.Reliable → failures = []) →
      post (.ok failures) after) :
    (restoreBackup p.space p.root slot.2 slot.1).run.wp E post fs := by
  have here := mid.still.touched slot
  refine mid.wp_restoreBackup member saved ⟨crashes fs here, ?_⟩ ?_
  · intro unreliable failures some
    exact done failures fs here (fun none => absurd none some)
      fun reliable => absurd reliable unreliable
  · intro after touched original
    exact ⟨crashes after touched, done [] after touched (fun _ => original) fun _ => rfl⟩

theorem not_isOriginal_of_isReplaced
    (member : slot ∈ p.slots) (replaced : p.IsReplaced fs slot) : ¬ p.IsOriginal fs slot := by
  intro original
  have backed := replaced.2.2
  split at backed
  · next existed =>
    have present := isSome_backup_of_saved member existed backed
    rw [original.2] at present
    cases present
  · next new =>
    have arrived := isSome_destination_of_isReplaced member replaced
    rw [entry_of_subtree original.1,
      original_eq_none member (Bool.not_eq_true _ ▸ new)] at arrived
    cases arrived

variable (mid : Mid p pages fs) (member : slot ∈ p.slots) (truthful : E.Truthful)
include mid member truthful

/-- A replacement is recognised and moved out of the way. -/
theorem Mid.wp_retract {next : Durable (List String)} {changed : String}
    {lost : OffprintError → String}
    (replaced : p.IsReplaced fs slot)
    (reports : ∀ after, Touched p pages slot fs after → Reports E post after)
    (retracted : ∀ after, Touched p pages slot fs after →
      (if slot.1.existed then p.IsSaved after slot else p.IsOriginal after slot) →
      next.run.wp E post after) : (do
      if ← pathMatchesEntry (p.destination slot.1) slot.1 p.limits then
        match ← (ensureParentAndMove p.space (p.destination slot.1)
          (discardPath p.root slot.2)).attempt with
        | .error error => return [lost error]
        | .ok () => next
      else
        return [changed] : Durable (List String)).run.wp E post fs := by
  have here := mid.still.touched slot
  refine wp_bind (wp_pathMatchesEntry ?_ (reports fs here).crash ?_)
  · exact mid.output
  intro matched truth
  have accepted := p.accepted slot.1 (mem_entries_of_slot member)
  rw [replaced.1] at truth
  cases matched with
  | false =>
    exact (reports fs here).failure
      (fun reliable => Bool.false_ne_true ((truth reliable).trans accepted)) _
      (cons_ne_nil _ _)
  | true =>
    refine wp_attempt_bind (mid.wp_retire truthful
      (isSome_destination_of_isReplaced member replaced) replaced.2.1 ?_ ?_)
    · exact fun after still => (reports after (still.touched slot)).safe
    · intro room after still renamed
      obtain ⟨touched, settled⟩ := still.retired member replaced renamed
      exact ⟨(reports after touched).crash, retracted after touched settled⟩

theorem Mid.wp_rollbackEntry
    (crashes : ∀ after, Undoing p pages slot fs after → E.crash after)
    (done : ∀ failures after, Undoing p pages slot fs after →
      (failures = [] → p.IsOriginal after slot) →
      (E.Reliable → (failures = [] ↔ ¬ Stuck p fs slot)) → post (.ok failures) after) :
    (rollbackEntry p.space p.root p.limits slot.2 slot.1).run.wp E post fs := by
  have here : Undoing p pages slot fs fs := ⟨mid.still.touched slot, id⟩
  have reports : ∀ after, Undoing p pages slot fs after → Reports E post after := by
    refine fun after undoing => ⟨crashes after undoing, fun unreliable failures some => ?_⟩
    exact done failures after undoing (fun none => absurd none some)
      fun reliable => absurd reliable unreliable
  have output : fs.entry (parent (p.destination slot.1)) = some .directory := by
    exact mid.output
  refine wp_attempt_bind (wp_directExists truthful
    (reports fs here).safe (mid.journaled.clear (by decide) _) ?_)
  refine wp_attempt_bind (wp_directExists truthful
    (reports fs here).safe (missing_eq_notFound mid.output · []) ?_)
  dsimp only
  rw [show p.space.outputDirectory ++ [.utf8 slot.1.destinationName] =
    p.destination slot.1 from rfl]
  rcases mid.slot slot member with original | saved | replaced
  · have same : fs.entry (p.destination slot.1) = p.files.entry (p.destination slot.1) :=
      entry_of_subtree original.1
    rw [original.2, if_neg (by simp)]
    by_cases existed : slot.1.existed = true
    · obtain ⟨found, located, _⟩ := original_eq member existed
      rw [if_pos existed, same, located, if_neg (by simp)]
      refine wp_bind (wp_pathMatchesEntry output (crashes fs here) ?_)
      intro matched truth
      rw [original.1] at truth
      cases matched with
      | true =>
        refine done _ fs here (fun none => absurd none (cons_ne_nil _ _)) ?_
        intro reliable
        simp [Stuck, original, existed, ← truth reliable]
      | false =>
        refine done _ fs here (fun _ => original) ?_
        intro reliable
        simp [Stuck, ← truth reliable]
    · rw [if_neg existed, same,
        original_eq_none member (Bool.not_eq_true _ ▸ existed),
        if_pos (by simp)]
      refine done [] fs here (fun _ => original) ?_
      simp [Stuck, existed]
  · have present := isSome_backup_of_saved member saved.1 saved.2.2
    rw [if_pos present, saved.2.1, if_neg (by simp)]
    refine mid.wp_restore member saved ?_ ?_
    · intro after touched
      exact crashes after (Undoing.of_backup touched present)
    · intro failures after touched original whole
      refine done failures after (Undoing.of_backup touched present) original ?_
      intro reliable
      exact iff_of_true (whole reliable) (not_stuck_of_backup present)
  · have arrived := isSome_destination_of_isReplaced member replaced
    have unclaimed := not_isOriginal_of_isReplaced member replaced
    have undoing : ∀ after, Touched p pages slot fs after → Undoing p pages slot fs after :=
      fun after touched => ⟨touched, fun original => absurd original unclaimed⟩
    have unstuck : ¬ Stuck p fs slot := fun stuck => unclaimed stuck.1
    have backed := replaced.2.2
    by_cases existed : slot.1.existed = true
    · rw [if_pos existed] at backed
      rw [if_pos (isSome_backup_of_saved member existed backed), if_pos arrived]
      refine mid.wp_retract member truthful replaced
        (fun after touched => reports after (undoing after touched)) ?_
      intro after touched settled
      rw [if_pos existed] at settled
      refine touched.1.wp_restore member settled ?_ ?_
      · exact fun final later => crashes final (undoing final (touched.trans later))
      · intro failures final later original whole
        refine done failures final (undoing final (touched.trans later)) original ?_
        exact fun reliable => iff_of_true (whole reliable) unstuck
    · rw [if_neg existed] at backed
      rw [backed, if_neg (by simp), if_neg existed, if_neg (by simp [arrived])]
      refine mid.wp_retract member truthful replaced
        (fun after touched => reports after (undoing after touched)) ?_
      intro after touched settled
      rw [if_neg existed] at settled
      exact done [] after (undoing after touched) (fun _ => settled)
        fun _ => iff_of_true rfl unstuck

end Rules
end Offprint.Artifact
