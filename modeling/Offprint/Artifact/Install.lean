import Offprint.Artifact.Settle

/-!
# Installing outputs

A commit moves the old outputs into their backups and then brings the staged ones in,
or swaps the whole directory.  At every moment the outputs are accounted for, and when
it is done every destination holds what was staged for it.
-/

namespace Offprint.Artifact

open Data Effect Model Action TransactionPlan PreparedTransaction FileSystem List

variable {E : Environment (fileInterface OsString)} {fs after : Files} [Sha256]
  {p : PreparedTransaction} {injector : FaultInjector} {slot : JournalEntry × Nat}
  {places : List Path}

section Request

namespace PreparedTransaction

variable (p : PreparedTransaction)

def artifact (entry : JournalEntry) : StagedArtifact :=
  ⟨p.destination entry, p.staged entry, entry⟩

def artifacts : List StagedArtifact :=
  p.entries.map p.artifact

/-- The request a prepared transaction is committed with. -/
def request (journal : JournalStore) : CommitRequest :=
  ⟨p.space, p.root, journal, p.artifacts, p.conflict, p.mode, p.limits⟩

theorem zipIdx_artifacts :
    p.artifacts.zipIdx = p.slots.map fun slot => (p.artifact slot.1, slot.2) := by
  rw [artifacts, zipIdx_map]
  rfl

end PreparedTransaction

/-- The pages of a transaction that is changing outputs. -/
def mutatingPages : Pages := fun sequence =>
  if sequence = 0 then .full .staging else if sequence = 1 then .full .prepared
  else if sequence = 2 then .full .mutating else .absent

end Request

section Faults

omit [Sha256]

variable {α : Type} {invariant : Files → Prop} {failed : OffprintError × FaultAction → Files → Prop}

theorem wp_lift
    {action : Durable α} {post : Except (OffprintError × FaultAction) α → Files → Prop} :
    (Mutation.lift action).run.wp E post fs ↔ action.run.wp E (fun result after =>
      post (result.mapError fun error => (error, .error)) after) fs := by
  rw [Mutation.lift, ExceptT.run_mk, ← bind_pure_comp, Program.wp_bind]
  rfl

/-- What may stop a mutation: the environment, or a fault point. -/
def Cause (E : Environment (fileInterface OsString)) (injector : FaultInjector)
    (error : OffprintError × FaultAction) : Prop :=
  ¬ E.Reliable ∧ error.2 = .error ∨
    ∃ point action, injector point = some action ∧ error = (injectedFault point action, action)

/-- A crash, and a failure that has a cause, may leave what keeps the invariant. -/
structure Tolerates (E : Environment (fileInterface OsString)) (injector : FaultInjector)
    (invariant : Files → Prop) (failed : OffprintError × FaultAction → Files → Prop) : Prop where
  crash : ∀ after, invariant after → E.crash after
  failure : ∀ error after, invariant after → Cause E injector error → failed error after

theorem Tolerates.mono {other : Files → Prop} (tolerates : Tolerates E injector invariant failed)
    (implies : ∀ state, other state → invariant state) : Tolerates E injector other failed :=
  ⟨fun after holds => tolerates.crash after (implies after holds),
    fun error after holds => tolerates.failure error after (implies after holds)⟩

theorem Tolerates.safe (tolerates : Tolerates E injector invariant failed) (holds : invariant fs) :
    E.Safe (fun error => failed (error, .error)) fs :=
  ⟨tolerates.crash fs holds, fun unreliable _ =>
    tolerates.failure _ fs holds (.inl ⟨unreliable, rfl⟩)⟩

theorem Tolerates.wp_reach
    {point : FaultPoint} {post : Except (OffprintError × FaultAction) Unit → Files → Prop}
    (tolerates : Tolerates E injector invariant fun error => post (.error error))
    (holds : invariant fs) (passed : post (.ok ()) fs) :
    (reach injector point).run.wp E post fs := by
  unfold reach
  cases found : injector point with
  | none => exact passed
  | some action => exact tolerates.failure _ fs holds (.inr ⟨point, action, found, rfl⟩)

end Faults

section Sweep

/-- A transaction that is changing outputs for the first time. -/
structure Entering (p : PreparedTransaction) (fs : Files) : Prop where
  mid : Mid p mutatingPages fs
  room : fs.entry (p.root ++ [.utf8 "discard"]) = none
  fresh : fs.entry p.discardOutput = none

theorem Entering.change (entering : Entering p fs) (member : slot ∈ p.slots)
    (within : places ⊆ slotPlaces p slot) (same : SameOutside places fs after)
    (known : p.IsKnown after slot) : Entering p after := by
  have child : ∀ name, after.entry (p.root ++ [name]) = fs.entry (p.root ++ [name]) :=
    fun name => same.entry _ fun place membership =>
      slotPlaces_not_child name place (within membership)
  exact ⟨entering.mid.change member within same known, (child _).trans entering.room,
    (child _).trans entering.fresh⟩

/-- A property of slots that only the places of the slot decide. -/
def Stable (p : PreparedTransaction) (state : Files → JournalEntry × Nat → Prop) : Prop :=
  ∀ fs after slot, SameSlot p fs after slot → state fs slot → state after slot

/-- A loop over the slots: some wait, the others are done. -/
structure Sweep (p : PreparedTransaction) (before done : Files → JournalEntry × Nat → Prop)
    (remaining : List (JournalEntry × Nat)) (fs : Files) : Prop where
  entering : Entering p fs
  member : ∀ slot ∈ remaining, slot ∈ p.slots
  distinct : remaining.Nodup
  waiting : ∀ slot ∈ remaining, before fs slot
  finished : ∀ slot ∈ p.slots, slot ∉ remaining → done fs slot

variable {before done : Files → JournalEntry × Nat → Prop} {remaining : List (JournalEntry × Nat)}

theorem Sweep.skip (sweep : Sweep p before done (slot :: remaining) fs) (now : done fs slot) :
    Sweep p before done remaining fs := by
  obtain ⟨entering, member, distinct, waiting, finished⟩ := sweep
  refine ⟨entering, fun other later => member other (mem_cons_of_mem _ later),
    (nodup_cons.mp distinct).2, fun other later =>
    waiting other (mem_cons_of_mem _ later),
    ?_⟩
  intro other otherMember visited
  by_cases this : other = slot
  · exact this ▸ now
  · exact finished other otherMember (by simp [this, visited])

theorem Sweep.advance (stableBefore : Stable p before) (stableDone : Stable p done)
    (sweep : Sweep p before done (slot :: remaining) fs) (within : places ⊆ slotPlaces p slot)
    (same : SameOutside places fs after) (known : p.IsKnown after slot) (now : done after slot) :
    Sweep p before done remaining after := by
  obtain ⟨entering, member, distinct, waiting, finished⟩ := sweep
  have here := member slot mem_cons_self
  have others : ∀ other ∈ p.slots, other ≠ slot → SameSlot p fs after other :=
    fun other otherMember differs => sameSlot_of_sameOutside here otherMember differs within same
  refine ⟨entering.change here within same known,
    fun other later => member other (mem_cons_of_mem _ later), (nodup_cons.mp distinct).2,
    ?_, ?_⟩
  · intro other later
    have otherMember := member other (mem_cons_of_mem _ later)
    refine stableBefore fs after other (others other otherMember ?_)
      (waiting other (mem_cons_of_mem _ later))
    rintro rfl
    exact (nodup_cons.mp distinct).1 later
  · intro other otherMember visited
    by_cases this : other = slot
    · exact this ▸ now
    · exact stableDone fs after other (others other otherMember this)
        (finished other otherMember (by simp [this, visited]))

end Sweep

section Entries

variable {journal : JournalStore} {remaining : List (JournalEntry × Nat)}
  {post : Except (OffprintError × FaultAction) Unit → Files → Prop}

def Fresh (p : PreparedTransaction) (fs : Files) (slot : JournalEntry × Nat) : Prop :=
  p.IsOriginal fs slot ∧ fs.subtree (p.staged slot.1) = p.payload slot.1

def Ready (p : PreparedTransaction) (fs : Files) (slot : JournalEntry × Nat) : Prop :=
  (if slot.1.existed then p.IsSaved fs slot else p.IsOriginal fs slot) ∧
    fs.subtree (p.staged slot.1) = p.payload slot.1

theorem stable_fresh : Stable p (Fresh p) := by
  intro fs after slot same fresh
  exact ⟨same.isOriginal fresh.1, same.staged.trans fresh.2⟩

theorem stable_ready : Stable p (Ready p) := by
  rintro fs after slot same ⟨ready, staged⟩
  refine ⟨?_, same.staged.trans staged⟩
  by_cases existed : slot.1.existed = true
  · rw [if_pos existed] at ready ⊢
    exact same.isSaved ready
  · rw [if_neg existed] at ready ⊢
    exact same.isOriginal ready

theorem stable_isReplaced : Stable p p.IsReplaced :=
  fun _ _ _ same replaced => same.isReplaced replaced

theorem Entering.output (entering : Entering p fs) : fs.entry p.output = some .directory :=
  entering.mid.output

theorem Sweep.wp_backUp (sweep : Sweep p (Fresh p) (Ready p) (slot :: remaining) fs)
    (tolerates : Tolerates E injector (Entering p) fun error => post (.error error))
    (backups : fs.entry (p.root ++ [.utf8 "backups"]) = some .directory)
    (success : ∀ after, Sweep p (Fresh p) (Ready p) remaining after →
      after.entry (p.root ++ [.utf8 "backups"]) = some .directory → post (.ok ()) after) :
    (backUp (p.request journal) injector (p.artifact slot.1) slot.2).run.wp E post fs := by
  have member := sweep.member slot mem_cons_self
  obtain ⟨⟨same, unsaved⟩, staged⟩ := sweep.waiting slot mem_cons_self
  unfold backUp PreparedTransaction.artifact PreparedTransaction.request
  by_cases existed : slot.1.existed = true
  · rw [if_pos existed]
    obtain ⟨found, located, _⟩ := original_eq member existed
    have present : fs.entry (p.destination slot.1) = some found :=
      (entry_of_subtree same).trans located
    refine wp_bind (wp_lift.mpr (wp_durableRename (by rw [present]; rfl) ?_
      unsaved ?_ ?_ ?_ (tolerates.safe sweep.entering) ?_))
    · exact (congrArg fs.entry (parent_destination slot.1)).trans sweep.entering.output
    · rw [backupPath, append_cons, parent, dropLast_concat]
      exact backups
    · exact (apart_destination_root slot.1 _).1
    · exact append_ne_nil_of_right_ne_nil _ (cons_ne_nil _ _)
    · intro after renamed
      have within : [p.destination slot.1, backupPath p.root slot.2] ⊆ slotPlaces p slot := by
        simp [slotPlaces]
      have saved : p.IsSaved after slot := by
        refine ⟨existed, ?_, renamed.moved.trans same⟩
        simpa using renamed.left []
      have kept : after.subtree (p.staged slot.1) = p.payload slot.1 := by
        rw [renamed.same.subtree_two (apart_destination_staged _ _)
          (apart_backup_staged _ _), staged]
      have ready : Ready p after slot := ⟨by rw [if_pos existed]; exact saved, kept⟩
      have next := sweep.advance stable_fresh stable_ready within renamed.same
        (.inr (.inl saved)) ready
      refine ⟨tolerates.crash after next.entering, fun _ => tolerates.wp_reach next.entering ?_⟩
      refine success after next ?_
      rw [renamed.same.entry _ fun place membership =>
        slotPlaces_not_child _ place (within membership), backups]
  · rw [if_neg existed]
    refine success fs (sweep.skip ⟨?_, staged⟩) backups
    rw [if_neg existed]
    exact ⟨same, unsaved⟩

theorem Ready.vacant (ready : Ready p fs slot) (member : slot ∈ p.slots) :
    fs.entry (p.destination slot.1) = none := by
  have backed := ready.1
  by_cases existed : slot.1.existed = true
  · rw [if_pos existed] at backed
    exact backed.2.1
  · rw [if_neg existed] at backed
    exact (entry_of_subtree backed.1).trans
      (original_eq_none member (Bool.not_eq_true _ ▸ existed))

theorem Ready.installed (ready : Ready p fs slot) (entering : Entering p fs)
    (within : places ⊆ [p.staged slot.1, p.destination slot.1]) (same : SameOutside places fs after)
    (arrived : after.subtree (p.destination slot.1) = fs.subtree (p.staged slot.1)) :
    p.IsReplaced after slot := by
  have away : ∀ path, Apart (p.staged slot.1) path → Apart (p.destination slot.1) path →
      ∀ place ∈ places, ¬ place <+: path ∧ ¬ path <+: place := by
    intro path staged destination place member
    have either := within member
    simp only [mem_cons, not_mem_nil, or_false] at either
    rcases either with rfl | rfl
    · exact staged
    · exact destination
  have backup : after.subtree (backupPath p.root slot.2) = fs.subtree (backupPath p.root slot.2) :=
    same.subtree _ (away _ (apart_backup_staged _ _).symm
      (apart_destination_root _ _))
  refine ⟨arrived.trans ready.2, ?_, ?_⟩
  · rw [same.entry _ fun place member => (away _ (apart_discard_staged _ _).symm
      (apart_destination_root _ _) place member).1, discardPath,
      append_cons]
    exact entry_append_eq_none entering.room _
  · have backed := ready.1
    by_cases existed : slot.1.existed = true
    · rw [if_pos existed] at backed ⊢
      exact backup.trans backed.2.2
    · rw [if_neg existed] at backed ⊢
      exact (entry_of_subtree backup).trans backed.2

theorem Sweep.wp_install (sweep : Sweep p (Ready p) p.IsReplaced (slot :: remaining) fs)
    (tolerates : Tolerates E injector (Entering p) fun error => post (.error error))
    (success : ∀ after, Sweep p (Ready p) p.IsReplaced remaining after → post (.ok ()) after) :
    (install injector (p.artifact slot.1) slot.2).run.wp E post fs := by
  have member := sweep.member slot mem_cons_self
  have ready := sweep.waiting slot mem_cons_self
  have vacant := ready.vacant member
  have kind := p.stagedKind slot.1 (mem_entries_of_slot member)
  rw [← entry_of_subtree ready.2] at kind
  have present : (fs.entry (p.staged slot.1)).isSome := by
    rw [entry_of_subtree ready.2]
    exact staged_isSome member
  have above : fs.entry (parent (p.staged slot.1)) = some .directory := by
    exact entry_parent present
  have directory : fs.entry (parent (p.destination slot.1)) = some .directory := by
    exact sweep.entering.output
  have arrive : ∀ places after, places ⊆ [p.staged slot.1, p.destination slot.1] →
      SameOutside places fs after →
      after.subtree (p.destination slot.1) = fs.subtree (p.staged slot.1) →
      E.crash after ∧ (reach injector (.afterCommit slot.2)).run.wp E post after := by
    intro places after within same arrived
    have replaced := ready.installed sweep.entering within same arrived
    have inside : places ⊆ slotPlaces p slot := by
      refine List.Subset.trans within ?_
      simp [slotPlaces]
    have next := sweep.advance stable_ready stable_isReplaced inside same
      (.inr (.inr replaced)) replaced
    exact ⟨tolerates.crash after next.entering,
      tolerates.wp_reach next.entering (success after next)⟩
  unfold install PreparedTransaction.artifact
  cases output : slot.1.outputKind with
  | file =>
    rw [output] at kind
    obtain ⟨content, located⟩ := kind
    refine wp_bind (wp_lift.mpr (wp_durableHardLink located above vacant directory
      (tolerates.safe sweep.entering) ?_))
    intro after linked
    exact (arrive _ after (by simp) linked.same linked.linked).imp_right fun next _ => next
  | directory =>
    refine wp_bind (wp_lift.mpr (wp_durableRename present above vacant directory
      (apart_destination_staged _ _).2 ?_ (tolerates.safe sweep.entering) ?_))
    · exact append_ne_nil_of_right_ne_nil _ (cons_ne_nil _ _)
    · intro after renamed
      exact (arrive _ after (by simp) renamed.same renamed.moved).imp_right fun next _ => next

theorem Entering.addBackups
    (entering : Entering p fs) (absent : fs.entry (p.root ++ [.utf8 "backups"]) = none)
    (new : FileOp.Added (p.root ++ [.utf8 "backups"]) .directory fs after) :
    Entering p after ∧ ∀ slot, SameSlot p fs after slot := by
  obtain ⟨mid, same⟩ := entering.mid.addArea (by decide) absent new
  have unchanged : ∀ name, name ≠ .utf8 "backups" →
      after.entry (p.root ++ [name]) = fs.entry (p.root ++ [name]) :=
    fun name differs => new.same.entry_one (not_child_reaches differs)
  exact ⟨⟨mid, (unchanged _ (by decide)).trans entering.room,
    (unchanged _ (by decide)).trans entering.fresh⟩, same⟩

theorem sweep_start {before done : Files → JournalEntry × Nat → Prop} (entering : Entering p fs)
    (waiting : ∀ slot ∈ p.slots, before fs slot) : Sweep p before done p.slots fs :=
  ⟨entering, fun _ => id, List.Nodup.of_map _ (nodup_zipIdx_map_snd _), waiting,
    fun _ member visited => absurd member visited⟩

theorem forM_artifacts (action : StagedArtifact × Nat → Mutation PUnit) :
    p.artifacts.zipIdx.forM action =
      p.slots.forM fun slot => action (p.artifact slot.1, slot.2) := by
  rw [p.zipIdx_artifacts]
  exact forM_map

section

variable (entering : Entering p fs)
  (tolerates : Tolerates E injector (Entering p) fun error => post (.error error))
  (fresh : ∀ slot ∈ p.slots, Fresh p fs slot)
  (bare : fs.entry (p.root ++ [.utf8 "backups"]) = none)
include entering tolerates fresh bare

theorem Entering.wp_backUpAll
    (success : ∀ after, Entering p after → (∀ slot ∈ p.slots, Ready p after slot) →
      post (.ok ()) after) : (backUpAll (p.request journal) injector).run.wp E post fs := by
  unfold backUpAll
  by_cases replaces : ((p.request journal).artifacts.any fun artifact =>
    artifact.entry.existed) = true
  · rw [if_pos replaces]
    refine wp_bind (wp_lift.mpr (wp_createDirectory bare ?_ (tolerates.safe entering) ?_))
    · exact (congrArg fs.entry (p.parent_child _)).trans entering.mid.journaled.directory
    · intro room new
      obtain ⟨there, same⟩ := entering.addBackups bare new
      refine ⟨tolerates.safe there, ?_⟩
      rw [show (p.request journal).artifacts = p.artifacts from rfl, forM_artifacts]
      refine wp_forM (fun remaining state => Sweep p (Fresh p) (Ready p) remaining state ∧
        state.entry (p.root ++ [.utf8 "backups"]) = some .directory) ?_ ?_ ?_
      · rintro slot remaining state ⟨sweep, backups⟩
        exact sweep.wp_backUp tolerates backups fun after next kept => ⟨next, kept⟩
      · rintro state ⟨sweep, _⟩
        exact success state sweep.entering fun slot member =>
          sweep.finished slot member not_mem_nil
      · exact ⟨sweep_start there fun slot member =>
          stable_fresh fs room slot (same slot) (fresh slot member), new.entry⟩
  · rw [if_neg replaces]
    refine success fs entering ?_
    intro slot member
    have untouched := fresh slot member
    refine ⟨?_, untouched.2⟩
    rw [if_neg]
    · exact untouched.1
    · intro existed
      refine replaces (any_eq_true.mpr ⟨p.artifact slot.1, ?_, existed⟩)
      exact mem_map_of_mem (mem_entries_of_slot member)

theorem Entering.wp_commitEntries
    (success : ∀ after, Entering p after → (∀ slot ∈ p.slots, p.IsReplaced after slot) →
      post (.ok ()) after) : (commitEntries (p.request journal) injector).run.wp E post fs := by
  refine wp_bind (entering.wp_backUpAll tolerates fresh bare ?_)
  intro saved there ready
  rw [show (p.request journal).artifacts = p.artifacts from rfl, forM_artifacts]
  refine wp_forM (Sweep p (Ready p) p.IsReplaced) ?_ ?_ (sweep_start there ready)
  · intro slot remaining state sweep
    exact sweep.wp_install tolerates fun _ next => next
  · intro state sweep
    exact success state sweep.entering fun slot member =>
      sweep.finished slot member not_mem_nil

end

end Entries

section Swap

variable {journal : JournalStore}
  {post : Except (OffprintError × FaultAction) Unit → Files → Prop} {message : String}

/-- A transaction that is swapping the output directory for the first time. -/
structure Swapping (p : PreparedTransaction) (fs : Files) : Prop where
  journaled : Journaled p.toTransactionPlan mutatingPages fs
  outside : p.Outside fs
  swap : ∃ swap, p.SwapIs fs swap
  fresh : fs.entry p.discardOutput = none

omit [Sha256] in
theorem reading_outputDirectoryIsEmpty (path : Path) (stage : ErrorStage) :
    (outputDirectoryIsEmpty path stage).run.Reading := by
  refine each_bind ?_ fun direct => ?_
  · exact each_bind (reading_perform rfl _) fun _ => each_pure _
  · refine each_bind (each_failIf _ _) fun _ => ?_
    exact each_bind (reading_perform rfl _) fun _ => each_pure _

omit [Sha256] in
theorem exec_ensureEmpty {path : Path} (directory : fs.entry path = some .directory)
    (empty : ∀ child, fs.entry (path ++ [child]) = none) :
    (ensureEmpty path message).run.exec fs = (.ok (), fs) := by
  have inspected := FileOp.run_metadata directory
  have listed := FileOp.run_readDirectory directory
  rw [children_eq_nil_iff.mpr empty] at listed
  have direct : (directDirectory path .commit).run.exec fs = (.ok true, fs) := by
    unfold directDirectory
    rw [exec_run_bind_of_ok (exec_perform_ok inspected)]
    rfl
  have found : (outputDirectoryIsEmpty path .commit).run.exec fs = (.ok true, fs) := by
    unfold outputDirectoryIsEmpty
    rw [exec_run_bind_of_ok direct, exec_run_bind_of_ok (exec_failIf nofun _),
      exec_run_bind_of_ok (exec_perform_ok listed)]
    rfl
  unfold ensureEmpty
  rw [exec_run_bind_of_ok found]
  exact exec_failIf nofun _

omit [Sha256] in
theorem wp_ensureEmpty {path : Path} {post : Post Unit} (only : fs.subtree path = leaf .directory)
    (safe : E.Safe (post ∘ .error) fs) (success : post (.ok ()) fs) :
    (ensureEmpty path message).run.wp E post fs := by
  refine wp_check (Program.Reading.observing ?_) ?_ safe success
  · exact each_bind (reading_outputDirectoryIsEmpty _ _) fun _ => each_failIf _ _
  · rw [exec_ensureEmpty (entry_of_leaf only) (entry_below_leaf only)]

theorem Swapping.wp_commitDirectorySwap (swapping : Swapping p fs)
    (tolerates : Tolerates E injector (Swapping p) fun error => post (.error error))
    (untouched : p.SwapIs fs .untouched)
    (staged : fs.subtree p.stagedOutput = p.files.subtree p.stagedOutput)
    (success : ∀ after, Swapping p after → p.SwapIs after .replaced → post (.ok ()) after) :
    (commitDirectorySwap (p.request journal) injector).run.wp E post fs := by
  have distinct : ∀ {first second : String}, first ≠ second →
      p.root ++ [.utf8 first] ≠ p.root ++ [.utf8 second] := by
    intro first second differs same
    simp [differs] at same
  refine wp_bind (wp_lift.mpr (swapPlace_output.wp_rename swapPlace_previous
    swapping.journaled swapping.outside (output_ne_area _) (entry_of_leaf untouched.1) untouched.2
    (tolerates.safe swapping) ?_))
  intro between renamed journaled outside
  have away : ∀ {path}, SwapPlace p path → path ≠ p.output → path ≠ p.previous →
      between.subtree path = fs.subtree path := swapPlace_output.kept swapPlace_previous renamed
  have moved : p.SwapIs between .moved := by
    refine ⟨?_, renamed.moved.trans untouched.1⟩
    simpa using renamed.left []
  have waiting : between.subtree p.stagedOutput = p.files.subtree p.stagedOutput :=
    (away swapPlace_stagedOutput (output_ne_area _).symm (distinct (by decide))).trans staged
  have there : Swapping p between := by
    refine ⟨journaled, outside, ⟨_, moved⟩, ?_⟩
    exact (entry_of_subtree (away swapPlace_discardOutput (output_ne_area _).symm
      previous_ne_discardOutput.symm)).trans swapping.fresh
  have safe := tolerates.safe there
  refine ⟨safe.crash, fun _ => wp_bind (Tolerates.wp_reach (by exact tolerates) there ?_)⟩
  refine wp_bind (wp_lift.mpr (wp_ensureEmpty moved.2 safe ?_))
  refine wp_bind (wp_lift.mpr (swapPlace_stagedOutput.wp_rename swapPlace_output
    journaled outside (output_ne_area _).symm ?_ moved.1 safe ?_))
  · exact (entry_of_subtree waiting).trans p.stagedOutput_eq
  · intro after arrived journaledAfter outsideAfter
    have kept : ∀ {path}, SwapPlace p path → path ≠ p.stagedOutput → path ≠ p.output →
        after.subtree path = between.subtree path :=
      swapPlace_stagedOutput.kept swapPlace_output arrived
    have fresh : after.entry p.discardOutput = none :=
      (entry_of_subtree (kept swapPlace_discardOutput (distinct (by decide))
        (output_ne_area _).symm)).trans there.fresh
    have replaced : p.SwapIs after .replaced :=
      ⟨arrived.moved.trans waiting, (kept swapPlace_previous (distinct (by decide))
        (output_ne_area _).symm).trans moved.2, fresh⟩
    have settled : Swapping p after := ⟨journaledAfter, outsideAfter, ⟨_, replaced⟩, fresh⟩
    exact ⟨tolerates.crash after settled, fun _ =>
      tolerates.wp_reach settled (success after settled replaced)⟩

end Swap

section Mutate

/-- A transaction that is changing outputs and has not begun to roll back. -/
structure Mutating (p : PreparedTransaction) (fs : Files) : Prop where
  journaled : Journaled p.toTransactionPlan mutatingPages fs
  working : p.Working fs
  fresh : fs.entry p.discardOutput = none

theorem Entering.mutating (entries : p.mode = .entries) (entering : Entering p fs) :
    Mutating p fs := by
  obtain ⟨journaled, working⟩ := (mid_iff entries).mp entering.mid
  exact ⟨journaled, working, entering.fresh⟩

theorem Swapping.mutating (swap : p.mode = .directorySwap) (swapping : Swapping p fs) :
    Mutating p fs :=
  ⟨swapping.journaled, (working_swap_iff swap).mpr ⟨swapping.outside, swapping.swap⟩,
    swapping.fresh⟩

theorem PreparedTransaction.bare_child
    {child : OsString} (member : child ∈ areaNames) (other : child ≠ .utf8 "staged-output")
    (rest : Path) : p.files.entry (p.root ++ child :: rest) = none := by
  exact entry_append_eq_none (p.bare child member other) rest

theorem PreparedTransaction.restored_files : p.Restored p.files := by
  cases mode : p.mode with
  | entries =>
    refine (restored_entries_iff mode).mpr ⟨fun _ _ _ => rfl, fun _ _ _ => rfl, ?_⟩
    exact fun slot _ => ⟨rfl, bare_child (by decide) (by decide) _⟩
  | directorySwap =>
    refine (restored_swap_iff mode).mpr ⟨fun _ _ _ => rfl, ?_, ?_⟩
    · exact subtree_eq_leaf p.output_eq (p.emptied mode)
    · exact p.bare _ (by decide) (by decide)

theorem Alike.staged (alike : Alike p fs after) (entry : JournalEntry) :
    after.subtree (p.staged entry) = fs.subtree (p.staged entry) :=
  staged_eq entry ▸ alike.area _ (by decide) _

theorem Alike.bare (alike : Alike p p.files fs) {child : OsString} (member : child ∈ areaNames)
    (other : child ≠ .utf8 "staged-output") : fs.entry (p.root ++ [child]) = none :=
  (entry_of_subtree (alike.area child member [])).trans (p.bare child member other)

variable {post : Except (OffprintError × FaultAction) Unit → Files → Prop}

/-- The journal of a transaction that is changing outputs. -/
def PreparedTransaction.mutatingStore (p : PreparedTransaction) : JournalStore :=
  ⟨p.root, p.snapshot .mutating 2, 3⟩

theorem PreparedTransaction.Delivered.wp_validateCommittedOutputs {post : Post Unit}
    (delivered : p.Delivered fs) (safe : E.Safe (post ∘ .error) fs) (success : post (.ok ()) fs) :
    (validateCommittedOutputs (p.request p.mutatingStore)).run.wp E post fs := by
  unfold validateCommittedOutputs PreparedTransaction.request mutatingStore
    snapshot
  cases mode : p.mode with
  | entries =>
    refine wp_check (Program.Reading.observing (each_forM fun artifact _ =>
      reading_validateEntryPath _ artifact.entry p.limits)) ?_ safe success
    refine congrArg Prod.fst (exec_forM_ok fun artifact membership => ?_)
    obtain ⟨entry, member, rfl⟩ := mem_map.mp membership
    refine exec_validateEntryPath ?_ (delivered.accepted mode member)
    exact (congrArg fs.entry (parent_destination entry)).trans delivered.output
  | directorySwap =>
    obtain ⟨_, same⟩ := (delivered_swap_iff mode).mp delivered
    refine wp_check (reading_validateCompleteOutputSet _).observing ?_ safe success
    exact congrArg Prod.fst (complete_staged.transfer same).exec_validate

theorem wp_mutateOutputs
    (journaled : Journaled p.toTransactionPlan mutatingPages fs) (alike : Alike p p.files fs)
    (tolerates : Tolerates E injector (Mutating p) fun error => post (.error error))
    (success : ∀ after, Mutating p after → p.Delivered after → post (.ok ()) after) :
    (mutateOutputs (p.request p.mutatingStore) injector).run.wp E post fs := by
  have restored := alike.kept.restored restored_files
  have fresh : fs.entry p.discardOutput = none := alike.bare (by decide) (by decide)
  have started : Mutating p fs := ⟨journaled, restored.working, fresh⟩
  have finish : ∀ state, Mutating p state → p.Delivered state →
      (Mutation.lift (validateCommittedOutputs (p.request p.mutatingStore))).run.wp
      E post state := by
    intro state mutating delivered
    exact wp_lift.mpr (delivered.wp_validateCommittedOutputs (tolerates.safe mutating)
      (success state mutating delivered))
  refine wp_bind (Tolerates.wp_reach (by exact tolerates) started ?_)
  cases mode : p.mode with
  | entries =>
    rw [show (p.request p.mutatingStore).mode = _ from mode]
    have entering : Entering p fs :=
      ⟨(mid_iff mode).mpr ⟨journaled, restored.working⟩, alike.bare (by decide) (by decide), fresh⟩
    obtain ⟨_, _, originals⟩ := (restored_entries_iff mode).mp restored
    refine wp_bind (entering.wp_commitEntries
      (tolerates.mono fun _ there => there.mutating mode)
      ?_ (alike.bare (by decide) (by decide)) ?_)
    · exact fun slot member => ⟨originals slot member, alike.staged slot.1⟩
    · intro after there replaced
      refine finish after (there.mutating mode) ?_
      exact (delivered_entries_iff mode).mpr ⟨there.mid.outside, there.mid.rest,
        fun slot member => (replaced slot member).1⟩
  | directorySwap =>
    rw [show (p.request p.mutatingStore).mode = _ from mode]
    obtain ⟨outside, untouched⟩ := (restored_swap_iff mode).mp restored
    have swapping : Swapping p fs := ⟨journaled, outside, ⟨_, untouched⟩, fresh⟩
    refine wp_bind (swapping.wp_commitDirectorySwap
      (tolerates.mono fun _ there => there.mutating mode)
      untouched (alike.area _ (by decide) []) ?_)
    intro after there replaced
    refine finish after (there.mutating mode) ?_
    exact (delivered_swap_iff mode).mpr ⟨there.outside, replaced.1⟩

end Mutate
end Offprint.Artifact
