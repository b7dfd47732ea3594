import Offprint.Artifact.Completion

/-!
# Staging

What a staging that succeeded has done.  It starts from an arbitrary file system, so
nothing is known in advance; every success tells what must have been there, and
what a successful staging leaves is a prepared transaction.
-/

namespace Offprint.Artifact

open Data Effect Model JournalStore FileOp OsString FileSystem List Action DestinationPlan
open ArtifactTransaction

section Planned

variable {space : TransactionNamespace} {conflict : ConflictPolicy} {fs after : Files} {path : Path}
  {requested name : String} {kind : OutputKind} {plans : List DestinationPlan}

theorem metadata_of_directMetadata {metadata : Option Metadata}
    (done : (directMetadata path).run.exec fs = (.ok metadata, after)) :
    metadata = (fs.entry path).map Entry.metadata := by
  obtain ⟨result, middle, looking, rest⟩ := of_exec_bind done
  rw [performIo, ExceptT.run_lift, ← bind_pure_comp, Program.exec_bind, program,
    Program.operation, Program.exec_of_reads rfl] at looking
  cases looking
  cases located : fs.entry path with
  | none =>
    simp only [FileOp.run, located, Except.map] at rest
    split at rest
    · next same => cases same
    · cases rest
      rfl
    · cases rest
  | some found =>
    simp only [FileOp.run, located, Except.map] at rest
    obtain ⟨_, _, _, returned⟩ := of_exec_bind rest
    cases returned
    rfl

structure Planned (space : TransactionNamespace) (conflict : ConflictPolicy) (fs : Files)
    (entry : JournalEntry) : Prop where
  existed : entry.existed =
    (fs.entry (space.outputDirectory ++ [.utf8 entry.destinationName])).isSome
  kind : ∀ found, fs.entry (space.outputDirectory ++ [.utf8 entry.destinationName]) = some found →
    entry.previousKind = metadataKind found.metadata ∧ entry.previousKind.isSome
  fresh : conflict ≠ .replace → entry.existed = false

theorem reading_uniquify (path : Path) (requested : String) (kind : OutputKind)
    (suffix remaining : Nat) : (uniquify path requested kind suffix remaining).run.Reading := by
  induction remaining generalizing suffix with
  | zero => exact each_throw _
  | succ remaining ih =>
    refine each_bind (reading_directMetadata _) fun metadata => ?_
    cases metadata with
    | none => exact each_pure _
    | some metadata => exact ih _

theorem vacant_of_uniquify {suffix remaining : Nat}
    (done : (uniquify path requested kind suffix remaining).run.exec fs = (.ok name, after)) :
    fs.entry (path ++ [.utf8 name]) = none := by
  induction remaining generalizing suffix with
  | zero => cases done
  | succ remaining ih =>
    obtain ⟨metadata, looking, rest⟩ := of_reading_bind (reading_directMetadata _) done
    cases metadata with
    | none =>
      cases rest
      exact Option.map_eq_none_iff.mp (metadata_of_directMetadata looking).symm
    | some metadata => exact ih rest

theorem reading_resolveDestination (requested : String) (kind : OutputKind) :
    (resolveDestination space requested kind conflict).run.Reading := by
  cases conflict with
  | fail =>
    refine each_bind (reading_directMetadata _) fun _ => ?_
    exact each_bind (each_failIf _ _) fun _ => each_pure _
  | replace =>
    refine each_bind (reading_directMetadata _) fun _ => ?_
    refine each_bind (each_failIf _ _) fun _ => ?_
    exact each_bind (each_failIf _ _) fun _ => each_pure _
  | uniquify => exact each_bind (reading_uniquify _ _ _ _ _) fun _ => each_pure _

theorem planned_of_resolveDestination {existed : Bool}
    {previousKind : Option OutputKind}
    (done : (resolveDestination space requested kind conflict).run.exec fs =
      (.ok (name, existed, previousKind), after))
    {entry : JournalEntry} (named : entry.destinationName = name)
    (known : entry.existed = existed) (kinded : entry.previousKind = previousKind) :
    Planned space conflict fs entry := by
  have vacant : fs.entry (space.outputDirectory ++ [.utf8 name]) = none → existed = false →
      Planned space conflict fs entry := by
    intro absent missing
    refine ⟨by rw [known, named, absent, missing]; rfl, ?_, fun _ => known.trans missing⟩
    intro found located
    rw [named, absent] at located
    cases located
  cases conflict with
  | fail =>
    obtain ⟨metadata, middle, looking, rest⟩ := of_exec_bind done
    obtain ⟨_, _, checking, returned⟩ := of_exec_bind rest
    cases returned
    refine vacant ?_ rfl
    have absent := passed_of_failIf checking
    rw [metadata_of_directMetadata looking, Option.isSome_map, Option.not_isSome_iff_eq_none]
      at absent
    exact absent
  | uniquify =>
    obtain ⟨unique, middle, searching, returned⟩ := of_exec_bind done
    cases returned
    exact vacant (vacant_of_uniquify searching) rfl
  | replace =>
    obtain ⟨metadata, middle, looking, rest⟩ := of_exec_bind done
    obtain ⟨_, _, checking, rest⟩ := of_exec_bind rest
    obtain ⟨_, _, _, returned⟩ := of_exec_bind rest
    cases returned
    have seen := metadata_of_directMetadata looking
    subst seen
    refine ⟨by rw [known, named, Option.isSome_map], ?_, fun differs => absurd rfl differs⟩
    intro found located
    rw [named] at located
    have supported := passed_of_failIf checking
    rw [located] at supported kinded
    refine ⟨kinded, ?_⟩
    rw [kinded]
    by_contra unknown
    rw [Option.not_isSome_iff_eq_none] at unknown
    exact supported ⟨rfl, unknown⟩

theorem directory_of_outputDirectoryIsEmpty {stage : ErrorStage} {empty : Bool}
    (done : (outputDirectoryIsEmpty path stage).run.exec fs = (.ok empty, after)) :
    fs.entry path = some .directory ∧
      (empty = true → ∀ child, fs.entry (path ++ [child]) = none) := by
  obtain ⟨_, _, rest⟩ :=
    of_reading_bind (each_bind (reading_perform rfl _) fun _ => each_pure _) done
  obtain ⟨_, rest⟩ := of_failIf_bind rest
  obtain ⟨names, _, listing, returned⟩ := of_exec_bind rest
  have performed := run_of_perform listing
  simp only [FileOp.run] at performed
  split at performed
  · next located =>
    cases performed
    cases returned
    refine ⟨located, ?_⟩
    intro empty child
    exact leaf_of_children_eq_nil (isEmpty_iff.mp empty) child
  · cases performed
  · cases performed

variable [Sha256]

theorem planned_of_planDestination {artifact : PreparedArtifact} {plan : DestinationPlan}
    (done : (planDestination space conflict artifact).run.exec fs = (.ok plan, after)) :
    after = fs ∧ Planned space conflict fs plan.entry ∧
      plan.destination = space.outputDirectory ++ [.utf8 plan.entry.destinationName] := by
  obtain ⟨resolved, middle, resolving, returned⟩ := of_exec_bind done
  cases returned
  exact ⟨same_of_reading (reading_resolveDestination _ _) resolving,
    planned_of_resolveDestination resolving rfl rfl rfl, rfl⟩

theorem planned_of_mapM {prepared : List PreparedArtifact}
    (done : (prepared.mapM (planDestination space conflict)).run.exec fs = (.ok plans, after)) :
    after = fs ∧ ∀ plan ∈ plans, Planned space conflict fs plan.entry ∧
      plan.destination = space.outputDirectory ++ [.utf8 plan.entry.destinationName] := by
  induction prepared generalizing plans with
  | nil =>
    cases done
    exact ⟨rfl, fun plan member => nomatch member⟩
  | cons artifact prepared ih =>
    rw [mapM_cons] at done
    obtain ⟨plan, middle, planning, rest⟩ := of_exec_bind done
    obtain ⟨others, last, continuing, returned⟩ := of_exec_bind rest
    cases returned
    obtain ⟨rfl, first⟩ := planned_of_planDestination planning
    obtain ⟨rfl, later⟩ := ih continuing
    exact ⟨rfl, forall_mem_cons.mpr ⟨first, later⟩⟩

theorem planned_of_planDestinations {prepared : List PreparedArtifact} {mode : CommitMode}
    (done : (planDestinations space conflict prepared).run.exec fs = (.ok (mode, plans), after)) :
    after = fs ∧ (∀ plan ∈ plans, Planned space conflict fs plan.entry ∧
        plan.destination = space.outputDirectory ++ [.utf8 plan.entry.destinationName]) ∧
      fs.entry space.outputDirectory = some .directory ∧
      (mode = .directorySwap → ∀ child, fs.entry (space.outputDirectory ++ [child]) = none) := by
  obtain ⟨found, middle, planning, rest⟩ := of_exec_bind done
  obtain ⟨empty, inspecting, returned⟩ :=
    of_reading_bind (reading_outputDirectoryIsEmpty _ _) rest
  cases returned
  obtain ⟨rfl, planned⟩ := planned_of_mapM planning
  obtain ⟨directory, vacant⟩ := directory_of_outputDirectoryIsEmpty inspecting
  refine ⟨rfl, planned, directory, ?_⟩
  intro swapped
  cases empty with
  | true => exact vacant rfl
  | false => cases swapped

end Planned

section Staged

variable [Sha256] {fs after : Files} {limits : ArtifactTransactionLimits} {stagedOutput root : Path}
  {artifacts : List StagedArtifact} {path : Path} {verification : FormatVerification} {value : Unit}

omit [Sha256] in
theorem ok_of_forM
    {α : Type} {check : α → Durable PUnit} (reading : ∀ element, (check element).run.Reading)
    {elements : List α} (done : (elements.forM check).run.exec fs = (.ok ⟨⟩, after)) :
    after = fs ∧ ∀ element ∈ elements, ((check element).run.exec fs).1 = .ok ⟨⟩ := by
  induction elements with
  | nil =>
    cases done
    exact ⟨rfl, fun element member => nomatch member⟩
  | cons element elements ih =>
    obtain ⟨_, first, rest⟩ := of_reading_bind (reading element) done
    obtain ⟨same, later⟩ := ih rest
    exact ⟨same, forall_mem_cons.mpr ⟨by rw [first], later⟩⟩

theorem confined_stageDirectory (path : Path) (directory : ArtifactDirectory) :
    (stageDirectory path directory).run.Confined (path <+: ·) := by
  refine each_bind (confined_createDirectory (prefix_refl path) _) fun _ => ?_
  refine each_bind (each_forM fun relative _ =>
    confined_createDirectory (prefix_append path _) _) fun _ => ?_
  refine each_bind (each_forM fun file _ =>
    confined_writeNewFile (prefix_append path _) _ _) fun _ => ?_
  refine each_bind (each_forM fun relative _ => confined_syncDirectory _ _) fun _ => ?_
  exact confined_syncDirectory _ _

/-- The artifact that a staging leaves for a plan. -/
def DestinationPlan.staged (stagedOutput : Path) (plan : DestinationPlan) : StagedArtifact :=
  ⟨plan.destination, stagedOutput ++ [.utf8 plan.entry.destinationName], plan.entry⟩

theorem confined_stageArtifact (pair : PreparedArtifact × DestinationPlan) :
    (stageArtifact stagedOutput limits pair).run.Confined
      ((pair.2.staged stagedOutput).stagedPath <+: ·) := by
  unfold stageArtifact
  cases pair.1.payload with
  | file bytes =>
    refine each_bind (confined_writeNewFile (prefix_refl _) _ _) ?_
    exact fun _ => each_pure _
  | directory entrypoint directory =>
    refine each_bind (each_except _) fun _ => ?_
    exact each_bind (confined_stageDirectory _ _) fun _ => each_pure _

theorem value_of_stageArtifact
    {pair : PreparedArtifact × DestinationPlan} {artifact : StagedArtifact}
    (done : (stageArtifact stagedOutput limits pair).run.exec fs = (.ok artifact, after)) :
    artifact = pair.2.staged stagedOutput := by
  unfold stageArtifact at done
  split at done
  · obtain ⟨_, _, _, returned⟩ := of_exec_bind done
    cases returned
    rfl
  · obtain ⟨_, _, _, rest⟩ := of_exec_bind done
    obtain ⟨_, _, _, returned⟩ := of_exec_bind rest
    cases returned
    rfl

theorem staged_of_mapM {pairs : List (PreparedArtifact × DestinationPlan)}
    (done : (pairs.mapM (stageArtifact stagedOutput limits)).run.exec fs = (.ok artifacts, after)) :
    artifacts = pairs.map (fun pair => pair.2.staged stagedOutput) ∧
      ∀ path, (∀ pair ∈ pairs, ¬ (pair.2.staged stagedOutput).stagedPath <+: path) →
        after.entry path = fs.entry path := by
  induction pairs generalizing fs artifacts with
  | nil =>
    cases done
    exact ⟨rfl, fun _ _ => rfl⟩
  | cons pair pairs ih =>
    rw [mapM_cons] at done
    obtain ⟨artifact, middle, staging, rest⟩ := of_exec_bind done
    obtain ⟨others, last, continuing, returned⟩ := of_exec_bind rest
    cases returned
    obtain ⟨rfl, kept⟩ := ih continuing
    obtain rfl := value_of_stageArtifact staging
    refine ⟨rfl, ?_⟩
    intro path outside
    rw [forall_mem_cons] at outside
    have first := (@confined_stageArtifact _ limits stagedOutput pair).entry
      (fun place within reaches => outside.1 (within.trans reaches)) fs
    rw [staging] at first
    rw [kept path outside.2, first]

structure StagedIn (stagedOutput : Path) (plans : List DestinationPlan) (before after : Files) :
    Prop where
  absent : before.entry stagedOutput = none
  directory : after.entry stagedOutput = some .directory
  outside : ∀ path, ¬ stagedOutput <+: path → after.entry path = before.entry path
  names : ∀ child, (after.entry (stagedOutput ++ [child])).isSome →
    ∃ plan ∈ plans, child = .utf8 plan.entry.destinationName

theorem staged_of_stageArtifacts {prepared : List PreparedArtifact} {plans : List DestinationPlan}
    (done : (stageArtifacts root prepared plans limits).run.exec fs = (.ok artifacts, after)) :
    artifacts = plans.map (staged (root ++ [.utf8 "staged-output"])) ∧
      StagedIn (root ++ [.utf8 "staged-output"]) plans fs after := by
  obtain ⟨checking, rest⟩ := of_failIf_bind done
  obtain ⟨_, created, creating, rest⟩ := of_exec_bind rest
  obtain ⟨staged, middle, staging, rest⟩ := of_exec_bind rest
  obtain ⟨_, _, syncing, returned⟩ := of_exec_bind rest
  cases returned
  obtain rfl := same_of_syncDirectory syncing
  obtain ⟨absent, new⟩ := added_of_createDirectory creating
  obtain ⟨rfl, kept⟩ := staged_of_mapM staging
  have lengths := not_not.mp checking
  have seconds : (prepared.zip plans).map Prod.snd = plans :=
    map_snd_zip (Nat.le_of_eq lengths.symm)
  have below : ∀ plan : DestinationPlan, root ++ [.utf8 "staged-output"] <+:
      (plan.staged (root ++ [.utf8 "staged-output"])).stagedPath :=
    fun plan => prefix_append _ _
  refine ⟨?_, absent, ?_, ?_, ?_⟩
  · nth_rewrite 2 [← seconds]
    rw [map_map]
    rfl
  · rw [kept _ fun pair _ reaches => ?_, new.entry]
    exact not_child_reaches_self reaches
  · intro path outside
    rw [kept path fun pair _ reaches => outside ((below pair.2).trans reaches)]
    exact new.same.entry_one outside
  · intro child present
    by_contra unplanned
    rw [kept _ fun pair member reaches => ?_] at present
    · rw [← entry_subtree, new.placed] at present
      simp [leaf, FileSystem.entry] at present
    · have planned : pair.2 ∈ plans := seconds ▸ mem_map_of_mem member
      have differs : utf8 pair.2.entry.destinationName ≠ child :=
        fun same => unplanned ⟨pair.2, planned, same.symm⟩
      exact (apart_of_diverging (root ++ [utf8 "staged-output"]) differs [] []).1 reaches

omit [Sha256] in
theorem found_of_metadata {wrap : IoError → OffprintError} {metadata : Metadata}
    (done : (perform (.metadata path) wrap).run.exec fs = (.ok metadata, after)) :
    ∃ found, fs.entry path = some found ∧ metadata = found.metadata := by
  have performed := run_of_perform done
  simp only [FileOp.run] at performed
  split at performed
  · next found located =>
    cases performed
    exact ⟨found, located, rfl⟩
  · cases performed

theorem file_of_validateFile {maximumBytes : UInt64}
    (done : (validateFile path verification maximumBytes).run.exec fs = (.ok value, after)) :
    ∃ content, fs.entry path = some (.file content) := by
  obtain ⟨_, _, inspecting, _⟩ := of_exec_bind done
  obtain ⟨metadata, _, looking, rest⟩ := of_exec_bind inspecting
  obtain ⟨_, _, checking, _⟩ := of_exec_bind rest
  obtain ⟨found, located, rfl⟩ := found_of_metadata looking
  have regular := not_not.mp (passed_of_failIf checking)
  cases found with
  | file content => exact ⟨content, located⟩
  | directory | symlink | special => cases regular

theorem directory_of_validateDirectory
    {expected : Nat}
    (done : (validateDirectory path expected verification limits).run.exec fs =
      (.ok value, after)) : fs.entry path = some .directory := by
  obtain ⟨checked, rest⟩ := of_failIf_bind done
  obtain ⟨_, _, collecting, _⟩ := of_exec_bind rest
  obtain ⟨metadata, _, looking, rest⟩ := of_exec_bind collecting
  obtain ⟨_, _, checking, _⟩ := of_exec_bind rest
  obtain ⟨found, located, rfl⟩ := found_of_metadata looking
  have direct := not_not.mp (passed_of_failIf checking)
  cases found with
  | directory => exact located
  | file content => cases direct
  | symlink | special => cases direct

theorem kind_of_matchesEntry
    {entry : JournalEntry} {tree : Files} (accepted : matchesEntry limits entry tree = true) :
    match entry.outputKind with
    | .file => ∃ content, tree.entry [] = some (.file content)
    | .directory => tree.entry [] = some .directory := by
  unfold matchesEntry at accepted
  rcases done : (validateEntryPath [] entry limits).run.exec tree with ⟨result, state⟩
  rw [done] at accepted
  unfold validateEntryPath at done
  cases result with
  | error error => cases accepted
  | ok value =>
    cases kind : entry.outputKind with
    | file =>
      rw [kind] at done
      exact file_of_validateFile done
    | directory =>
      rw [kind] at done
      exact directory_of_validateDirectory done

omit [Sha256] in
theorem written_of_persist {store next : JournalStore} {phase : JournalPhase}
    (done : (store.persist phase).run.exec fs = (.ok next, after)) :
    next = ⟨store.root, store.next phase, saturatingSucc store.nextSequence⟩ ∧
      (store.next phase).encode.length ≤ maximumJournalBytes ∧
      fs.entry (store.root ++ [fileName store.nextSequence]) = none ∧
      Added (store.root ++ [fileName store.nextSequence])
        (.file (store.next phase).encode) fs after := by
  obtain ⟨checking, rest⟩ := of_failIf_bind done
  obtain ⟨_, _, writing, returned⟩ := of_exec_bind rest
  cases returned
  have fits := Nat.le_of_not_lt checking
  obtain ⟨absent, new⟩ := added_of_writeNewFile writing
  exact ⟨rfl, fits, absent, new⟩

end Staged

section Prepared

variable {space : TransactionNamespace} {root : Path} {fs after : Files} {mode : CommitMode}
  {drawn : String} {plan : TransactionPlan} {plans : List DestinationPlan} {before created : Files}

theorem exec_of_orCleanUp {α : Type} {action : Durable α} {value : α}
    (done : (orCleanUp space root action).run.exec fs = (.ok value, after)) :
    action.run.exec fs = (.ok value, after) := by
  obtain ⟨result, middle, attempted, rest⟩ := of_exec_bind done
  rw [exec_run_attempt] at attempted
  cases attempted
  rcases early : action.run.exec fs with ⟨outcome, state⟩
  rw [early] at rest
  cases outcome with
  | ok found =>
    cases rest
    rfl
  | error error =>
    obtain ⟨cleaned, _, _, thrown⟩ := of_exec_bind rest
    cases cleaned <;> cases thrown

theorem added_of_createTransactionRoot {name : String}
    (done : (space.createTransactionRoot name).run.exec fs = (.ok root, after)) :
    root = space.path ++ [.utf8 name] ∧ fs.entry root = none ∧
      Added root .directory fs after := by
  obtain ⟨_, _, creating, rest⟩ := of_exec_bind done
  obtain ⟨_, _, first, rest⟩ := of_exec_bind rest
  obtain ⟨_, _, second, returned⟩ := of_exec_bind rest
  cases returned
  obtain rfl := same_of_syncDirectory first
  obtain rfl := same_of_syncDirectory second
  obtain ⟨absent, new⟩ := added_of_run rfl (run_of_perform creating)
  exact ⟨rfl, absent, new⟩

theorem valid_of_new {identity : String} {entries : List JournalEntry} {store : JournalStore}
    (done : JournalStore.new (space.path ++ [.utf8 (transactionPrefix ++ drawn)]) identity mode
      entries = .ok store) :
    validateEntries entries = .ok () ∧
      store = ⟨space.path ++ [.utf8 (transactionPrefix ++ drawn)],
        ⟨journalSchemaVersion, transactionPrefix ++ drawn, identity, 0, .staging, mode, entries⟩,
        0⟩ := by
  have named : transactionPrefix.toList.isPrefixOf (transactionPrefix ++ drawn).toList = true := by
    rw [String.toList_append, isPrefixOf_iff_prefix]
    exact prefix_append _ _
  simp only [JournalStore.new, getLast?_concat, toStr, Option.bind_eq_bind,
    Option.bind_some, named, if_true] at done
  cases checked : validateEntries entries with
  | ok value =>
    rw [checked] at done
    cases done
    exact ⟨rfl, rfl⟩
  | error error =>
    rw [checked] at done
    cases done

/-- What stands under a name in a transaction directory that has been filled. -/
def filledChild (plan : TransactionPlan) (child : OsString) : Option Entry :=
  if child = JournalStore.fileName 1 then some (.file (plan.snapshot .prepared 1).encode)
  else if child = .utf8 "staged-output" then some .directory
  else if child = JournalStore.fileName 0 then some (.file (plan.snapshot .staging 0).encode)
  else none

variable [Sha256] {limits : ArtifactTransactionLimits} {conflict : ConflictPolicy}

/-- What filling a transaction directory leaves. -/
structure Filled (plan : TransactionPlan) (limits : ArtifactTransactionLimits)
    (before after : Files) : Prop where
  fits : plan.fits .staging 0 ∧ plan.fits .prepared 1
  directory : after.entry plan.root = some .directory
  child : ∀ child, after.entry (plan.root ++ [child]) = filledChild plan child
  outside : ∀ path, ¬ plan.root <+: path → after.entry path = before.entry path
  names : ∀ child, (after.entry (plan.stagedOutput ++ [child])).isSome →
    ∃ entry ∈ plan.entries, child = .utf8 entry.destinationName
  accepted : ∀ entry ∈ plan.entries,
    matchesEntry limits entry (after.subtree (plan.staged entry)) = true

theorem filled_of_stages {begun staged : Files}
    (recorded : plan.entries = plans.map entry)
    (creation : Added plan.root .directory before created)
    (beginning : Added (plan.root ++ [fileName 0])
      (.file (plan.snapshot .staging 0).encode) created begun)
    (staging : StagedIn plan.stagedOutput plans begun staged)
    (validated : ∀ entry ∈ plan.entries,
      matchesEntry limits entry (staged.subtree (plan.staged entry)) = true)
    (ending : Added (plan.root ++ [fileName 1])
      (.file (plan.snapshot .prepared 1).encode) staged after)
    (fits : plan.fits .staging 0 ∧ plan.fits .prepared 1) : Filled plan limits before after := by
  have beside : ∀ {first second : OsString}, first ≠ second → ∀ rest,
      ¬ plan.root ++ [first] <+: plan.root ++ second :: rest :=
    fun differs rest => (apart_of_diverging plan.root differs [] rest).1
  refine ⟨fits, ?_, ?_, ?_, ?_, ?_⟩
  · rw [ending.same.entry_one not_child_reaches_self, staging.outside _ not_child_reaches_self,
      beginning.same.entry_one not_child_reaches_self, creation.entry]
  · intro child
    rw [filledChild]
    split
    · next same => rw [same, ending.entry]
    · next last =>
      rw [ending.same.entry_one (beside (Ne.symm last) [])]
      split
      · next same =>
        rw [same]
        exact staging.directory
      · next unstaged =>
        rw [staging.outside _ (beside (Ne.symm unstaged) [])]
        split
        · next same => rw [same, beginning.entry]
        · next first =>
          rw [beginning.same.entry_one (beside (Ne.symm first) []),
            ← entry_subtree, creation.placed]
          simp [leaf, FileSystem.entry]
  · intro path outside
    have further : ∀ name, ¬ plan.root ++ [name] <+: path :=
      fun name reaches => outside ((prefix_append _ _).trans reaches)
    rw [ending.same.entry_one (further _), staging.outside _ (further _),
      beginning.same.entry_one (further _), creation.same.entry_one outside]
  · intro child present
    rw [recorded]
    have stagedName : utf8 "staged-output" ≠ fileName 1 := by decide
    have kept : after.entry (plan.stagedOutput ++ [child]) = _ :=
      ending.same.entry_one (by exact beside (Ne.symm stagedName) [child])
    rw [kept] at present
    obtain ⟨only, member, named⟩ := staging.names child present
    exact ⟨only.entry, mem_map_of_mem member, named⟩
  · intro entry member
    rw [ending.same.subtree_one]
    · exact validated entry member
    · rw [TransactionPlan.staged_eq]
      exact apart_of_diverging plan.root (by decide) _ _

theorem filled_of_stageInto {prepared : List PreparedArtifact} {transaction : ArtifactTransaction}
    (located : ∀ plan ∈ plans,
      plan.destination = space.outputDirectory ++ [.utf8 plan.entry.destinationName])
    (creation : Added (space.path ++ [.utf8 (transactionPrefix ++ drawn)]) .directory
      before created)
    (done : (stageInto space conflict prepared limits mode plans noFault
      (space.path ++ [.utf8 (transactionPrefix ++ drawn)])).run.exec created =
        (.ok transaction, after)) :
    ∃ plan : TransactionPlan, plan.space = space ∧ plan.mode = mode ∧
      plan.entries = plans.map entry ∧ Filled plan limits before after ∧
      transaction = ⟨space, plan.root, ⟨plan.root, plan.snapshot .prepared 1, 2⟩,
        plan.entries.map fun entry => ⟨plan.destination entry, plan.staged entry, entry⟩,
        conflict, mode, limits⟩ := by
  obtain ⟨store, _, building, rest⟩ := of_exec_bind done
  obtain ⟨staging, begun, beginning, rest⟩ := of_exec_bind rest
  obtain ⟨_, _, passing, rest⟩ := of_exec_bind rest
  obtain ⟨artifacts, staged, filling, rest⟩ := of_exec_bind rest
  obtain ⟨_, _, validating, rest⟩ := of_exec_bind rest
  obtain ⟨journal, last, ending, rest⟩ := of_exec_bind rest
  obtain ⟨_, _, passed, returned⟩ := of_exec_bind rest
  cases returned
  cases passing
  cases passed
  have built := exec_of_orCleanUp building
  have newStore : JournalStore.new (space.path ++ [.utf8 (transactionPrefix ++ drawn)])
      space.identity mode (plans.map entry) = .ok store := congrArg Prod.fst built
  obtain rfl := congrArg Prod.snd built
  obtain ⟨valid, rfl⟩ := valid_of_new newStore
  obtain ⟨rfl, first, _, early⟩ := written_of_persist (exec_of_orCleanUp beginning)
  obtain ⟨rfl, area⟩ := staged_of_stageArtifacts (exec_of_orCleanUp filling)
  obtain ⟨rfl, validated⟩ := ok_of_forM (fun artifact => reading_validateEntryPath _ _ _)
    (exec_of_orCleanUp validating)
  obtain ⟨rfl, second, _, late⟩ := written_of_persist (exec_of_orCleanUp ending)
  refine ⟨⟨space, drawn, mode, plans.map entry, valid⟩, rfl, rfl, rfl,
    filled_of_stages rfl creation early area ?_ late ⟨first, second⟩, ?_⟩
  · intro entry member
    obtain ⟨plan, planned, rfl⟩ := mem_map.mp member
    have passes := validated _ (mem_map_of_mem planned)
    refine (validateEntryPath_isOk ?_ _ _).symm.trans (congrArg Except.isOk passes)
    exact (congrArg _ dropLast_concat).trans area.directory
  · rw [map_map]
    congr 1
    refine map_congr_left fun plan planned => ?_
    rw [staged, located plan planned]
    rfl

theorem Filled.journaled (filled : Filled plan limits before after)
    (above : before.entry plan.space.path = some .directory) :
    Journaled plan preparedPages after := by
  have outside : ¬ plan.root <+: plan.space.path := by
    exact not_reaches_parent plan.root_ne_nil
  have areas : ∀ child ∈ areaNames,
      child ≠ fileName 1 ∧ child ≠ fileName 0 := by decide
  refine ⟨filled.directory, by rw [filled.outside _ outside, above], ?_, ?_, ?_⟩
  · intro child present
    rw [filled.child, filledChild] at present
    have listed : fileName 1 ∈ journalNames ∧ fileName 0 ∈ journalNames ∧
        utf8 "staged-output" ∈ areaNames := by decide
    split at present
    · next same => exact .inl (same ▸ listed.1)
    · split at present
      · next same => exact .inr (same ▸ listed.2.2)
      · split at present
        · next same => exact .inl (same ▸ listed.2.1)
        · cases present
  · intro child member
    rw [filled.child, filledChild, if_neg (areas child member).1]
    split
    · exact .inr rfl
    · rw [if_neg (areas child member).2]
      exact .inl rfl
  · intro sequence small
    simp only [sequences, mem_cons, not_mem_nil, or_false] at small
    rcases small with rfl | rfl | rfl | rfl
    · refine ⟨?_, filled.fits.1⟩
      rw [filled.child, filledChild, if_neg (by decide), if_neg (by decide), if_pos rfl]
    · refine ⟨?_, filled.fits.2⟩
      rw [filled.child, filledChild, if_pos rfl]
    all_goals
      refine (filled.child _).trans ?_
      rw [filledChild, if_neg (by decide), if_neg (by decide), if_neg (by decide)]

/-- The transaction that a prepared one is, as its staging hands it over. -/
def PreparedTransaction.transaction (p : PreparedTransaction) : ArtifactTransaction :=
  ⟨p.space, p.root, p.preparedStore, p.artifacts, p.conflict, p.mode, p.limits⟩

theorem prepared_of_stage {prepared : List PreparedArtifact} {transaction : ArtifactTransaction}
    (done : (stage space conflict prepared limits drawn).run.exec fs =
      (.ok transaction, after)) :
    ∃ p : PreparedTransaction, p.files = after ∧ p.transaction = transaction := by
  obtain ⟨_, _, _, rest⟩ := of_exec_bind done
  obtain ⟨_, _, _, rest⟩ := of_exec_bind rest
  obtain ⟨_, _, recovering, rest⟩ := of_exec_bind rest
  obtain ⟨⟨mode, plans⟩, base, planning, rest⟩ := of_exec_bind rest
  obtain ⟨root, created, creating, filling⟩ := of_exec_bind rest
  obtain ⟨above, alone⟩ := alone_of_recoverPendingTransactions recovering
  obtain ⟨rfl, planned, directory, vacant⟩ := planned_of_planDestinations planning
  obtain ⟨rfl, absent, creation⟩ := added_of_createTransactionRoot creating
  obtain ⟨plan, rfl, rfl, recorded, filled, rfl⟩ := filled_of_stageInto
    (fun plan member => (planned plan member).2) creation filling
  have found : ∀ rest, after.entry (plan.output ++ rest) = base.entry (plan.output ++ rest) :=
    fun rest => filled.outside _
      (TransactionPlan.not_root_reaches_output (prefix_append plan.output rest))
  have known : ∀ entry ∈ plan.entries, Planned plan.space conflict base entry := by
    intro entry member
    rw [recorded] at member
    obtain ⟨destination, listed, rfl⟩ := mem_map.mp member
    exact (planned destination listed).1
  have kinds : ∀ entry ∈ plan.entries,
      match entry.outputKind with
      | .file => ∃ content, after.entry (plan.staged entry) = some (.file content)
      | .directory => after.entry (plan.staged entry) = some .directory := by
    intro entry member
    have kind := kind_of_matchesEntry (filled.accepted entry member)
    rw [entry_subtree, append_nil] at kind
    exact kind
  have journaled := filled.journaled above
  refine ⟨⟨plan, conflict, limits, after, ⟨journaled.above, ?_⟩, journaled, ?_, ?_, ?_, ?_,
    filled.accepted, kinds, ?_, ?_, fun differs entry member =>
      (known entry member).fresh differs, ?_⟩, rfl, rfl⟩
  · intro child present
    by_cases own : child = .utf8 plan.name
    · exact .inr own
    · rw [filled.outside _ (not_child_reaches own)] at present
      exact .inl (alone child present)
  · intro child member differs
    have names : ∀ child ∈ areaNames,
        child ≠ fileName 1 ∧ child ≠ fileName 0 := by decide
    rw [filled.child, filledChild, if_neg (names child member).1, if_neg differs,
      if_neg (names child member).2]
  · have same := found []
    exact same.trans directory
  · refine (filled.child _).trans ?_
    rw [filledChild, if_neg (by decide), if_pos rfl]
  · intro child
    refine ⟨filled.names child, ?_⟩
    rintro ⟨entry, member, rfl⟩
    have kind := kinds entry member
    change (after.entry (plan.staged entry)).isSome = true
    split at kind
    · obtain ⟨content, located⟩ := kind
      rw [located]
      rfl
    · rw [kind]
      rfl
  · intro entry member
    rw [(known entry member).existed]
    exact congrArg Option.isSome (found _).symm
  · intro entry member present located
    exact (known entry member).kind present ((found _).symm.trans located)
  · intro swapped child
    exact (found _).trans (vacant swapped child)

end Prepared
end Offprint.Artifact
