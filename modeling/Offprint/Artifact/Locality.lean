import Mathlib.Data.Set.List
import Offprint.Artifact.Plan
import Offprint.Artifact.DurableRules
import Offprint.Effect.Relocation

/-!
# Validation looks at one tree

Whether what stands at a path matches a journal entry depends on the tree at that
path alone, and not on where the tree stands.
-/

namespace Offprint.Artifact

open Data Effect Model Collected FileSystem List Action

section Reading

variable {kind : FileOp OsString → Prop} {op : FileOp OsString}

theorem each_perform (fits : kind op) (wrap : IoError → OffprintError) :
    (perform op wrap).run.Each kind := by
  rw [perform, ExceptT.run_mk, ← bind_pure_comp]
  exact Program.each_bind ⟨fits, fun _ => trivial⟩ fun _ => trivial

theorem reading_perform (reads : op.reads = true)
    (wrap : IoError → OffprintError) : (perform op wrap).run.Reading :=
  each_perform reads wrap

theorem reading_performIo (reads : op.reads = true) : (performIo op).run.Reading := by
  rw [performIo, ExceptT.run_lift, ← bind_pure_comp]
  exact Program.each_bind ⟨reads, fun _ => trivial⟩ fun _ => trivial

theorem each_failIf (bad : Prop) [Decidable bad] (error : OffprintError) :
    (failIf bad error).run.Each kind := by
  unfold failIf
  split
  · exact each_throw error
  · exact each_pure ()

theorem each_except {α : Type} (result : Except OffprintError α) :
    (monadLift result : Durable α).run.Each kind :=
  trivial

end Reading

section Shift

variable (base path : Path) (wrap : IoError → OffprintError)

theorem relocates_metadata :
    Relocates base id (perform (.metadata path) wrap) (perform (.metadata (base ++ path)) wrap) :=
  ⟨reading_perform rfl wrap,
    congrArg (Program.perform _) (funext fun result => by cases result <;> rfl)⟩

theorem relocates_readDirectory : Relocates base id (perform (.readDirectory path) wrap)
      (perform (.readDirectory (base ++ path)) wrap) :=
  ⟨reading_perform rfl wrap,
    congrArg (Program.perform _) (funext fun result => by cases result <;> rfl)⟩

theorem relocates_openFile :
    Relocates base id (perform (.openFile path) wrap) (perform (.openFile (base ++ path)) wrap) :=
  ⟨reading_perform rfl wrap,
    congrArg (Program.perform _) (funext fun result => by cases result <;> rfl)⟩

theorem relocates_readFile :
    Relocates base id (perform (.readFile path) wrap) (perform (.readFile (base ++ path)) wrap) :=
  ⟨reading_perform rfl wrap,
    congrArg (Program.perform _) (funext fun result => by cases result <;> rfl)⟩

theorem relocates_failIf (bad : Prop) [Decidable bad] (error : OffprintError) :
    Relocates base id (failIf bad error) (failIf bad error) := by
  unfold failIf
  split
  · exact ⟨trivial, rfl⟩
  · exact relocates_pure base id ()

theorem relocates_except {α β : Type} (image : α → β) (result : Except OffprintError α) :
    Relocates base image (monadLift result : Durable α)
      (monadLift (result.map image) : Durable β) :=
  ⟨trivial, rfl⟩

theorem relocates_directRegularFile (stage : ErrorStage) :
    Relocates base id (directRegularFile path stage) (directRegularFile (base ++ path) stage) := by
  unfold directRegularFile
  refine (relocates_metadata base path _).bind fun metadata => ?_
  exact (relocates_failIf base _ _).bind fun _ => relocates_pure base id metadata

theorem relocates_hashOpenFile (maximumBytes : Nat) :
    Relocates base id (hashOpenFile path maximumBytes)
    (hashOpenFile (base ++ path) maximumBytes) := by
  unfold hashOpenFile
  refine (relocates_readFile base path _).bind fun content => ?_
  exact (relocates_failIf base _ _).bind fun _ => relocates_pure base id content

/-- What has been collected, seen from above. -/
def Collected.shift (collected : Collected) : Collected where
  pending := collected.pending.map fun pair => (base ++ pair.1, pair.2)
  directories := collected.directories
  files := collected.files.map fun file => (file.1, base ++ file.2)

theorem Collected.count_shift (collected : Collected) (maximumFiles : Nat) (path : Path)
    (relative : String) (kind : FileKind) :
    (collected.shift base).count maximumFiles (base ++ path) relative kind =
      (collected.count maximumFiles path relative kind).map (shift base) := by
  cases kind with
  | symlink | special => rfl
  | file =>
    by_cases full : collected.files.length + 1 > maximumFiles
    · simp only [Collected.count, shift, length_map, if_pos full, Except.map]
    · simp only [Collected.count, shift, length_map, if_neg full, Except.map,
        map_append, map_cons, map_nil]
  | directory =>
    by_cases full : collected.directories.contains relative = true ∨
        collected.directories.length + 1 > maximumFiles
    · have fullAbove : (collected.shift base).directories.contains relative = true ∨
          (collected.shift base).directories.length + 1 > maximumFiles := full
      simp only [Collected.count, if_pos full, if_pos fullAbove, Except.map]
    · have roomAbove : ¬ ((collected.shift base).directories.contains relative = true ∨
          (collected.shift base).directories.length + 1 > maximumFiles) := full
      simp only [Collected.count, if_neg full, if_neg roomAbove]
      rfl

theorem relocates_collectEntry (maximumFiles : Nat) (directory : Path) (relativeDirectory : String)
    (collected : Collected) (name : OsString) : Relocates base (shift base)
      (collectEntry maximumFiles directory relativeDirectory collected name)
      (collectEntry maximumFiles (base ++ directory) relativeDirectory (collected.shift base)
        name) := by
  unfold collectEntry
  have named := relocates_except base id (portableName name)
  rw [show (portableName name).map id = portableName name by cases portableName name <;> rfl]
    at named
  refine named.bind fun text => ?_
  rw [append_assoc]
  refine (relocates_metadata base _ _).bind fun metadata => ?_
  rw [id_eq, id_eq, count_shift]
  exact relocates_except base _ _

theorem relocates_collectPending (maximumFiles rounds : Nat) (collected : Collected) :
    Relocates base (shift base) (collectPending maximumFiles rounds collected)
      (collectPending maximumFiles rounds (collected.shift base)) := by
  induction rounds generalizing collected with
  | zero => exact relocates_pure base _ collected
  | succ rounds ih =>
    obtain ⟨pending, directories, files⟩ := collected
    cases pending with
    | nil => exact relocates_pure base (shift base) ⟨[], directories, files⟩
    | cons pair pending =>
      refine (relocates_readDirectory base pair.1 _).bind fun names => ?_
      refine Relocates.bind ?_ ih
      exact relocates_foldlM_same (relocates_collectEntry base maximumFiles pair.1 pair.2) names
        ⟨pending, directories, files⟩

theorem relocates_collectDirectoryFiles (root : Path) (maximumFiles : Nat) :
    Relocates base (List.map fun file => (file.1, base ++ file.2))
      (collectDirectoryFiles root maximumFiles)
      (collectDirectoryFiles (base ++ root) maximumFiles) := by
  unfold collectDirectoryFiles
  refine (relocates_metadata base root _).bind fun metadata => ?_
  refine (relocates_failIf base _ _).bind fun _ => ?_
  refine (relocates_collectPending base maximumFiles _ _).bind fun collected => ?_
  have expected : (collected.shift base).files.flatMap (fun file => parentDirectories file.1) =
      collected.files.flatMap fun file => parentDirectories file.1 := by
    simp only [shift, flatMap_map]
  rw [expected]
  refine (relocates_failIf base _ _).bind fun _ => ?_
  rw [show (collected.shift base).files = collected.files.map fun file => (file.1, base ++ file.2)
    from rfl, orderFiles_map (base ++ ·)]
  exact relocates_pure base _ (orderFiles collected.files)

theorem relocates_hashDirectoryPath (limit : UInt64) (hashed : List UInt8 × UInt64)
    (file : String × Path) : Relocates base id (hashDirectoryPath limit hashed file)
      (hashDirectoryPath limit (id hashed) (file.1, base ++ file.2)) := by
  unfold hashDirectoryPath
  refine (relocates_directRegularFile base file.2 _).bind fun metadata => ?_
  refine (relocates_failIf base _ _).bind fun _ => ?_
  refine (relocates_openFile base file.2 _).bind fun _ => ?_
  refine (relocates_hashOpenFile base file.2 _).bind fun content => ?_
  exact (relocates_failIf base _ _).bind fun _ => relocates_pure base id _

variable [Sha256]

theorem relocates_validateEntryPath (path : Path) (entry : JournalEntry)
    (limits : ArtifactTransactionLimits) : Relocates base id (validateEntryPath path entry limits)
      (validateEntryPath (base ++ path) entry limits) := by
  unfold validateEntryPath
  cases entry.outputKind with
  | file =>
    refine (relocates_directRegularFile base path _).bind fun metadata => ?_
    refine (relocates_failIf base _ _).bind fun _ => ?_
    refine ((relocates_openFile base path _).bind fun _ =>
      relocates_hashOpenFile base path _).bind fun content => ?_
    exact (relocates_failIf base _ _).bind fun _ => relocates_failIf base _ _
  | directory =>
    refine (relocates_failIf base _ _).bind fun _ => ?_
    refine (relocates_collectDirectoryFiles base path _).bind fun files => ?_
    rw [length_map]
    refine (relocates_failIf base _ _).bind fun _ => ?_
    refine (relocates_foldlM (relocates_hashDirectoryPath base limits.maximumBytes)
      files _).bind fun hashed => ?_
    exact (relocates_failIf base _ _).bind fun _ => relocates_failIf base _ _

end Shift

variable {fs : Files}

section Matches

variable [Sha256] (path : Path) (entry : JournalEntry) (limits : ArtifactTransactionLimits)

theorem reading_validateEntryPath : (validateEntryPath path entry limits).run.Reading :=
  (relocates_validateEntryPath [] path entry limits).reading

theorem reading_pathMatchesEntry : (pathMatchesEntry path entry limits).run.Reading := by
  unfold pathMatchesEntry
  exact each_bind (each_attempt (reading_validateEntryPath _ _ _)) fun _ => each_pure _

omit [Sha256] in
theorem isOk_map_id (result : Except OffprintError Unit) : (result.map id).isOk = result.isOk := by
  cases result <;> rfl

/-- Whether a tree is what a journal entry describes. -/
def matchesEntry (limits : ArtifactTransactionLimits) (entry : JournalEntry)
    (tree : Files) : Bool :=
  ((validateEntryPath [] entry limits).run.exec tree).1.isOk

theorem validateEntryPath_isOk {path : Path} (directory : fs.entry (parent path) = some .directory)
    (entry : JournalEntry) (limits : ArtifactTransactionLimits) :
    ((validateEntryPath path entry limits).run.exec fs).1.isOk =
      matchesEntry limits entry (fs.subtree path) := by
  have relocates := relocates_validateEntryPath path [] entry limits
  rw [append_nil] at relocates
  rw [relocates.exec directory, isOk_map_id]
  rfl

theorem exec_validateEntryPath {path : Path} (directory : fs.entry (parent path) = some .directory)
    {entry : JournalEntry} {limits : ArtifactTransactionLimits}
    (accepted : matchesEntry limits entry (fs.subtree path) = true) :
    (validateEntryPath path entry limits).run.exec fs = (.ok (), fs) := by
  have state := Program.exec_state_of_observing
    (reading_validateEntryPath path entry limits).observing fs
  rw [← validateEntryPath_isOk directory] at accepted
  rcases outcome : (validateEntryPath path entry limits).run.exec fs with ⟨result, after⟩
  rw [outcome] at state accepted
  cases result with
  | error error => cases accepted
  | ok value => rw [show after = fs from state]

end Matches

section Complete

theorem exec_forM_ok {α : Type} {action : α → Durable PUnit} {elements : List α}
    (passes : ∀ element ∈ elements, (action element).run.exec fs = (.ok ⟨⟩, fs)) :
    (elements.forM action).run.exec fs = (.ok ⟨⟩, fs) := by
  induction elements with
  | nil => rfl
  | cons element rest ih =>
    rw [show (element :: rest).forM action = action element >>= fun _ => rest.forM action from rfl,
      exec_run_bind, passes element mem_cons_self]
    exact ih fun other later => passes other (mem_cons_of_mem _ later)

theorem mapM_readOutputName
    {names : List OsString} (texts : List String) (readable : names = texts.map .utf8) :
    names.mapM readOutputName = .ok texts := by
  subst readable
  induction texts with
  | nil => rfl
  | cons text texts ih =>
    rw [map_cons, mapM_cons, ih]
    rfl

variable [Sha256] {fs : Files} {limits : ArtifactTransactionLimits} {entries : List JournalEntry}

/-- A directory that holds exactly what a list of journal entries describes. -/
structure Complete (limits : ArtifactTransactionLimits) (entries : List JournalEntry) (fs : Files)
    (path : Path) : Prop where
  directory : fs.entry path = some .directory
  names : ∀ child, (fs.entry (path ++ [child])).isSome ↔
    ∃ entry ∈ entries, child = .utf8 entry.destinationName
  accepted : ∀ entry ∈ entries,
    matchesEntry limits entry (fs.subtree (path ++ [.utf8 entry.destinationName])) = true

theorem Complete.transfer
    {after : Files} {path other : Path} (complete : Complete limits entries fs path)
    (same : after.subtree other = fs.subtree path) : Complete limits entries after other := by
  have entry := entry_of_subtree_eq same
  refine ⟨?_, ?_, ?_⟩
  · have root := entry []
    rw [append_nil, append_nil] at root
    rw [root, complete.directory]
  · intro child
    rw [entry [child], complete.names child]
  · intro described member
    rw [← subtree_subtree, same, subtree_subtree]
    exact complete.accepted described member

theorem Complete.children {path : Path} (complete : Complete limits entries fs path) :
    ∃ texts : List String, fs.children path = texts.map .utf8 ∧
      sameMembers texts (entries.map JournalEntry.destinationName) = true := by
  have readable : ∀ child ∈ fs.children path, ∃ text, .utf8 text = child := by
    intro child member
    obtain ⟨entry, _, same⟩ := (complete.names child).mp (mem_children.mp member)
    exact ⟨entry.destinationName, same.symm⟩
  obtain ⟨texts, same⟩ : fs.children path ∈ Set.range (List.map OsString.utf8) := by
    rw [Set.range_list_map]
    exact readable
  refine ⟨texts, same.symm, ?_⟩
  have listed : ∀ text, text ∈ texts ↔ ∃ entry ∈ entries, entry.destinationName = text := by
    intro text
    rw [← mem_map_of_injective (fun _ _ => OsString.utf8.inj), same, mem_children,
      complete.names]
    simp only [OsString.utf8.injEq, eq_comm]
  simp only [sameMembers, Bool.and_eq_true, all_eq_true, contains_iff_mem, mem_map,
    listed]
  exact ⟨fun _ => id, fun _ => id⟩

theorem reading_validateCompleteOutputSet (path : Path) :
    (validateCompleteOutputSet path entries limits).run.Reading := by
  unfold validateCompleteOutputSet directDirectory
  refine each_bind (each_bind (reading_perform rfl _) fun _ => each_pure _) fun _ => ?_
  refine each_bind (each_failIf _ _) fun _ => ?_
  refine each_bind (reading_perform rfl _) fun names => ?_
  refine each_bind (each_except _) fun _ => ?_
  refine each_bind (each_failIf _ _) fun _ => ?_
  exact each_forM fun entry _ => reading_validateEntryPath _ entry limits

theorem Complete.exec_validate {path : Path} (complete : Complete limits entries fs path) :
    (validateCompleteOutputSet path entries limits).run.exec fs = (.ok (), fs) := by
  have looked := FileOp.run_metadata complete.directory
  have enumerated := FileOp.run_readDirectory complete.directory
  obtain ⟨texts, listed, same⟩ := complete.children
  have read : (monadLift ((fs.children path).mapM readOutputName) :
    Durable (List String)).run.exec fs =
      (.ok texts, fs) := by
    rw [mapM_readOutputName texts listed]
    rfl
  unfold validateCompleteOutputSet directDirectory
  rw [exec_run_bind_of_ok ((exec_run_bind_of_ok (exec_perform_ok looked)).trans rfl),
    exec_run_bind_of_ok (exec_failIf (by simp [Entry.metadata]) _),
    exec_run_bind_of_ok (exec_perform_ok enumerated), exec_run_bind_of_ok read,
    exec_run_bind_of_ok (exec_failIf (by simp [same]) _)]
  refine exec_forM_ok fun entry member => exec_validateEntryPath ?_
    (complete.accepted entry member)
  rw [parent, dropLast_concat, complete.directory]

end Complete
end Offprint.Artifact
