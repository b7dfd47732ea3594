import Offprint.Artifact.DurableRules

/-!
# Cleaning a transaction directory up

A transaction directory is emptied in an order that keeps its last journal to the
end.  `Cleaning` describes every state on the way, so that whoever finds a
directory half removed still finds the journal that says what it was.
-/

namespace Offprint.Artifact

open Effect Model FileOp OsString Action List Option

/-- A state on the way from a transaction directory to none. -/
structure Cleaning (root : Path) (before after : Files) : Prop where
  pruned : FileOp.Pruned root before after
  /-- A journal goes only when everything else and every earlier journal has gone. -/
  last : ∀ name, isJournalName name = true →
    after.entry (root ++ [name]) ≠ before.entry (root ++ [name]) →
    (∀ other, isJournalName other = false → after.entry (root ++ [other]) = none) ∧
      ∀ earlier, isJournalName earlier = true → ¬ OsString.le name earlier →
        after.entry (root ++ [earlier]) = none

variable {E : Environment (fileInterface OsString)} {fs : Files} {root : Path}
  {before after : Files} {name : OsString} {state : Files} {post : Post Unit}

theorem Cleaning.refl (root : Path) (fs : Files) : Cleaning root fs fs :=
  ⟨Pruned.refl root fs, fun _ _ changed => absurd rfl changed⟩

theorem Cleaning.entry_root (cleaning : Cleaning root before after) :
    after.entry root = none ∨ after.entry root = before.entry root := by
  cases found : after.entry root with
  | none => exact .inl rfl
  | some kept =>
    have located := cleaning.pruned.kept [] kept
    rw [append_nil] at located
    exact .inr (located found).symm

theorem Cleaning.last_kept {child : OsString} (cleaning : Cleaning root before after)
    (journal : isJournalName name = true)
    (top : ∀ other, isJournalName other = true → (before.entry (root ++ [other])).isSome →
      le other name) (remains : (after.entry (root ++ [child])).isSome) :
    after.entry (root ++ [name]) = before.entry (root ++ [name]) := by
  by_contra changed
  obtain ⟨others, earlier⟩ := cleaning.last name journal changed
  obtain ⟨found, located⟩ := isSome_iff_exists.mp remains
  have kept := cleaning.pruned.kept [child] found located
  have childJournal : isJournalName child = true := by
    by_contra ordinary
    rw [others child (Bool.not_eq_true _ ▸ ordinary)] at located
    cases located
  by_cases same : child = name
  · subst same
    exact changed (located.trans kept.symm)
  · have before := top child childJournal (by rw [kept]; rfl)
    rw [earlier child childJournal fun late => same (antisymm before late)] at located
    cases located

theorem pruned_of_child {middle : Files} (early : Pruned root before middle)
    (late : Pruned (root ++ [name]) middle after) : Pruned root before after := by
  have inside : root <+: root ++ [name] := prefix_append root [name]
  refine ⟨⟨?_, ?_⟩, ?_⟩
  · intro path outside
    rw [late.same.entry_one, early.same.entry path outside]
    exact fun reaches => outside root (mem_singleton_self _) (inside.trans reaches)
  · intro base outside
    obtain ⟨below, above⟩ := outside root (mem_singleton_self _)
    rw [late.same.subtree_one, early.same.subtree base outside]
    exact ⟨fun reaches => below (inside.trans reaches),
      FileSystem.not_prefix_of_apart ⟨above, below⟩ inside⟩
  · intro rest found located
    apply early.kept
    by_cases below : root ++ [name] <+: root ++ rest
    · obtain ⟨remainder, same⟩ := below
      rw [← same] at located ⊢
      exact late.kept remainder found located
    · rw [late.same.entry_one below] at located
      exact located

variable {remaining : List OsString} {other : OsString}

theorem entry_sibling (pruned : Pruned (root ++ [name]) before after)
    (differs : other ≠ name) : after.entry (root ++ [other]) = before.entry (root ++ [other]) :=
  pruned.same.entry_one (not_child_reaches differs)

theorem entry_of_kind {journal : Bool} (part : Pruned (root ++ [name]) state after)
    (kind : isJournalName name = journal) (otherKind : isJournalName other = !journal) :
    after.entry (root ++ [other]) = state.entry (root ++ [other]) := by
  apply entry_sibling part
  rintro rfl
  rw [kind] at otherKind
  cases journal <;> cases otherKind

theorem entry_of_waiting (part : Pruned (root ++ [name]) state after)
    (distinct : (name :: remaining).Nodup) (member : other ∈ remaining) :
    after.entry (root ++ [other]) = state.entry (root ++ [other]) := by
  apply entry_sibling part
  rintro rfl
  exact (nodup_cons.mp distinct).1 member

theorem entry_of_processed (removed : Removed (root ++ [name]) state after)
    (gone : other ∉ name :: remaining → state.entry (root ++ [other]) = none)
    (processed : other ∉ remaining) : after.entry (root ++ [other]) = none := by
  by_cases same : other = name
  · subst same
    simpa using removed.gone []
  · rw [entry_sibling removed.pruned same]
    exact gone (by simp [same, processed])

section Others

/-- While everything but the journals is removed. -/
structure RemovingOthers (root : Path) (before : Files) (remaining : List OsString)
    (state : Files) : Prop where
  pruned : FileOp.Pruned root before state
  journals : ∀ name, isJournalName name = true →
    state.entry (root ++ [name]) = before.entry (root ++ [name])
  waiting : ∀ name ∈ remaining, isJournalName name = false ∧
    state.entry (root ++ [name]) = before.entry (root ++ [name])
  gone : ∀ name, isJournalName name = false → name ∉ remaining →
    state.entry (root ++ [name]) = none

theorem RemovingOthers.cleaning (removing : RemovingOthers root fs remaining state) :
    Cleaning root fs state :=
  ⟨removing.pruned, fun name journal changed => absurd (removing.journals name journal) changed⟩

theorem RemovingOthers.cleaning_of_pruned
    (removing : RemovingOthers root fs (name :: remaining) state)
    (part : Pruned (root ++ [name]) state after) : Cleaning root fs after := by
  refine ⟨pruned_of_child removing.pruned part, ?_⟩
  intro journal isJournal changed
  refine absurd ?_ changed
  rw [entry_of_kind part (removing.waiting name mem_cons_self).1 isJournal,
    removing.journals journal isJournal]

theorem RemovingOthers.next (removing : RemovingOthers root fs (name :: remaining) state)
    (distinct : (name :: remaining).Nodup) (removed : Removed (root ++ [name]) state after) :
    RemovingOthers root fs remaining after := by
  refine ⟨pruned_of_child removing.pruned removed.pruned, ?_, ?_, ?_⟩
  · intro journal isJournal
    rw [entry_of_kind removed.pruned (removing.waiting name mem_cons_self).1 isJournal,
      removing.journals journal isJournal]
  · intro other member
    rw [entry_of_waiting removed.pruned distinct member]
    exact removing.waiting other (mem_cons_of_mem name member)
  · intro other ordinary processed
    exact entry_of_processed removed (removing.gone other ordinary) processed

end Others

section Journals

/-- While the journals are removed, everything else having gone. -/
structure RemovingJournals (root : Path) (before : Files) (remaining : List OsString)
    (state : Files) : Prop where
  pruned : FileOp.Pruned root before state
  others : ∀ name, isJournalName name = false → state.entry (root ++ [name]) = none
  waiting : ∀ name ∈ remaining, isJournalName name = true ∧
    state.entry (root ++ [name]) = before.entry (root ++ [name])
  gone : ∀ name, isJournalName name = true → name ∉ remaining →
    state.entry (root ++ [name]) = none
  earlier : ∀ name, isJournalName name = true → name ∉ remaining →
    before.entry (root ++ [name]) ≠ none → ∀ later ∈ remaining, OsString.le name later

theorem RemovingJournals.cleaning_of_pruned
    (removing : RemovingJournals root fs (name :: remaining) state)
    (sorted : (name :: remaining).Pairwise le) (part : Pruned (root ++ [name]) state after) :
    Cleaning root fs after := by
  have isJournal := (removing.waiting name mem_cons_self).1
  refine ⟨pruned_of_child removing.pruned part, ?_⟩
  intro journal journalName changed
  constructor
  · intro other ordinary
    rw [entry_of_kind part isJournal ordinary, removing.others other ordinary]
  · intro early earlyJournal before
    have reaches : early ∈ name :: remaining → le journal early := by
      intro member
      by_cases same : journal = name
      · subst same
        rcases mem_cons.mp member with rfl | later
        · exact le_refl early
        · exact (pairwise_cons.mp sorted).1 early later
      · rw [entry_sibling part same] at changed
        have processed : journal ∉ name :: remaining :=
          fun waits => changed (removing.waiting journal waits).2
        rw [removing.gone journal journalName processed] at changed
        exact removing.earlier journal journalName processed changed.symm early member
    have processed : early ∉ name :: remaining := fun waits => before (reaches waits)
    rw [entry_sibling part (fun same => processed (by simp [same])),
      removing.gone early earlyJournal processed]

theorem RemovingJournals.next (removing : RemovingJournals root fs (name :: remaining) state)
    (distinct : (name :: remaining).Nodup) (sorted : (name :: remaining).Pairwise le)
    (removed : Removed (root ++ [name]) state after) :
    RemovingJournals root fs remaining after := by
  refine ⟨pruned_of_child removing.pruned removed.pruned, ?_, ?_, ?_, ?_⟩
  · intro other ordinary
    rw [entry_of_kind removed.pruned (removing.waiting name mem_cons_self).1 ordinary,
      removing.others other ordinary]
  · intro other member
    rw [entry_of_waiting removed.pruned distinct member]
    exact removing.waiting other (mem_cons_of_mem name member)
  · intro other journal processed
    exact entry_of_processed removed (removing.gone other journal) processed
  · intro other journal processed present later member
    by_cases same : other = name
    · subst same
      exact (pairwise_cons.mp sorted).1 later member
    · exact removing.earlier other journal (by simp [same, processed]) present later
        (mem_cons_of_mem name member)

theorem RemovingOthers.journals_next (removing : RemovingOthers root fs [] state)
    (complete : ∀ name, name ∈ remaining ↔
      isJournalName name = true ∧ (fs.entry (root ++ [name])).isSome) :
    RemovingJournals root fs remaining state := by
  have absent : ∀ name, isJournalName name = true → name ∉ remaining →
      fs.entry (root ++ [name]) = none := by
    intro name journal outside
    rw [complete, not_and] at outside
    exact not_isSome_iff_eq_none.mp (outside journal)
  refine ⟨removing.pruned, ?_, ?_, ?_, ?_⟩
  · intro name ordinary
    exact removing.gone name ordinary not_mem_nil
  · intro name member
    obtain ⟨journal, _⟩ := (complete name).mp member
    exact ⟨journal, removing.journals name journal⟩
  · intro name journal outside
    rw [removing.journals name journal, absent name journal outside]
  · intro name journal outside present
    exact absurd (absent name journal outside) present

end Journals

theorem entry_root_of_pruned (part : Pruned (root ++ [name]) state after) :
    after.entry root = state.entry root :=
  part.same.entry_one not_child_reaches_self

theorem wp_removeOthers {other : List OsString} (directory : fs.entry root = some .directory)
    (plain : ∀ name, fs.entry (root ++ [name]) ≠ some .special) (distinct : other.Nodup)
    (complete : ∀ name, name ∈ other ↔
      isJournalName name = false ∧ (fs.entry (root ++ [name])).isSome)
    (safe : ∀ after, Cleaning root fs after → E.Safe (post ∘ .error) after)
    (success : ∀ after, RemovingOthers root fs [] after → after.entry root = some .directory →
      post (.ok ()) after) :
    (other.forM fun name => removeDirectPath (root ++ [name])).run.wp E post fs := by
  refine wp_forM
    (fun remaining state => RemovingOthers root fs remaining state ∧ remaining.Nodup ∧
      remaining ⊆ other ∧ state.entry root = some .directory) ?_ ?_ ?_
  · rintro name remaining state ⟨removing, distinct, within, inPlace⟩
    have present := ((complete name).mp (within mem_cons_self)).2
    have current := (removing.waiting name mem_cons_self).2
    refine wp_removeDirectPath (current ▸ present) (current ▸ plain name) ?_ ?_
    · intro after part
      exact safe after (removing.cleaning_of_pruned part)
    · intro after removed
      refine ⟨removing.next distinct removed, (nodup_cons.mp distinct).2,
        (cons_subset.mp within).2, ?_⟩
      rw [entry_root_of_pruned removed.pruned, inPlace]
  · rintro state ⟨removing, _, _, inPlace⟩
    exact success state removing inPlace
  · refine ⟨⟨Pruned.refl root fs, fun _ _ => rfl, ?_, ?_⟩, distinct,
      List.Subset.refl other, directory⟩
    · intro name member
      exact ⟨((complete name).mp member).1, rfl⟩
    · intro name ordinary outside
      rw [complete, not_and] at outside
      exact not_isSome_iff_eq_none.mp (outside ordinary)

theorem wp_removeJournals {journals : List OsString}
    (removing : RemovingJournals root fs journals state)
    (inPlace : state.entry root = some .directory)
    (plain : ∀ name, fs.entry (root ++ [name]) ≠ some .special)
    (present : ∀ name ∈ journals, (fs.entry (root ++ [name])).isSome) (distinct : journals.Nodup)
    (sorted : journals.Pairwise le)
    (safe : ∀ after, Cleaning root fs after → E.Safe (post ∘ .error) after)
    (success : ∀ after, RemovingJournals root fs [] after → after.entry root = some .directory →
      post (.ok ()) after) : (journals.forM (removeJournal root)).run.wp E post state := by
  refine wp_forM
    (fun remaining state => RemovingJournals root fs remaining state ∧ remaining.Nodup ∧
      remaining.Pairwise le ∧ remaining ⊆ journals ∧
      state.entry root = some .directory) ?_ ?_
    ⟨removing, distinct, sorted, List.Subset.refl journals, inPlace⟩
  · rintro name remaining state ⟨removing, distinct, sorted, within, inPlace⟩
    have present := present name (within mem_cons_self)
    have current := (removing.waiting name mem_cons_self).2
    refine wp_bind (wp_removeDirectPath (current ▸ present) (current ▸ plain name) ?_ ?_)
    · intro after part
      exact safe after (removing.cleaning_of_pruned sorted part)
    · intro after removed
      have cleaning := removing.cleaning_of_pruned sorted removed.pruned
      have remains : after.entry root = some .directory := by
        rw [entry_root_of_pruned removed.pruned, inPlace]
      refine wp_syncDirectory (by rw [remains]; rfl) (safe after cleaning) ?_
      exact ⟨removing.next distinct sorted removed, (nodup_cons.mp distinct).2,
        (pairwise_cons.mp sorted).2, (cons_subset.mp within).2, remains⟩
  · rintro state ⟨removing, _, _, _, inPlace⟩
    exact success state removing inPlace

theorem RemovingJournals.cleaning (removing : RemovingJournals root fs [] state) :
    Cleaning root fs state := by
  refine ⟨removing.pruned, fun name _ _ => ⟨removing.others, ?_⟩⟩
  intro earlier journal _
  exact removing.gone earlier journal not_mem_nil

theorem RemovingJournals.empty (removing : RemovingJournals root fs [] state) (name : OsString) :
    state.entry (root ++ [name]) = none := by
  cases journal : isJournalName name with
  | true => exact removing.gone name journal not_mem_nil
  | false => exact removing.others name journal

theorem cleaning_of_removed (pruned : Pruned root fs state)
    (removed : Removed root state after) : Cleaning root fs after := by
  refine ⟨⟨⟨?_, ?_⟩, ?_⟩, fun name _ _ => ⟨fun other _ => removed.gone [other],
    fun earlier _ _ => removed.gone [earlier]⟩⟩
  · intro path outside
    rw [removed.same.entry path outside, pruned.same.entry path outside]
  · intro base outside
    rw [removed.same.subtree base outside, pruned.same.subtree base outside]
  · intro rest found located
    rw [removed.gone rest] at located
    cases located

theorem wp_cleanupTransactionRoot (directory : fs.entry root = some .directory)
    (above : fs.entry (parent root) = some .directory) (nonempty : root ≠ [])
    (plain : ∀ name, fs.entry (root ++ [name]) ≠ some .special)
    (safe : ∀ after, Cleaning root fs after → E.Safe (post ∘ .error) after)
    (success : ∀ after, Cleaning root fs after → after.entry root = none → post (.ok ()) after) :
    (cleanupTransactionRoot root).run.wp E post fs := by
  unfold cleanupTransactionRoot
  have unchanged := Cleaning.refl root fs
  have listed := run_readDirectory directory
  have chosen : ∀ (select : OsString → Bool) name,
      name ∈ sortNames ((fs.children root).filter select) ↔
        select name = true ∧ (fs.entry (root ++ [name])).isSome := by
    intro select name
    rw [mem_sortNames, mem_filter, FileSystem.mem_children, and_comm]
  have distinct : ∀ select : OsString → Bool,
      (sortNames ((fs.children root).filter select)).Nodup :=
    fun select => nodup_sortNames ((fs.nodup_children root).filter select)
  refine wp_bind (wp_perform_ok listed (fun _ _ => rfl) (safe fs unchanged) ?_)
  refine wp_bind (wp_removeOthers directory plain (distinct _) ?_ safe ?_)
  · intro name
    rw [chosen, Bool.not_eq_true']
  · intro state removing inPlace
    have cleaning := removing.cleaning
    refine wp_bind (wp_syncDirectory (by rw [inPlace]; rfl) (safe state cleaning) ?_)
    refine wp_bind (wp_removeJournals
      (removing.journals_next (chosen isJournalName)) inPlace plain
      (fun name member => ((chosen _ name).mp member).2) (distinct _)
      (pairwise_sortNames _) safe ?_)
    intro emptied removed remains
    have cleaning := removed.cleaning
    obtain ⟨after, result, gone⟩ := run_removeDirectory remains removed.empty
    refine wp_bind (wp_perform_ok result (fun _ _ => rfl) (safe emptied cleaning) ?_)
    have cleaned := cleaning_of_removed removed.pruned gone
    have namespaceKept : after.entry (parent root) = some .directory := by
      rw [cleaned.pruned.same.entry_one (not_reaches_parent nonempty), above]
    refine wp_syncDirectory (by rw [namespaceKept]; rfl) (safe after cleaned) ?_
    exact success after cleaned (by simpa using gone.gone [])

end Offprint.Artifact
