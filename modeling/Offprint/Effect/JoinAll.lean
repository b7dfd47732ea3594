import Mathlib.Data.List.Basic

/-!
# Joining concurrent tasks

Tasks that run at the same time write their outputs into slots as they
complete.  The joined outputs stand in the order of the tasks, so the order of
completion leaves no trace.
-/

namespace Offprint.Effect

open List

variable {Task Output : Type} {completions : List Nat} {tasks : List Task} {index : Nat}

/-- A task completes: its output goes to its own slot. -/
def fillSlot (tasks : List Task) (run : Task → Output) (slots : List (Option Output))
    (index : Nat) : List (Option Output) :=
  slots.set index (tasks[index]?.map run)

/-- Run tasks that complete in the given order.  There is no result as long as
some task has not completed. -/
def joinAll (completions : List Nat) (tasks : List Task) (run : Task → Output) :
    Option (List Output) :=
  (completions.foldl (fillSlot tasks run) (tasks.map fun _ => none)).mapM id

section

variable (tasks : List Task) (run : Task → Output) (completions : List Nat)
  (slots : List (Option Output))
include run

theorem getElem?_foldl_fillSlot (bound : index < slots.length) :
    (completions.foldl (fillSlot tasks run) slots)[index]? =
      if index ∈ completions then some (tasks[index]?.map run) else slots[index]? := by
  induction completions generalizing slots with
  | nil => simp
  | cons first rest ih =>
    rw [foldl_cons, ih _ (by simpa [fillSlot] using bound)]
    by_cases later : index ∈ rest
    · simp [later]
    · by_cases same : index = first
      · subst same
        simp [later, fillSlot, bound]
      · simp [later, same, fillSlot, getElem?_set_ne (Ne.symm same)]

@[simp]
theorem length_foldl_fillSlot :
    (completions.foldl (fillSlot tasks run) slots).length = slots.length := by
  induction completions generalizing slots with
  | nil => rfl
  | cons first rest ih =>
    rw [foldl_cons, ih]
    simp [fillSlot]

end

theorem mapM_id_map_some (outputs : List Output) : (outputs.map some).mapM id = some outputs := by
  induction outputs with
  | nil => rfl
  | cons output outputs ih => simp [ih]

theorem mapM_id_eq_none {slots : List (Option Output)} (unfilled : none ∈ slots) :
    slots.mapM id = none := by
  induction slots with
  | nil => cases unfilled
  | cons slot slots ih =>
    rcases mem_cons.mp unfilled with first | later
    · simp [← first]
    · simp [ih later]

theorem joinAll_eq_map
    (complete : ∀ index, index < tasks.length → index ∈ completions) (run : Task → Output) :
    joinAll completions tasks run = some (tasks.map run) := by
  have filled : completions.foldl (fillSlot tasks run) (tasks.map fun _ => none) =
      (tasks.map run).map some := by
    apply ext_getElem?
    intro index
    by_cases bound : index < tasks.length
    · rw [getElem?_foldl_fillSlot _ _ _ _ (by simpa using bound), if_pos (complete index bound)]
      simp [bound]
    · rw [getElem?_eq_none (by simpa using bound),
        getElem?_eq_none (by simpa using bound)]
  rw [joinAll, filled, mapM_id_map_some]

theorem joinAll_eq_none (bound : index < tasks.length) (missing : index ∉ completions)
    (run : Task → Output) : joinAll completions tasks run = none := by
  apply mapM_id_eq_none
  apply mem_of_getElem? (i := index)
  rw [getElem?_foldl_fillSlot _ _ _ _ (by simpa using bound), if_neg missing]
  simp [bound]

theorem joinAll_cases (completions : List Nat) (tasks : List Task) (run : Task → Output) :
    joinAll completions tasks run = none ∨
      joinAll completions tasks run = some (tasks.map run) := by
  by_cases complete : ∀ index, index < tasks.length → index ∈ completions
  · exact .inr (joinAll_eq_map complete run)
  · push Not at complete
    obtain ⟨index, bound, missing⟩ := complete
    exact .inl (joinAll_eq_none bound missing run)

end Offprint.Effect
