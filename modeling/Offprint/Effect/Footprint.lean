import Offprint.Effect.Relocation

/-!
# Footprints

A program that changes the file system only at or below certain places leaves
everything else as it was, whatever it finds there.
-/

namespace Offprint.Effect

variable {Name : Type} [DecidableEq Name] {α : Type} {op : FileOp Name}

namespace FileOp

def changes : FileOp Name → List (List Name)
  | createDirectory path | createNew path | append path _ => [path]
  | rename source destination => [source, destination]
  | hardLink _ destination => [destination]
  | removeFile path | removeDirectory path | removeAll path => [path]
  | _ => []

omit [DecidableEq Name] in
theorem changes_of_reads (reads : op.reads = true) : op.changes = [] := by
  cases op with
  | metadata path | readDirectory path | openFile path | readFile path => rfl
  | _ => cases reads

end FileOp

namespace FileSystem

variable {fs after : FileSystem Name} {path place source destination : List Name}

theorem entry_of_add {added : Entry} (done : fs.add place added = .ok after)
    (outside : ¬ place <+: path) : after.entry path = fs.entry path := by
  rw [add] at done
  split at done
  · split at done
    · cases done
      rw [entry_insert, if_neg]
      rintro rfl
      exact outside (List.prefix_refl _)
    · cases done
  · cases done

theorem entry_of_append {bytes : List UInt8} (done : fs.append place bytes = .ok after)
    (outside : ¬ place <+: path) : after.entry path = fs.entry path := by
  rw [append] at done
  split at done
  · cases done
    rw [entry_write, if_neg]
    rintro rfl
    exact outside (List.prefix_refl _)
  · cases done
  · cases done

theorem entry_of_place (done : fs.place source destination = .ok after) (away : ¬ source <+: path)
    (outside : ¬ destination <+: path) : after.entry path = fs.entry path := by
  rw [place] at done
  split at done
  · split at done
    · split at done
      · cases done
      · cases done
        rw [entry_move_of_not_below outside, if_neg away]
    · cases done
  · cases done

theorem entry_of_erased_place (leaf : ∀ name, fs.entry (destination ++ [name]) = none)
    (done : (fs.erase destination leaf).place source destination = .ok after)
    (away : ¬ source <+: path) (outside : ¬ destination <+: path) :
    after.entry path = fs.entry path := by
  rw [entry_of_place done away outside, entry_erase, if_neg]
  rintro rfl
  exact outside (List.prefix_refl _)

theorem entry_of_rename (done : fs.rename source destination = .ok after)
    (away : ¬ source <+: path) (outside : ¬ destination <+: path) :
    after.entry path = fs.entry path := by
  rw [rename] at done
  split at done
  · cases done
  · split at done
    · cases done
      rfl
    · split at done
      · exact entry_of_place done away outside
      · split at done
        · split at done
          · cases done
          · split at done
            · exact entry_of_erased_place _ done away outside
            · cases done
        · split at done
          · cases done
          · exact entry_of_erased_place _ done away outside

theorem entry_of_hardLink (done : fs.hardLink source destination = .ok after)
    (outside : ¬ destination <+: path) : after.entry path = fs.entry path := by
  rw [hardLink] at done
  split at done
  · cases done
  · cases done
  · exact entry_of_add done outside

theorem entry_of_removeFile (done : fs.removeFile place = .ok after) :
    after.entry path = if path = place then none else fs.entry path := by
  rw [removeFile] at done
  split at done
  · cases done
  · split at done
    · cases done
    · cases done
      rw [entry_erase]

theorem entry_of_removeDirectory (done : fs.removeDirectory place = .ok after) :
    after.entry path = if path = place then none else fs.entry path := by
  rw [removeDirectory] at done
  split at done
  · cases done
  · split at done
    · split at done
      · cases done
        rw [entry_erase]
      · cases done
    · cases done

theorem entry_of_removeAll (done : fs.removeAll place = .ok after) (outside : ¬ place <+: path) :
    after.entry path = fs.entry path := by
  rw [removeAll] at done
  split at done
  · cases done
  · split at done
    · cases done
      exact entry_prune_of_not_below outside
    · cases done

end FileSystem

open FileSystem

theorem FileOp.entry_of_run {response : op.Response} {fs after : FileSystem Name} {path : List Name}
    (done : op.run fs = .ok (response, after)) (outside : ∀ place ∈ op.changes, ¬ place <+: path) :
    after.entry path = fs.entry path := by
  have mapped : ∀ {result : Except IoError (FileSystem Name)},
      result.map (fun state => ((), state)) = .ok ((), after) → result = .ok after := by
    intro result same
    cases result with
    | ok state =>
      cases same
      rfl
    | error error => cases same
  have different : ∀ {place : List Name}, ¬ place <+: path → path ≠ place := by
    rintro place away rfl
    exact away (List.prefix_refl _)
  cases op with
  | metadata place | readDirectory place | openFile place | readFile place
  | syncFile place | syncDirectory place =>
    simp only [run] at done
    split at done
    all_goals cases done
    all_goals rfl
  | createDirectory place | createNew place =>
    exact entry_of_add (mapped done) (outside place (by simp [changes]))
  | append place bytes =>
    exact entry_of_append (mapped done) (outside place (by simp [changes]))
  | rename source destination =>
    exact entry_of_rename (mapped done) (outside source (by simp [changes]))
      (outside destination (by simp [changes]))
  | hardLink source destination =>
    exact entry_of_hardLink (mapped done) (outside destination (by simp [changes]))
  | removeFile place =>
    rw [entry_of_removeFile (mapped done),
      if_neg (different (outside place (by simp [changes])))]
  | removeDirectory place =>
    rw [entry_of_removeDirectory (mapped done),
      if_neg (different (outside place (by simp [changes])))]
  | removeAll place =>
    exact entry_of_removeAll (mapped done) (outside place (by simp [changes]))

theorem FileOp.entry_interrupted {fs : FileSystem Name} {path : List Name}
    (outside : ∀ place ∈ op.changes, ¬ place <+: path) (progress : Nat) :
    (op.interrupted progress fs).entry path = fs.entry path := by
  cases op with
  | append place bytes =>
    simp only [interrupted]
    split
    · next done => exact entry_of_append done (outside place (by simp [changes]))
    · rfl
  | removeAll place =>
    simp only [interrupted]
    split
    · exact entry_prune_of_not_below (outside place (by simp [changes]))
    · rfl
  | _ => rfl

namespace Program

/-- A program all of whose changes are at places of a kind. -/
abbrev Confined (inside : List Name → Prop) : Program (fileInterface Name) α → Prop :=
  Each fun op => ∀ place ∈ FileOp.changes op, inside place

variable {program : Program (fileInterface Name) α}

theorem Reading.confined (reading : program.Reading) (inside : List Name → Prop) :
    program.Confined inside := by
  refine reading.mono fun op reads => ?_
  rw [FileOp.changes_of_reads reads]
  exact fun place member => nomatch member

theorem Confined.entry {inside : List Name → Prop} (confined : program.Confined inside)
    {path : List Name} (outside : ∀ place, inside place → ¬ place <+: path) (fs : FileSystem Name) :
    (program.exec fs).2.entry path = fs.entry path := by
  induction program generalizing fs with
  | pure value => rfl
  | perform op next ih =>
    obtain ⟨within, continues⟩ := confined
    cases result : FileOp.run op fs with
    | ok pair =>
      rw [exec_perform_ok result, ih _ (continues _)]
      exact FileOp.entry_of_run result fun place member =>
        outside place (within place member)
    | error error =>
      rw [exec_perform_error result, ih _ (continues _)]

/-- However a confined program fails or dies, it changes nothing elsewhere. -/
theorem Confined.entry_run {inside : List Name → Prop} (confined : program.Confined inside)
    {path : List Name} (outside : ∀ place, inside place → ¬ place <+: path)
    (schedule : List (Event IoError)) (fs : FileSystem Name) :
    (program.run schedule fs).state.entry path = fs.entry path := by
  induction program generalizing fs schedule with
  | pure value => rfl
  | perform op next ih =>
    obtain ⟨within, continues⟩ := confined
    have away := fun place member => outside place (within place member)
    unfold run
    split
    · exact FileOp.entry_interrupted away _
    · rw [ih _ (continues _)]
      exact FileOp.entry_interrupted away _
    · split
      · next result =>
        rw [ih _ (continues _)]
        exact FileOp.entry_of_run result away
      · rw [ih _ (continues _)]

end Program

end Offprint.Effect
