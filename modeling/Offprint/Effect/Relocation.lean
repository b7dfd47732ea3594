import Offprint.Effect.FileOperations

/-!
# Relocating reading programs

A program that reads one part of a file system reads the same thing wherever that
part stands.  `Shifted` relates an action that addresses a tree from its root to the
action that addresses the same tree below a path.
-/

namespace Offprint.Effect

variable {Name : Type} [DecidableEq Name] {κ α β γ δ : Type}

namespace Action

variable {low : Action (fileInterface Name) κ α} {high : Action (fileInterface Name) κ β}
  {step : γ → α → Action (fileInterface Name) κ γ} {gathers : γ → δ} {base : List Name}
  {image : α → β}

/-- `high` does below `base` what `low` does from the root, and returns the image of it. -/
def Shifted (base : List Name) (image : α → β)
    (low : Action (fileInterface Name) κ α) (high : Action (fileInterface Name) κ β) : Prop :=
  high.run = Except.map image <$> low.run.under base

/-- A reading action, and what it is below `base`. -/
structure Relocates (base : List Name) (image : α → β)
    (low : Action (fileInterface Name) κ α) (high : Action (fileInterface Name) κ β) : Prop where
  reading : low.run.Reading
  shifted : Shifted base image low high

theorem relocates_pure (base : List Name) (image : α → β) (value : α) :
    Relocates base image (pure value : Action (fileInterface Name) κ α) (pure (image value)) :=
  ⟨trivial, rfl⟩

theorem Relocates.bind {result : γ → δ} {next : α → Action (fileInterface Name) κ γ}
    {nextHigh : β → Action (fileInterface Name) κ δ} (first : Relocates base image low high)
    (second : ∀ value, Relocates base result (next value) (nextHigh (image value))) :
    Relocates base result (low >>= next) (high >>= nextHigh) := by
  refine ⟨each_bind first.reading fun value => (second value).reading, ?_⟩
  rw [Shifted, ExceptT.run_bind, ExceptT.run_bind, first.shifted, Program.under_bind,
    bind_map_left, map_bind]
  congr 1
  funext outcome
  cases outcome with
  | ok value => exact (second value).shifted
  | error error => rfl

theorem relocates_foldlM {stepHigh : δ → β → Action (fileInterface Name) κ δ}
    (relocates : ∀ gathered element,
      Relocates base gathers (step gathered element) (stepHigh (gathers gathered) (image element)))
    (elements : List α) (initial : γ) : Relocates base gathers (elements.foldlM step initial)
      ((elements.map image).foldlM stepHigh (gathers initial)) := by
  induction elements generalizing initial with
  | nil => exact relocates_pure base gathers initial
  | cons element elements ih =>
    rw [List.foldlM_cons, List.map_cons, List.foldlM_cons]
    exact (relocates initial element).bind ih

theorem relocates_foldlM_same {stepHigh : δ → α → Action (fileInterface Name) κ δ}
    (relocates : ∀ gathered element,
      Relocates base gathers (step gathered element) (stepHigh (gathers gathered) element))
    (elements : List α) (initial : γ) : Relocates base gathers (elements.foldlM step initial)
      (elements.foldlM stepHigh (gathers initial)) := by
  nth_rewrite 2 [← List.map_id elements]
  exact relocates_foldlM relocates elements initial

theorem Relocates.exec (relocates : Relocates base image low high) {fs : FileSystem Name}
    (parent : fs.entry base.dropLast = some .directory) :
    (high.run.exec fs).1 = Except.map image (low.run.exec (fs.subtree base)).1 := by
  rw [relocates.shifted, ← bind_pure_comp, Program.exec_bind,
    Program.exec_under relocates.reading parent]
  rfl

end Action
end Offprint.Effect
