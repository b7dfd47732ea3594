import Mathlib.Logic.Relation

/-!
# Distances in a directed graph

Walks with their length, the length of a shortest walk, and how an assignment
of levels is recognised as the distance from a root.
-/

namespace Offprint.Data

variable {Node : Type} {edge : Node → Node → Prop} {root node : Node} {level : Node → Nat → Prop}

inductive Walk (edge : Node → Node → Prop) (root : Node) : Node → Nat → Prop
  | start : Walk edge root root 0
  | step {node next : Node} {length : Nat} :
      Walk edge root node length → edge node next → Walk edge root next (length + 1)

def IsDistance (edge : Node → Node → Prop) (root node : Node) (distance : Nat) : Prop :=
  Walk edge root node distance ∧ ∀ length, Walk edge root node length → distance ≤ length

/-- Levels that start with zero at the root, come from a node one level above,
and grow by at most one along every edge are distances. -/
structure Leveled (edge : Node → Node → Prop) (root : Node) (level : Node → Nat → Prop) :
    Prop where
  functional : ∀ {node : Node} {first second : Nat},
    level node first → level node second → first = second
  start : level root 0
  parent : ∀ {node : Node} {depth : Nat}, level node depth → node ≠ root →
    ∃ previous above, level previous above ∧ edge previous node ∧ depth = above + 1
  closed : ∀ {node next : Node} {depth : Nat}, level node depth → edge node next →
    ∃ below, level next below ∧ below ≤ depth + 1

variable (leveled : Leveled edge root level) {depth : Nat}
include leveled

theorem Leveled.walk (nodeAt : level node depth) : Walk edge root node depth := by
  induction depth generalizing node with
  | zero =>
    by_cases isRoot : node = root
    · rw [isRoot]
      exact .start
    · obtain ⟨_, above, _, _, impossible⟩ := leveled.parent nodeAt isRoot
      omega
  | succ depth ih =>
    by_cases isRoot : node = root
    · rw [isRoot] at nodeAt
      have impossible := leveled.functional nodeAt leveled.start
      omega
    · obtain ⟨previous, above, previousAt, connected, sum⟩ := leveled.parent nodeAt isRoot
      obtain rfl : depth = above := by omega
      exact .step (ih previousAt) connected

theorem Leveled.level_le {length : Nat}
    (walk : Walk edge root node length) : ∃ depth, level node depth ∧ depth ≤ length := by
  induction walk with
  | start => exact ⟨0, leveled.start, Nat.le_refl 0⟩
  | step _ connected ih =>
    obtain ⟨depth, nodeAt, bound⟩ := ih
    obtain ⟨below, nextAt, close⟩ := leveled.closed nodeAt connected
    exact ⟨below, nextAt, by omega⟩

theorem Leveled.isDistance (nodeAt : level node depth) : IsDistance edge root node depth := by
  refine ⟨leveled.walk nodeAt, ?_⟩
  intro length walk
  obtain ⟨other, otherAt, bound⟩ := leveled.level_le walk
  rwa [leveled.functional nodeAt otherAt]

end Offprint.Data
