import Mathlib.Data.List.Infix

/-!
# Scanners

A scanner reads one item from the front of an input and hands back what is left,
or stops.  Running it reads items until it stops.  A scanner may look at what
follows an item; `Alike` says which inputs look the same to it, and then an item
that is read in front of one of them is read in front of the other.
-/

namespace Offprint.Data

universe u v

structure Scanner (α : Type u) (β : Type v) where
  step : List α → Option (β × List α)
  /-- Every item takes something from the front of the input. -/
  takes : ∀ {input item rest}, step input = some (item, rest) →
    ∃ text, text ≠ [] ∧ input = text ++ rest

namespace Scanner

variable {α : Type u} {β : Type v} (scanner : Scanner α β) {input rest : List α}

def runFor (scanner : Scanner α β) : Nat → List α → List β × List α
  | 0, input => ([], input)
  | fuel + 1, input =>
    match scanner.step input with
    | none => ([], input)
    | some (item, rest) =>
      let (items, left) := scanner.runFor fuel rest
      (item :: items, left)

/-- The items from the front of an input, and what is left where the scanner stops. -/
def run (scanner : Scanner α β) (input : List α) : List β × List α :=
  scanner.runFor input.length input

theorem length_lt_of_step {item : β} (read : scanner.step input = some (item, rest)) :
    rest.length < input.length := by
  obtain ⟨text, some, rfl⟩ := scanner.takes read
  have positive := List.length_pos_iff.mpr some
  simp only [List.length_append]
  omega

theorem runFor_eq_run {fuel : Nat} (enough : input.length ≤ fuel) :
    scanner.runFor fuel input = scanner.run input := by
  induction fuel using Nat.strong_induction_on generalizing input with
  | _ fuel ih =>
    cases fuel with
    | zero =>
      obtain rfl := List.eq_nil_of_length_eq_zero (Nat.le_zero.mp enough)
      rfl
    | succ fuel =>
      cases read : scanner.step input with
      | none =>
        cases input with
        | nil | cons first others => simp [run, runFor, read]
      | some found =>
        obtain ⟨item, rest⟩ := found
        have shorter := scanner.length_lt_of_step read
        obtain ⟨room, sized⟩ := Nat.exists_eq_succ_of_ne_zero (by omega : input.length ≠ 0)
        have long := ih fuel (by omega) (by omega : rest.length ≤ fuel)
        have short := ih room (by omega) (by omega : rest.length ≤ room)
        simp only [run, sized, runFor, read, long, short]

theorem run_of_none (stops : scanner.step input = none) : scanner.run input = ([], input) := by
  cases input with
  | nil => rfl
  | cons first others => simp [run, runFor, stops]

theorem run_of_some {item : β} (read : scanner.step input = some (item, rest)) :
    scanner.run input = (item :: (scanner.run rest).1, (scanner.run rest).2) := by
  have shorter := scanner.length_lt_of_step read
  obtain ⟨room, sized⟩ := Nat.exists_eq_succ_of_ne_zero (by omega : input.length ≠ 0)
  rw [run, sized, runFor, read]
  simp only [scanner.runFor_eq_run (by omega : rest.length ≤ room)]

theorem length_run_le (input : List α) : (scanner.run input).1.length ≤ input.length := by
  induction sized : input.length using Nat.strong_induction_on generalizing input with
  | _ size ih =>
    cases read : scanner.step input with
    | none =>
      rw [scanner.run_of_none read]
      exact Nat.zero_le _
    | some result =>
      obtain ⟨item, rest⟩ := result
      have shorter := scanner.length_lt_of_step read
      have bound := ih rest.length (by omega) rest rfl
      rw [scanner.run_of_some read, List.length_cons]
      omega

theorem run_spec (input : List α) :
    ∃ text, input = text ++ (scanner.run input).2 ∧ scanner.step (scanner.run input).2 = none := by
  induction sized : input.length using Nat.strong_induction_on generalizing input with
  | _ size ih =>
    cases read : scanner.step input with
    | none =>
      rw [scanner.run_of_none read]
      exact ⟨[], rfl, read⟩
    | some found =>
      obtain ⟨item, rest⟩ := found
      have shorter := scanner.length_lt_of_step read
      obtain ⟨text, parts, stops⟩ := ih _ (by omega) rest rfl
      obtain ⟨front, -, whole⟩ := scanner.takes read
      rw [scanner.run_of_some read]
      refine ⟨front ++ text, ?_, stops⟩
      rw [List.append_assoc, ← parts]
      exact whole

end Scanner
end Offprint.Data
