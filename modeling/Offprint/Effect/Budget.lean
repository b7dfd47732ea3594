import Mathlib.Algebra.GroupWithZero.Nat
import Offprint.Effect.Checked

/-!
# Runs with a budget

A run adds items to a state.  In front of each item it asks for room, and it may ask for more
than the item then takes.  A budget stops the run where an item asks for more than is left, so
a smaller budget gives the same result exactly if no item on the way asks for too much.
-/

namespace Offprint.Effect

open List Checked

structure Metered (ε σ ι : Type) where
  push : σ → ι → Checked ε σ
  size : σ → Nat
  /-- The room an item takes. -/
  count : ι → Nat
  /-- The room an item asks for. -/
  demand : ι → Nat
  refusal : ι → ε
  count_le_demand : ∀ item, count item ≤ demand item
  size_push : ∀ {state item next}, push state item = .ok next → size next = size state + count item

namespace Metered

variable {ε σ ι : Type} (meter : Metered ε σ ι) {maximum : Nat} {state final : σ} {items : List ι}

def visit (maximum : Nat) (state : σ) (item : ι) : Checked ε σ :=
  if meter.size state + meter.demand item ≤ maximum then meter.push state item
  else .error (meter.refusal item)

def run (maximum : Nat) (state : σ) (items : List ι) : Checked ε σ :=
  items.foldlM (meter.visit maximum) state

def total (items : List ι) : Nat :=
  (items.map meter.count).sum

/-- No item asks for more than is left, from a size on. -/
def Fits (maximum : Nat) : Nat → List ι → Prop
  | _, [] => True
  | size, item :: rest =>
    size + meter.demand item ≤ maximum ∧ Fits maximum (size + meter.count item) rest

theorem fits_iff {maximum size : Nat} (room : size + meter.total items ≤ maximum) :
    meter.Fits maximum size items ↔
      ∀ before item after, items = before ++ item :: after →
        size + meter.total before + meter.demand item ≤ maximum := by
  induction items generalizing size with
  | nil => simp [Fits]
  | cons first rest ih =>
    have sum : meter.total (first :: rest) = meter.count first + meter.total rest := by
      simp [total]
    have later := @ih (size + meter.count first) (by omega)
    rw [Fits, later]
    constructor
    · rintro ⟨here, there⟩ before item after parts
      cases before with
      | nil =>
        obtain ⟨rfl, -⟩ := List.cons.inj parts
        simpa [total] using here
      | cons head others =>
        obtain ⟨rfl, tail⟩ := List.cons.inj parts
        have bound := there others item after tail
        simp only [total, map_cons, sum_cons] at bound ⊢
        omega
    · intro every
      refine ⟨by simpa [total] using every [] first rest rfl, ?_⟩
      rintro before item after rfl
      have bound := every (first :: before) item after rfl
      simp only [total, map_cons, sum_cons] at bound ⊢
      omega

theorem run_cons (item : ι) (rest : List ι) :
    meter.run maximum state (item :: rest) =
      meter.visit maximum state item >>= fun next => meter.run maximum next rest :=
  foldlM_cons

theorem visit_eq_ok {item : ι} {next : σ} (visited : meter.visit maximum state item = .ok next) :
    meter.push state item = .ok next ∧ meter.size next = meter.size state + meter.count item := by
  unfold visit at visited
  split at visited
  · exact ⟨visited, meter.size_push visited⟩
  · cases visited

theorem size_le_of_visit {item : ι} {next : σ}
    (visited : meter.visit maximum state item = .ok next) : meter.size next ≤ maximum := by
  have fewer := meter.count_le_demand item
  unfold visit at visited
  split at visited
  · rw [meter.size_push visited]
    omega
  · cases visited

theorem size_run (ran : meter.run maximum state items = .ok final) :
    meter.size final = meter.size state + meter.total items := by
  induction items generalizing state with
  | nil =>
    obtain rfl : state = final := Checked.ok.inj ran
    simp [total]
  | cons item rest ih =>
    rw [run_cons, bind_eq_ok_iff] at ran
    obtain ⟨next, visited, ran⟩ := ran
    rw [ih ran, (meter.visit_eq_ok visited).2]
    simp only [total, map_cons, sum_cons]
    omega

/-- Where a run with one budget comes to an end, a run with another one ends in the same state
if every item fits, and is refused otherwise. -/
theorem run_of_run {budget : Nat} (maximum : Nat) (ran : meter.run budget state items = .ok final) :
    (meter.Fits maximum (meter.size state) items → meter.run maximum state items = .ok final) ∧
      (¬meter.Fits maximum (meter.size state) items →
        ∃ item ∈ items, meter.run maximum state items = .error (meter.refusal item)) := by
  induction items generalizing state with
  | nil => exact ⟨fun _ => ran, fun misfit => absurd trivial misfit⟩
  | cons item rest ih =>
    rw [run_cons, bind_eq_ok_iff] at ran
    obtain ⟨next, visited, ran⟩ := ran
    obtain ⟨pushed, size⟩ := meter.visit_eq_ok visited
    obtain ⟨fine, refused⟩ := ih ran
    rw [size] at fine refused
    rw [run_cons, Fits]
    by_cases room : meter.size state + meter.demand item ≤ maximum
    · have here : meter.visit maximum state item = .ok next := by rw [visit, if_pos room, pushed]
      rw [here, ok_bind]
      refine ⟨fun fits => fine fits.2, fun misfit => ?_⟩
      obtain ⟨other, inside, error⟩ := refused fun fits => misfit ⟨room, fits⟩
      exact ⟨other, mem_cons_of_mem item inside, error⟩
    · have here : meter.visit maximum state item = .error (meter.refusal item) := by
        rw [visit, if_neg room]
      rw [here, error_bind]
      exact ⟨fun fits => absurd fits.1 room, fun _ => ⟨item, mem_cons_self, rfl⟩⟩

theorem total_le_of_fits {size : Nat} (fits : meter.Fits maximum size items)
    (room : size ≤ maximum) : size + meter.total items ≤ maximum := by
  induction items generalizing size with
  | nil => simpa [total] using room
  | cons item rest ih =>
    have smaller := meter.count_le_demand item
    have later := ih fits.2 (by have asked := fits.1; omega)
    simp only [total, map_cons, sum_cons] at later ⊢
    omega

end Metered
end Offprint.Effect
