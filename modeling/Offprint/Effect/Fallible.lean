import Mathlib.Tactic.Common

/-!
# Computations that fail but keep their state

A computation over a state that may stop with an error.  What it did to the
state before the error stays done, so a caller that handles the error goes on
with the changed state.

`Ensures` is the rule of pre- and postconditions for them, with one condition
for each way to stop.
-/

namespace Offprint.Effect

def Fallible (σ ε α : Type) : Type :=
  σ → Except ε α × σ

namespace Fallible

variable {σ ε α β : Type}

protected def pure (value : α) : Fallible σ ε α :=
  fun state => (.ok value, state)

variable (program : Fallible σ ε α) {good : α → σ → Prop} {bad : ε → σ → Prop} {state : σ}

protected def bind (next : α → Fallible σ ε β) : Fallible σ ε β :=
  fun state =>
    match program state with
    | (.ok value, after) => next value after
    | (.error error, after) => (.error error, after)

instance : Monad (Fallible σ ε) where
  pure := Fallible.pure
  bind := Fallible.bind

def throw (error : ε) : Fallible σ ε α :=
  fun state => (.error error, state)

def get : Fallible σ ε σ :=
  fun state => (.ok state, state)

def modify (change : σ → σ) : Fallible σ ε Unit :=
  fun state => (.ok (), change state)

/-- A result that does not depend on the state. -/
def ofExcept : Except ε α → Fallible σ ε α
  | .ok value => Fallible.pure value
  | .error error => throw error

/-- Run a program and hand over its result, failed or not. -/
def attempt : Fallible σ ε (Except ε α) :=
  fun state =>
    match program state with
    | (result, after) => (.ok result, after)

def focus {τ : Type} (view : σ → τ) (update : τ → σ → σ) (program : Fallible τ ε α) :
    Fallible σ ε α :=
  fun state =>
    match program (view state) with
    | (result, part) => (result, update part state)

/-- One run after another, stopping at the first error. -/
def collect (program : α → Fallible σ ε β) : List α → Fallible σ ε (List β)
  | [] => pure []
  | item :: rest => do
      let value ← program item
      let values ← collect program rest
      return value :: values

/-- The program stops well: with a value as `good` says or with an error as `bad` says. -/
def Ensures (good : α → σ → Prop) (bad : ε → σ → Prop) (state : σ) : Prop :=
  match program state with
  | (.ok value, after) => good value after
  | (.error error, after) => bad error after

@[simp]
theorem ensures_pure {value : α} :
    Ensures (pure value : Fallible σ ε α) good bad state ↔ good value state :=
  Iff.rfl

@[simp]
theorem ensures_throw {error : ε} :
    Ensures (throw error : Fallible σ ε α) good bad state ↔ bad error state :=
  Iff.rfl

@[simp]
theorem ensures_get {good : σ → σ → Prop} :
    Ensures (get : Fallible σ ε σ) good bad state ↔ good state state :=
  Iff.rfl

@[simp]
theorem ensures_modify {change : σ → σ} {good : Unit → σ → Prop} :
    Ensures (modify change : Fallible σ ε Unit) good bad state ↔ good () (change state) :=
  Iff.rfl

variable {program : Fallible σ ε α} {next : α → Fallible σ ε β} {result : Except ε α}
  {worse : ε → σ → Prop}

theorem ensures_bind {good : β → σ → Prop} :
    Ensures (program >>= next) good bad state ↔
      Ensures program (fun value => Ensures (next value) good bad) bad state := by
  change Ensures (Fallible.bind program next) good bad state ↔ _
  unfold Ensures Fallible.bind
  rcases program state with ⟨value | error, after⟩ <;> rfl

theorem ensures_attempt {good : Except ε α → σ → Prop} :
    Ensures (attempt program) good bad state ↔
      Ensures program (fun value => good (.ok value)) (fun error => good (.error error)) state := by
  unfold Ensures attempt
  rcases program state with ⟨value | error, after⟩ <;> rfl

theorem ensures_ofExcept :
    Ensures (ofExcept result : Fallible σ ε α) good bad state ↔
      (∀ value, result = .ok value → good value state) ∧
        ∀ error, result = .error error → bad error state := by
  cases result with
  | ok value => simp [ofExcept, Ensures, Fallible.pure]
  | error error => simp [ofExcept, Ensures, throw]

theorem ensures_focus {τ : Type} {view : σ → τ} {update : τ → σ → σ} {program : Fallible τ ε α} :
    Ensures (focus view update program) good bad state ↔
      Ensures program (fun value part => good value (update part state))
        (fun error part => bad error (update part state)) (view state) := by
  unfold Ensures focus
  rcases program (view state) with ⟨value | error, part⟩ <;> rfl

theorem Ensures.mono {weaker : α → σ → Prop} (holds : Ensures program good bad state)
    (values : ∀ value after, good value after → weaker value after)
    (errors : ∀ error after, bad error after → worse error after) :
    Ensures program weaker worse state := by
  unfold Ensures at holds ⊢
  split at holds
  · exact values _ _ holds
  · exact errors _ _ holds

/-- A program goes on from where the one before it stopped. -/
theorem Ensures.bind {good : β → σ → Prop}
    {middle : α → σ → Prop} (holds : Ensures program middle bad state)
    (continues : ∀ value after, middle value after → Ensures (next value) good bad after) :
    Ensures (program >>= next) good bad state :=
  ensures_bind.mpr (holds.mono continues fun _ _ failed => failed)

theorem ensures_ofExcept_bind {good : β → σ → Prop}
    (values : ∀ value, result = .ok value → Ensures (next value) good bad state)
    (errors : ∀ error, result = .error error → bad error state) :
    Ensures (ofExcept result >>= next) good bad state :=
  ensures_bind.mpr (ensures_ofExcept.mpr ⟨values, errors⟩)

theorem Ensures.or (holds : Ensures program good bad state) :
    Ensures program good (fun error after => bad error after ∨ worse error after) state :=
  holds.mono (fun _ _ reached => reached) fun _ _ => .inl

theorem Ensures.of_isOk {good : σ → Prop} (holds : Ensures program (fun _ => good) bad state)
    (succeeded : (program state).1.isOk = true) : good (program state).2 := by
  unfold Ensures at holds
  split at holds
  · next result => simpa [result] using holds
  · next result =>
    rw [result] at succeeded
    cases succeeded

theorem ensures_collect {program : α → Fallible σ ε β} (invariant : List α → σ → Prop)
    (step : ∀ item rest state, invariant (item :: rest) state →
      Ensures (program item) (fun _ => invariant rest) bad state)
    {items : List α} (holds : invariant items state) :
    Ensures (collect program items) (fun _ => invariant []) bad state := by
  induction items generalizing state with
  | nil => exact holds
  | cons item rest ih =>
    refine (step item rest state holds).bind fun value after kept => ?_
    exact (ih kept).bind fun values after finished => finished

end Fallible
end Offprint.Effect
