import Mathlib.Tactic.Common

/-!
# Computations that may panic

A computation returns a value, returns an error, or panics: an index out of
range or an arithmetic overflow stops it with no result at all.  Keeping the
three apart lets a statement say that a computation never panics.  The success of
a sequence of checks says that each of them passed.
-/

namespace Offprint.Effect

inductive Checked (ε α : Type) where
  | ok (value : α)
  | error (problem : ε)
  | panic
  deriving Repr, DecidableEq

namespace Checked

variable {ε α β : Type} {program : Checked ε α} {next : α → Checked ε β} {bad : Prop} {problem : ε}

protected def bind (program : Checked ε α) (next : α → Checked ε β) : Checked ε β :=
  match program with
  | .ok value => next value
  | .error problem => .error problem
  | .panic => .panic

instance : Monad (Checked ε) where
  pure := .ok
  bind := Checked.bind

instance : LawfulMonad (Checked ε) :=
  .mk' _ (fun program => by cases program <;> rfl) (fun _ _ => rfl)
    (fun program _ _ => by cases program <;> rfl)

/-- A value that is missing only where the program panics. -/
def ofOption : Option α → Checked ε α
  | some value => .ok value
  | none => .panic

def ofExcept : Except ε α → Checked ε α
  | .ok value => .ok value
  | .error problem => .error problem

def failIf (bad : Prop) [Decidable bad] (problem : ε) : Checked ε Unit :=
  if bad then .error problem else .ok ()

@[simp]
theorem pure_eq (value : α) : (pure value : Checked ε α) = .ok value := rfl

@[simp]
theorem ok_bind (value : α) (next : α → Checked ε β) : (Checked.ok value >>= next) = next value :=
  rfl

@[simp]
theorem error_bind (problem : ε) (next : α → Checked ε β) :
    (Checked.error problem >>= next) = .error problem := rfl

@[simp]
theorem panic_bind (next : α → Checked ε β) : ((Checked.panic : Checked ε α) >>= next) = .panic :=
  rfl

@[simp]
theorem ofOption_eq_ok_iff {found : Option α} {value : α} :
    (ofOption found : Checked ε α) = .ok value ↔ found = some value := by
  cases found <;> simp [ofOption]

theorem bind_eq_ok_iff {result : β} :
    (program >>= next) = .ok result ↔ ∃ value, program = .ok value ∧ next value = .ok result := by
  cases program <;> simp

theorem of_bind {result : β} (done : (program >>= next) = .ok result) :
    ∃ value, program = .ok value ∧ next value = .ok result :=
  bind_eq_ok_iff.mp done

@[simp]
theorem failIf_eq_ok_iff [Decidable bad] : failIf bad problem = .ok () ↔ ¬bad := by
  unfold failIf
  split <;> simp_all

theorem of_failIf [Decidable bad] {next : Unit → Checked ε α} {result : α}
    (done : (failIf bad problem >>= next) = .ok result) : ¬bad ∧ next () = .ok result := by
  unfold failIf at done
  split at done <;> simp_all

theorem failIf_bind_of_not [Decidable bad] (fine : ¬bad) (problem : ε) (next : Unit → Checked ε α) :
    (failIf bad problem >>= next) = next () := by
  rw [failIf, if_neg fine]
  rfl

/-- Build on the value of a computation, knowing that it is its value. -/
def pmap (program : Checked ε α) (build : (value : α) → program = .ok value → β) : Checked ε β :=
  match program, build with
  | .ok value, build => .ok (build value rfl)
  | .error problem, _ => .error problem
  | .panic, _ => .panic

theorem pmap_of_ok {value : α} (returned : program = .ok value)
    (build : (value : α) → program = .ok value → β) :
    program.pmap build = .ok (build value returned) := by
  subst returned
  rfl

theorem pmap_of_error (failed : program = .error problem)
    (build : (value : α) → program = .ok value → β) : program.pmap build = .error problem := by
  subst failed
  rfl

/-- The computation does not panic, and a value it returns satisfies the condition. -/
def Safe (program : Checked ε α) (post : α → Prop) : Prop :=
  match program with
  | .ok value => post value
  | .error _ => True
  | .panic => False

section Safe

variable {post : α → Prop}

theorem safe_bind {program : Checked ε β} {next : β → Checked ε α} :
    (program >>= next).Safe post ↔ program.Safe fun value => (next value).Safe post := by
  cases program <;> exact Iff.rfl

theorem safe_failIf [Decidable bad] {post : Unit → Prop} :
    (failIf bad problem).Safe post ↔ (¬bad → post ()) := by
  unfold failIf
  split <;> simp_all [Safe]

theorem Safe.imp {weaker : α → Prop} (safe : program.Safe post)
    (implies : ∀ value, post value → weaker value) : program.Safe weaker := by
  cases program with
  | ok value => exact implies value safe
  | error problem => trivial
  | panic => exact safe

theorem Safe.cases {program : Checked ε α} (safe : program.Safe post) :
    (∃ problem, program = .error problem) ∨ ∃ value, program = .ok value ∧ post value := by
  cases program with
  | ok value => exact .inr ⟨value, rfl, safe⟩
  | error problem => exact .inl ⟨problem, rfl⟩
  | panic => exact safe.elim

end Safe
end Checked
end Offprint.Effect

namespace Offprint.Effect.Verdict

variable {ε ζ α β : Type} {error : ε} {value : β} {next : α → Except ε β} {rest : Except ε β}
  {items : List α}

theorem throw_eq_ok_iff : (throw error : Except ε β) = .ok value ↔ False := by
  simp [throw, throwThe, MonadExceptOf.throw]

theorem pure_eq_ok_iff {returned : β} :
    (pure returned : Except ε β) = .ok value ↔ returned = value := by
  simp [pure, Except.pure]

theorem bind_eq_ok_iff {result : Except ε α} :
    (result >>= next) = .ok value ↔ ∃ found, result = .ok found ∧ next found = .ok value := by
  cases result <;> simp [bind, Except.bind]

theorem ite_throw_eq_ok_iff {bad : Prop} [Decidable bad] :
    (if bad then throw error else rest) = .ok value ↔ ¬ bad ∧ rest = .ok value := by
  split <;> simp [*, throw_eq_ok_iff]

theorem ite_throw_bind_eq_ok_iff {bad : Prop} [Decidable bad] :
    (if bad then throw error >>= next else rest) = .ok value ↔ ¬ bad ∧ rest = .ok value := by
  split <;> simp [*, bind_eq_ok_iff, throw_eq_ok_iff]

theorem mapError_eq_ok_iff {change : ε → ζ} {result : Except ε β} :
    result.mapError change = .ok value ↔ result = .ok value := by
  cases result <;> simp [Except.mapError]

theorem forM_eq_ok_iff {check : α → Except ε Unit} {passed : Unit} :
    items.forM check = .ok passed ↔ ∀ item ∈ items, check item = .ok () := by
  induction items with
  | nil => simp [List.forM, pure_eq_ok_iff]
  | cons item items ih =>
    rw [List.forM, bind_eq_ok_iff, List.forall_mem_cons, ← ih]
    exact ⟨fun ⟨(), passed⟩ => passed, fun passed => ⟨(), passed⟩⟩

theorem mapM_eq_filterMap {read : α → Except ε β} {value? : α → Option β}
    (each : ∀ item ∈ items, ∃ value, read item = .ok value ∧ value? item = some value) :
    items.mapM read = .ok (items.filterMap value?) := by
  induction items with
  | nil => rfl
  | cons item items ih =>
    obtain ⟨value, reads, is⟩ := each item List.mem_cons_self
    rw [List.mapM_cons, reads, ih fun other member => each other (List.mem_cons_of_mem _ member),
      List.filterMap_cons_some is]
    rfl

end Offprint.Effect.Verdict
