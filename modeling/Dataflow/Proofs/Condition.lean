/-
# What guards read

A guard has a value where both operands have one and can be compared, and it fails with
the error of an operand or with a violation. Tables that agree on what the operands read
give it one result.
-/

import Dataflow.Proofs.Expr.Reading
import Dataflow.Run

namespace Dataflow

namespace Condition

variable {table : ValueTable} {condition : Condition}

/-- A comparison that has no result is a violation. -/
theorem exists_contract_of_evaluate {comparator : Comparator} {left right : Value}
    {fault : GraphError} (herror : comparator.evaluate left right = .error fault) :
    ∃ violation, fault = .contract violation := by
  unfold Comparator.evaluate at herror
  split at herror
  · cases herror
  · cases herror
  · split at herror
    · cases herror
    · exact ⟨_, (Except.error.inj herror).symm⟩

theorem evaluate_eq (condition : Condition) (table : ValueTable) :
    condition.evaluate table =
      match condition.left.resolve table with
      | .error fault => .error fault
      | .ok left =>
        match condition.right.resolve table with
        | .error fault => .error fault
        | .ok right => condition.comparator.evaluate left right := by
  unfold evaluate
  cases condition.left.resolve table with
  | error fault => rfl
  | ok left => cases condition.right.resolve table <;> rfl

/-- A guard that fails does so in an operand or in the comparison. -/
theorem cases_of_evaluate_eq_error {fault : GraphError}
    (herror : condition.evaluate table = .error fault) :
    condition.left.resolve table = .error fault ∨
      condition.right.resolve table = .error fault ∨ ∃ violation, fault = .contract violation := by
  rw [evaluate_eq] at herror
  cases hleft : condition.left.resolve table with
  | error found =>
    rw [hleft] at herror
    exact .inl (congrArg _ (Except.error.inj herror))
  | ok left =>
    cases hright : condition.right.resolve table with
    | error found =>
      rw [hleft, hright] at herror
      exact .inr (.inl (congrArg _ (Except.error.inj herror)))
    | ok right =>
      rw [hleft, hright] at herror
      exact .inr (.inr (exists_contract_of_evaluate herror))

end Condition

theorem Condition.exists_of_holds_eq_error {table : ValueTable} {guard : Option Condition}
    {fault : GraphError} (herror : Condition.holds table guard = .error fault) :
    ∃ condition, guard = some condition ∧ condition.evaluate table = .error fault := by
  cases guard with
  | none => cases herror
  | some condition => exact ⟨condition, rfl, herror⟩

/-- A guard that fails misses a name or violates a rule. -/
theorem Condition.cases_of_holds_eq_error {table : ValueTable} {guard : Option Condition}
    {fault : GraphError} (herror : Condition.holds table guard = .error fault) :
    (∃ name, fault = .nameNotProduced name) ∨ ∃ violation, fault = .contract violation := by
  obtain ⟨condition, -, hevaluate⟩ := exists_of_holds_eq_error herror
  rcases cases_of_evaluate_eq_error hevaluate with hleft | hright | hviolation
  · exact .inl (Expr.exists_nameNotProduced_of_resolve condition.left hleft)
  · exact .inl (Expr.exists_nameNotProduced_of_resolve condition.right hright)
  · exact .inr hviolation

end Dataflow
