/-
This file says when a computation that can meet problems gives a value, and with which problems it
fails otherwise: one that is settled, one that can meet a single problem, and two of which the
second goes on from the first.
-/

import SchemaAssembly.Problem

namespace SchemaAssembly

/-- A value is settled if no problem has been found. -/
theorem Failure.settle_eq_ok_iff {α : Type} {problems : List Problem} {value result : α} :
    Failure.settle problems value = .ok result ↔ problems = [] ∧ value = result := by
  cases problems with
  | nil => simp [Failure.settle, Failure.ofProblems?]
  | cons => simp [Failure.settle, Failure.ofProblems?]

/-- A failure holds the problems that have been found, and there are some. -/
theorem Failure.settle_eq_error_iff {α : Type} {problems : List Problem} {value : α}
    {failure : Failure} :
    Failure.settle problems value = .error failure ↔ problems = failure.problems := by
  obtain ⟨first, others⟩ := failure
  cases problems with
  | nil => simp [Failure.settle, Failure.ofProblems?, Failure.problems]
  | cons => simp [Failure.settle, Failure.ofProblems?, Failure.problems]

/-- How the problems that were met are returned: none as a success, one on its own, with its own
message, and several together, in their order, with a report of them all. -/
inductive Failure.Returned {α : Type} (value : α) : List Problem → Except Failure α → Prop
  | success : Returned value [] (.ok value)
  | single {failure : Failure} {problem : Problem} (alone : failure = .single problem)
      (message : failure.message = problem.message) : Returned value [problem] (.error failure)
  | multiple {failure : Failure} (several : 2 ≤ failure.problems.length)
      (message : failure.message = Problem.report failure.problems) :
      Returned value failure.problems (.error failure)

theorem Failure.returned_settle {α : Type} (problems : List Problem) (value : α) :
    Returned value problems (settle problems value) := by
  match problems with
  | [] => exact .success
  | [problem] => exact .single rfl rfl
  | first :: second :: others =>
    let failure : Failure := ⟨first, second :: others⟩
    have several : 2 ≤ failure.problems.length := Nat.le_add_left 2 others.length
    exact .multiple several rfl

theorem Problem.alone_eq_ok_iff {α : Type} {result : Except Problem α} {value : α} :
    Problem.alone result = .ok value ↔ result = .ok value := by
  cases result <;> simp [Problem.alone]

theorem Failure.bind_eq_ok_iff {α β : Type} {first : Except Failure α}
    {next : α → Except Failure β} {value : β} :
    first >>= next = .ok value ↔ ∃ between, first = .ok between ∧ next between = .ok value := by
  cases first with
  | error failure => simp [bind, Except.bind]
  | ok between => simp [bind, Except.bind]

end SchemaAssembly
