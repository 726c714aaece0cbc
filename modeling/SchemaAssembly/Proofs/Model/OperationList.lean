/-
This file proves what a list of operations comes to. What is kept for an operation depends on its
identifier, the model and the wiring alone, and it is kept in the place where the identifier came
first. So an identifier that comes again changes nothing, and only the order of first mentions
matters. The fields of operations have names that never collide, so each root type has one field
for every operation that lives on it.
-/

import SchemaAssembly.Proofs.Field.Encoding
import SchemaAssembly.Proofs.Grammar.LineBreak
import SchemaAssembly.Proofs.Model.OperationField
import SchemaAssembly.Proofs.Model.SharedWiring

namespace SchemaAssembly

/-! ### Steps that are repeated -/

section Repeated

variable {σ ε α : Type} [BEq α] [LawfulBEq α] {step : σ → α → Except ε σ}

/-- Steps settle what they do: to take one again at once changes nothing, and a step that changes
nothing goes on to do so after other steps. -/
structure Settles (step : σ → α → Except ε σ) : Prop where
  again : ∀ {state member changed}, step state member = .ok changed →
    step changed member = .ok changed
  goesOn : ∀ {state member other changed}, step state member = .ok state →
    step state other = .ok changed → step changed member = .ok changed

theorem Settles.foldlM_filter (settles : Settles step) {state : σ} {settled : α}
    (unchanged : step state settled = .ok state) (members : List α) :
    (members.filter fun member => !member == settled).foldlM step state =
      members.foldlM step state := by
  induction members generalizing state with
  | nil => rfl
  | cons first others inductionHypothesis =>
    by_cases same : first = settled
    · subst same
      rw [List.filter_cons_of_neg (by simp), inductionHypothesis unchanged, List.foldlM_cons,
        unchanged]
      rfl
    · rw [List.filter_cons_of_pos (by simpa using same), List.foldlM_cons, List.foldlM_cons]
      cases taken : step state first with
      | error failure => rfl
      | ok changed => exact inductionHypothesis (settles.goesOn unchanged taken)

/-- Of the steps of a list only the first mentions matter. -/
theorem Settles.foldlM_eraseDups (settles : Settles step) (state : σ) :
    ∀ members : List α, members.eraseDups.foldlM step state = members.foldlM step state
  | [] => rfl
  | first :: others => by
    rw [List.eraseDups_cons, List.foldlM_cons, List.foldlM_cons]
    cases taken : step state first with
    | error failure => rfl
    | ok changed =>
      have shorter := List.length_filter_le (fun member => !member == first) others
      exact (settles.foldlM_eraseDups changed _).trans
        (settles.foldlM_filter (settles.again taken) others)
termination_by members => members.length
decreasing_by exact Nat.lt_succ_of_le shorter

end Repeated

theorem nodup_eraseDups {α : Type} [DecidableEq α] (members : List α) :
    members.eraseDups.Nodup := by
  have distinct := (Keyed.ofList members : Keyed (id : α → α)).distinct
  rwa [← Keyed.keys, Keyed.keys_ofList, List.map_id] at distinct

/-! ### What is kept for an operation -/

namespace ModelType

/-- What is kept for the operation with an identifier: its root type and its field. -/
def operationEntry (type : ModelType) (identifier : String) :
    Except Failure (String × Root × Field) :=
  match type.model.operations.find identifier ∅ with
  | .error problem => .error (.single problem)
  | .ok operation =>
    (operation.makeField type.model.typeName ∅ type.objectType.wiring).map fun field =>
      (identifier, operation.root, field)

/-- The type with some entries for operations, each in the place of the one with its identifier. -/
def withOperations (type : ModelType) (entries : List (String × Root × Field)) : ModelType :=
  { type with operations := type.operations.insertAll entries }

theorem operationEntry_eq_ok_iff {type : ModelType} {identifier : String}
    {entry : String × Root × Field} :
    type.operationEntry identifier = .ok entry ↔
      ∃ operation field, type.model.operations.find identifier ∅ = .ok operation ∧
        operation.makeField type.model.typeName ∅ type.objectType.wiring = .ok field ∧
        entry = (identifier, operation.root, field) := by
  unfold operationEntry
  cases type.model.operations.find identifier ∅ with
  | error problem => simp
  | ok operation =>
    simp only [Except.ok.injEq, exists_and_left, exists_eq_left']
    cases operation.makeField type.model.typeName ∅ type.objectType.wiring with
    | error failure => simp [Except.map]
    | ok field => simp [Except.map, eq_comm]

theorem addOperation_eq_ok_iff {type changed : ModelType} {identifier : String} :
    type.addOperation identifier ∅ = .ok changed ↔
      ∃ entry, type.operationEntry identifier = .ok entry ∧
        changed = type.withOperations [entry] := by
  unfold addOperation operationEntry
  cases type.model.operations.find identifier ∅ with
  | error problem => simp
  | ok operation =>
    dsimp only
    cases operation.makeField type.model.typeName ∅ type.objectType.wiring with
    | error failure => simp [Except.map]
    | ok field => simp [Except.map, eq_comm, withOperations, Keyed.set, Keyed.insertAll]

theorem fst_of_operationEntry {type : ModelType} {identifier : String}
    {entry : String × Root × Field} (made : type.operationEntry identifier = .ok entry) :
    entry.1 = identifier := by
  obtain ⟨operation, field, -, -, rfl⟩ := operationEntry_eq_ok_iff.mp made
  rfl

/-- An entry that is there is written again without a change. -/
theorem withOperations_eq_self {type : ModelType} {entry : String × Root × Field}
    (found : type.operations.find? entry.1 = some entry) : type.withOperations [entry] = type := by
  have same : type.operations.insert entry = type.operations := Keyed.insert_eq_self found
  rw [withOperations, Keyed.insertAll_cons, same]
  rfl

/-- An operation that is added again is the same operation, in the same place: entries change
neither the model nor the wiring, which decide about an entry. -/
theorem settles_addOperation :
    Settles fun (type : ModelType) identifier => type.addOperation identifier ∅ where
  again {type identifier changed} added := by
    obtain ⟨entry, made, rfl⟩ := addOperation_eq_ok_iff.mp added
    refine addOperation_eq_ok_iff.mpr ⟨entry, made, (withOperations_eq_self ?_).symm⟩
    exact Keyed.find?_insert_self type.operations entry
  goesOn {type identifier other changed} unchanged added := by
    obtain ⟨entry, made, same⟩ := addOperation_eq_ok_iff.mp unchanged
    obtain ⟨further, madeFurther, rfl⟩ := addOperation_eq_ok_iff.mp added
    have present : type.operations.find? entry.1 = some entry := by
      rw [same]
      exact Keyed.find?_insert_self type.operations entry
    refine addOperation_eq_ok_iff.mpr ⟨entry, made, (withOperations_eq_self ?_).symm⟩
    show (type.operations.insert further).find? entry.1 = some entry
    rw [Keyed.find?_insert]
    split
    · next sameIdentifier =>
      rw [fst_of_operationEntry made, fst_of_operationEntry madeFurther] at sameIdentifier
      rw [sameIdentifier, made] at madeFurther
      exact congrArg some (Except.ok.inj madeFurther).symm
    · exact present

/-- Adds operations without configuration, one after the other. -/
def addOperations (type : ModelType) (identifiers : List String) : Except Failure ModelType :=
  identifiers.foldlM (fun (type : ModelType) identifier => type.addOperation identifier ∅) type

theorem addOperations_eraseDups (type : ModelType) (identifiers : List String) :
    type.addOperations identifiers.eraseDups = type.addOperations identifiers :=
  settles_addOperation.foldlM_eraseDups type identifiers

/-- Operations that are added change a type in nothing but its entries for operations, which are
made as if each operation were the first. -/
theorem exists_of_addOperations {type changed : ModelType} {identifiers : List String}
    (added : type.addOperations identifiers = .ok changed) :
    ∃ entries, changed = type.withOperations entries ∧
      List.Forall₂ (fun identifier entry => type.operationEntry identifier = .ok entry)
        identifiers entries := by
  induction identifiers generalizing type with
  | nil =>
    cases added
    exact ⟨[], rfl, .nil⟩
  | cons first others inductionHypothesis =>
    rw [addOperations, List.foldlM_cons, Failure.bind_eq_ok_iff] at added
    obtain ⟨between, addedFirst, addedOthers⟩ := added
    obtain ⟨entry, made, rfl⟩ := addOperation_eq_ok_iff.mp addedFirst
    obtain ⟨entries, rfl, madeOthers⟩ := inductionHypothesis addedOthers
    exact ⟨entry :: entries, rfl, .cons made madeOthers⟩

end ModelType

end SchemaAssembly
