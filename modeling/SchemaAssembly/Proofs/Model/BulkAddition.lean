/-
This file proves that fields which are added in bulk are added entry by entry. What an entry comes
to depends on the names, the wiring and the model of the type, which no addition changes, and not on
the fields that are there. So each entry succeeds or fails as it would on its own: those that
succeed change the type one after the other, those that fail leave it as it is, and their problems
are reported in the order of the entries.
-/

import SchemaAssembly.Proofs.Model.FirstAddition
import SchemaAssembly.Proofs.Problem

namespace SchemaAssembly

/-! ### Attempts -/

/-- The failure of a result, if it is one. -/
def Failure.of? {α : Type} : Except Failure α → Option Failure
  | .ok _ => none
  | .error failure => some failure

/-- The problems of a result: those of its failure, if it is one. -/
def Failure.problemsOf {α : Type} (result : Except Failure α) : List Problem :=
  ((Failure.of? result).map Failure.problems).getD []

section Attempts

variable {σ ε : Type} (attempt : σ → ε → Except Failure σ)

/-- Whether an attempt at an entry succeeds. -/
def succeeds (state : σ) (entry : ε) : Bool :=
  (Failure.of? (attempt state entry)).isNone

/-- Attempts an entry after others. If the attempt fails, the state stays as it is, and the problems
are added to those that have been met. -/
def attemptNext (before : σ × List Problem) (entry : ε) : σ × List Problem :=
  match attempt before.1 entry with
  | .ok changed => (changed, before.2)
  | .error failure => (before.1, before.2 ++ failure.problems)

/-- Whether no success changes how other attempts fail. -/
def IsSteady : Prop :=
  ∀ state entry changed, attempt state entry = .ok changed →
    ∀ other, Failure.of? (attempt changed other) = Failure.of? (attempt state other)

/-- How entries are attempted one by one. Of the entries those that succeed on their own are taken,
in their order, and nothing else changes the state; each attempt fails as it would at the start; and
the problems are those of the attempts that fail, in the order of the entries. A call that reports
them succeeds if all attempts do. -/
structure GoesEntryByEntry (state : σ) (entries : List ε) (result : σ × List Problem) : Prop where
  reached : (entries.filter (succeeds attempt state)).foldlM attempt state = .ok result.1
  unaffected : ∀ front entry back, entries = front ++ entry :: back →
    ∃ before, (front.filter (succeeds attempt state)).foldlM attempt state = .ok before ∧
      Failure.of? (attempt before entry) = Failure.of? (attempt state entry)
  problems : result.2 = entries.flatMap fun entry => Failure.problemsOf (attempt state entry)
  accepted : Failure.settle result.2 () = .ok () ↔
    ∀ entry ∈ entries, ∃ changed, attempt state entry = .ok changed
  refused : ∀ failure, Failure.settle result.2 () = .error failure ↔
    (entries.flatMap fun entry => Failure.problemsOf (attempt state entry)) = failure.problems

variable {attempt}

theorem succeeds_iff {state : σ} {entry : ε} :
    succeeds attempt state entry = true ↔ ∃ changed, attempt state entry = .ok changed := by
  unfold succeeds
  cases attempt state entry with
  | ok changed => exact ⟨fun _ => ⟨changed, rfl⟩, fun _ => rfl⟩
  | error failure => exact ⟨nofun, nofun⟩

theorem problemsOf_eq_nil_iff {state : σ} {entry : ε} :
    Failure.problemsOf (attempt state entry) = [] ↔
      ∃ changed, attempt state entry = .ok changed := by
  cases attempt state entry with
  | ok changed => exact ⟨fun _ => ⟨changed, rfl⟩, fun _ => rfl⟩
  | error failure => exact ⟨nofun, nofun⟩

/-- Entries that are attempted one by one, from any state and with any problems met before. -/
theorem exists_foldl_attemptNext (steady : IsSteady attempt) (state : σ) (met : List Problem)
    (entries : List ε) :
    ∃ reached, (entries.filter (succeeds attempt state)).foldlM attempt state = .ok reached ∧
      (∀ other, Failure.of? (attempt reached other) = Failure.of? (attempt state other)) ∧
      entries.foldl (attemptNext attempt) (state, met) =
        (reached, met ++ entries.flatMap fun entry => Failure.problemsOf (attempt state entry)) := by
  induction entries generalizing state met with
  | nil => exact ⟨state, rfl, fun _ => rfl, by rw [List.flatMap_nil, List.append_nil]; rfl⟩
  | cons first others inductionHypothesis =>
    cases tried : attempt state first with
    | ok changed =>
      have same := steady state first changed tried
      have sameSuccess : succeeds attempt changed = succeeds attempt state :=
        funext fun entry => congrArg Option.isNone (same entry)
      have sameProblems : (fun entry => Failure.problemsOf (attempt changed entry)) =
          fun entry => Failure.problemsOf (attempt state entry) :=
        funext fun entry =>
          congrArg (fun failure => (failure.map Failure.problems).getD []) (same entry)
      obtain ⟨reached, run, steadily, collected⟩ := inductionHypothesis changed met
      rw [sameSuccess] at run
      rw [sameProblems] at collected
      refine ⟨reached, ?_, fun other => (steadily other).trans (same other), ?_⟩
      · rw [List.filter_cons_of_pos (succeeds_iff.mpr ⟨changed, tried⟩), List.foldlM_cons, tried]
        exact run
      · rw [List.foldl_cons, attemptNext, tried, collected, List.flatMap_cons, tried]
        rfl
    | error failure =>
      have failed : ¬succeeds attempt state first = true := by
        rw [succeeds_iff, tried]
        exact nofun
      obtain ⟨reached, run, steadily, collected⟩ :=
        inductionHypothesis state (met ++ failure.problems)
      refine ⟨reached, ?_, steadily, ?_⟩
      · rw [List.filter_cons_of_neg failed]
        exact run
      · rw [List.foldl_cons, attemptNext, tried, collected, List.flatMap_cons, tried,
          List.append_assoc]
        rfl

theorem goesEntryByEntry_foldl (steady : IsSteady attempt) (state : σ) (entries : List ε) :
    GoesEntryByEntry attempt state entries (entries.foldl (attemptNext attempt) (state, [])) := by
  obtain ⟨reached, run, -, collected⟩ := exists_foldl_attemptNext steady state [] entries
  rw [collected, List.nil_append]
  refine ⟨run, fun front entry back _ => ?_, rfl, ?_, fun failure => Failure.settle_eq_error_iff⟩
  · obtain ⟨before, runBefore, steadily, -⟩ := exists_foldl_attemptNext steady state [] front
    exact ⟨before, runBefore, steadily entry⟩
  · rw [Failure.settle_eq_ok_iff, and_iff_left rfl, List.flatMap_eq_nil_iff]
    exact forall₂_congr fun entry _ => problemsOf_eq_nil_iff

end Attempts

/-! ### Entries of a fields mapping -/

namespace ObjectType

/-- An attempt at one entry of a fields mapping: its value has to be a configuration, and a field is
created with it. -/
def attemptEntry (type : ObjectType) (entry : String × Json) : Except Failure ObjectType :=
  match FieldConfig.ofJson? entry.2 with
  | some config => type.createField entry.1 config
  | none =>
    .error (.single
      (.invalidConfigValue type.place entry.1 "expected a type string or a mapping"))

theorem createFields_eq_foldl (type : ObjectType) (settings : Json.Settings) :
    type.createFields settings = settings.members.foldl (attemptNext attemptEntry) (type, []) := by
  refine congrArg (fun step => settings.members.foldl step (type, [])) ?_
  funext before entry
  unfold attemptNext attemptEntry createFromEntry
  cases FieldConfig.ofJson? entry.2 with
  | none => rfl
  | some config =>
    dsimp only
    cases before.1.createField entry.1 config with
    | ok changed => exact congrArg (Prod.mk changed) (List.append_nil _)
    | error failure => rfl

/-- A field that is created leaves name and wiring, on which all attempts depend. -/
theorem isSteady_attemptEntry : IsSteady attemptEntry := by
  intro type entry changed created other
  have sameSetting : changed.place = type.place ∧ changed.wiring = type.wiring := by
    unfold attemptEntry at created
    split at created
    · unfold createField at created
      split at created
      · cases created
        rw [addField_eq]
        exact ⟨rfl, rfl⟩
      · cases created
    · cases created
  unfold attemptEntry createField
  rw [sameSetting.1, sameSetting.2]
  cases FieldConfig.ofJson? other.2 with
  | none => rfl
  | some config =>
    dsimp only
    cases Field.make other.1 config type.wiring <;> rfl

end ObjectType

/-! ### Definitions without configuration -/

namespace ModelType

/-- An attempt at one definition, without configuration. -/
def attemptDefinition (type : ModelType) (definition : String) : Except Failure ModelType :=
  type.addField definition .empty

theorem SameSetting.makeField {first second : ModelType} (same : first.SameSetting second) :
    first.makeField = second.makeField := by
  funext definition config
  rw [ModelType.makeField, ModelType.makeField, same.model, same.wiring]

/-- A field that is added leaves model and wiring, on which all attempts depend. -/
theorem isSteady_attemptDefinition : IsSteady attemptDefinition := by
  intro type definition changed added other
  have same : changed.SameSetting type := by
    unfold attemptDefinition at added
    cases made : Addition.field? type ⟨definition, .empty⟩ with
    | some field =>
      rw [addField_of_some made] at added
      cases added
      exact type.sameSetting_withFields [field]
    | none =>
      obtain ⟨failure, failed⟩ := addField_of_none made
      rw [failed] at added
      cases added
  unfold attemptDefinition addField
  rw [same.makeField]
  cases type.makeField other .empty <;> rfl

theorem addFields_eq_foldl (type : ModelType) (definitions : List String) :
    type.addFields definitions = definitions.foldl (attemptNext attemptDefinition) (type, []) := by
  refine congrArg (fun step => definitions.foldl step (type, [])) ?_
  funext before definition
  unfold attemptNext attemptDefinition
  cases before.1.addField definition .empty <;> rfl

end ModelType

/-- Fields that are added in bulk, from a mapping of definitions to configurations or from
definitions alone, are added entry by entry. -/
theorem bulkAdditions_goEntryByEntry :
    (∀ (type : ObjectType) (settings : Json.Settings),
      GoesEntryByEntry ObjectType.attemptEntry type settings.members
        (type.createFields settings)) ∧
    ∀ (type : ModelType) (definitions : List String),
      GoesEntryByEntry ModelType.attemptDefinition type definitions
        (type.addFields definitions) := by
  refine ⟨fun type settings => ?_, fun type definitions => ?_⟩
  · rw [ObjectType.createFields_eq_foldl]
    exact goesEntryByEntry_foldl ObjectType.isSteady_attemptEntry type settings.members
  · rw [ModelType.addFields_eq_foldl]
    exact goesEntryByEntry_foldl ModelType.isSteady_attemptDefinition type definitions

end SchemaAssembly
