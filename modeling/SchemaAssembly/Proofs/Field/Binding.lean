/-
This file proves where the binding of a field comes from. A target that the field names itself is
checked before the wiring is asked, and one that is not usable is a failure of its own: it does not
give way to the tiers. The binding carries the context of the field, entry by entry.
-/

import SchemaAssembly.Field.Encoding
import SchemaAssembly.Proofs.Keyed
import SchemaAssembly.Proofs.Resolver.Reference

namespace SchemaAssembly

/-! ### The context -/

theorem Binding.foldl_addContext (entries : List (String × Json)) (binding : Binding) :
    entries.foldl (fun binding entry => binding.addContext entry.1 entry.2) binding =
      ⟨binding.reference, binding.context.insertAll entries⟩ := by
  induction entries generalizing binding with
  | nil => rfl
  | cons first others inductionHypothesis =>
    rw [List.foldl_cons, inductionHypothesis]
    rfl

namespace Field

/-- A field of which nothing is known but its name and its wiring. -/
def plain (name : Name) (wiring : Wiring) : Field :=
  ⟨name, name.text, ∅, none, none, none, none, ∅, wiring⟩

/-- Attaching the entries of a context one by one gives the same context. -/
theorem binding_eq_map_reference (field : Field) (owner : String) :
    field.binding owner =
      (field.reference owner).map fun reference => ⟨reference, field.context⟩ := by
  have same : ∀ reference, field.context.members.foldl
      (fun binding entry => binding.addContext entry.1 entry.2) (Binding.ofReference reference) =
      ⟨reference, field.context⟩ := by
    intro reference
    rw [Binding.foldl_addContext]
    exact congrArg (Binding.mk reference) (Keyed.ofList_members field.context)
  rw [binding]
  simp only [same]

theorem binding_eq_ok_iff (field : Field) (owner : String) (binding : Binding) :
    field.binding owner = .ok binding ↔
      field.reference owner = .ok binding.reference ∧ binding.context = field.context := by
  rw [binding_eq_map_reference]
  obtain ⟨bound, context⟩ := binding
  cases field.reference owner with
  | error problem => simp [Except.map]
  | ok reference => simp [Except.map, eq_comm]

theorem binding_eq_error_iff (field : Field) (owner : String) (problem : Problem) :
    field.binding owner = .error problem ↔ field.reference owner = .error problem := by
  rw [binding_eq_map_reference]
  cases field.reference owner <;> simp [Except.map]

/-! ### The reference -/

/-- The default that a field brings to its tier: its default resolver as a reference. -/
def ownDefault (field : Field) : Option Reference :=
  field.defaultResolver.map Reference.mk

/-- A field has no default resolver, or a usable one. -/
def HasUsableDefault (field : Field) : Prop :=
  ∀ target ∈ field.defaultResolver, target.IsUsable field.wiring.known

/-- The resolver of a field wins; without one the wiring decides, once the default resolver has
been checked. -/
theorem reference_eq_ok_iff (field : Field) (owner : String) (reference : Reference) :
    field.reference owner = .ok reference ↔
      (∃ target, field.resolver = some target ∧ target.IsUsable field.wiring.known ∧
        reference = ⟨target⟩) ∨
      (field.resolver = none ∧ field.HasUsableDefault ∧
        field.wiring.find owner field.label field.ownDefault = .ok reference) := by
  unfold Field.reference HasUsableDefault ownDefault
  cases field.resolver with
  | some target => simp [Reference.check_eq_ok_iff]
  | none =>
    cases field.defaultResolver with
    | none => simp
    | some target =>
      cases checked : Reference.check field.wiring.known target with
      | ok given =>
        obtain ⟨usable, rfl⟩ := (Reference.check_eq_ok_iff _ target given).mp checked
        simp [checked, usable]
      | error problem =>
        simp [checked, Reference.not_isUsable_of_check_eq_error checked]

/-- A field has no reference when its own target is refused, or when every tier misses. -/
theorem reference_eq_error_iff (field : Field) (owner : String) (problem : Problem) :
    field.reference owner = .error problem ↔
      (∃ target, field.resolver.or field.defaultResolver = some target ∧
        Reference.check field.wiring.known target = .error problem) ∨
      (field.resolver = none ∧ field.HasUsableDefault ∧
        field.wiring.find owner field.label field.ownDefault = .error problem) := by
  unfold Field.reference HasUsableDefault ownDefault
  cases field.resolver with
  | some target => simp
  | none =>
    cases field.defaultResolver with
    | none => simp
    | some target =>
      cases checked : Reference.check field.wiring.known target with
      | ok given =>
        obtain ⟨usable, rfl⟩ := (Reference.check_eq_ok_iff _ target given).mp checked
        simp [checked, usable]
      | error refused =>
        simp [checked, Reference.not_isUsable_of_check_eq_error checked]

end Field

end SchemaAssembly
