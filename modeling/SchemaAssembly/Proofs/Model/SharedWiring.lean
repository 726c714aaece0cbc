/-
This file proves that configuration has no say where only one function is known. A field keeps the
wiring with which it is made, whatever its configuration and whatever it takes over from others, so
all fields of a type share one wiring. Each tier of the wiring answers with known functions only,
and a target of the field itself has to be one, so where the wiring starts from a single function
all bindings of a type lead to that function.
-/

import SchemaAssembly.Proofs.Field.PartialEffect
import SchemaAssembly.Proofs.Model.FirstAddition
import SchemaAssembly.Proofs.Model.OperationField
import SchemaAssembly.Proofs.Resolver.Invocation

namespace SchemaAssembly

/-! ### The wiring of a field -/

namespace Field

/-- A field keeps its wiring when it is configured, also by a configuration that fails. -/
theorem wiring_configure (field : Field) (config : FieldConfig) :
    (field.configure config).1.wiring = field.wiring := by
  cases config with
  | type | template => rfl
  | mapping settings =>
    by_cases known : settings.keys.all FieldConfig.keys.contains = true
    · exact (salvages_configure known field).sameWiring
    · rw [configure_mapping, if_neg known]

/-- A field is made with the wiring that is given. -/
theorem wiring_of_make {definition : String} {config : FieldConfig} {wiring : Wiring}
    {field : Field} (made : make definition config wiring = .ok field) :
    field.wiring = wiring := by
  obtain ⟨name, arguments, -, configured⟩ := make_eq_ok_iff.mp made
  have kept := wiring_configure (unconfigured definition name arguments wiring) config
  rw [configured] at kept
  exact kept

/-- Where only one function is known, every field is bound to it. -/
theorem reference_of_binding {field : Field} {target : Target}
    (wired : field.wiring = .start [target]) {owner : String} {binding : Binding}
    (bound : field.binding owner = .ok binding) : binding.reference = ⟨target⟩ := by
  have sound : field.wiring.IsSound := wired ▸ Wiring.isSound_start [target]
  have resolved := ((field.binding_eq_ok_iff owner binding).mp bound).1
  have usable := isUsable_of_reference sound resolved
  rw [wired] at usable
  exact congrArg Reference.mk (List.mem_singleton.mp usable.mem_known)

end Field

theorem Operation.wiring_of_makeField {operation : Operation} {type : String}
    {config : Json.Settings} {wiring : Wiring} {field : Field}
    (made : operation.makeField type config wiring = .ok field) : field.wiring = wiring := by
  obtain ⟨-, name, -, madeField⟩ := makeField_eq_ok_iff.mp made
  exact Field.wiring_of_make madeField

namespace ModelType

theorem wiring_withModelType (model : Model) (field : Field) :
    (withModelType model field).wiring = field.wiring := by
  unfold withModelType
  split
  · split <;> rfl
  · rfl

theorem wiring_withModelResolver (model : Model) (config : FieldConfig) (field : Field) :
    (withModelResolver model config field).wiring = field.wiring := by
  unfold withModelResolver
  split <;> rfl

theorem wiring_of_makeField {type : ModelType} {definition : String} {config : FieldConfig}
    {field : Field} (made : type.makeField definition config = .ok field) :
    field.wiring = type.objectType.wiring := by
  unfold makeField at made
  split at made
  · next bare madeBare =>
    cases made
    rw [wiring_withModelResolver, wiring_withModelType, Field.wiring_of_make madeBare]
  · cases made

/-- A model type makes its fields with the wiring of its object type. -/
theorem wiring_of_mem_fieldsOf {type : ModelType} {additions : List Addition} {field : Field}
    (isMade : field ∈ type.fieldsOf additions) : field.wiring = type.objectType.wiring := by
  obtain ⟨addition, -, made⟩ := List.mem_filterMap.mp isMade
  exact wiring_of_makeField (Addition.field?_eq_some_iff.mp made)

end ModelType

/-! ### The wiring of all fields of a type -/

namespace ObjectType

/-- A type and all its fields have a given wiring. -/
structure SharesWiring (type : ObjectType) (wiring : Wiring) : Prop where
  ofType : type.wiring = wiring
  ofFields : ∀ field ∈ type.fields.members, field.wiring = wiring

theorem sharesWiring_empty (name : String) (wiring : Wiring) :
    (ObjectType.empty name wiring).SharesWiring wiring :=
  ⟨rfl, List.forall_mem_nil _⟩

/-- A field that is there keeps its wiring when it takes over arguments. -/
theorem SharesWiring.addField {type : ObjectType} {wiring : Wiring}
    (shares : type.SharesWiring wiring) {field : Field} (wired : field.wiring = wiring) :
    (type.addField field).SharesWiring wiring := by
  refine ⟨(type.wiring_addField field).trans shares.ofType, ?_⟩
  unfold ObjectType.addField
  split
  · next present found =>
    intro member isMember
    rcases Keyed.mem_of_mem_insert isMember with rfl | kept
    · exact shares.ofFields present (List.mem_of_find?_eq_some found)
    · exact shares.ofFields member kept
  · intro member isMember
    rcases Keyed.mem_of_mem_insert isMember with rfl | kept
    · exact wired
    · exact shares.ofFields member kept

/-- Fields with the shared wiring can be added. -/
theorem SharesWiring.addAll {type : ObjectType} {wiring : Wiring}
    (shares : type.SharesWiring wiring) {added : List Field}
    (wired : ∀ field ∈ added, field.wiring = wiring) : (type.addAll added).SharesWiring wiring := by
  induction added generalizing type with
  | nil => exact shares
  | cons first others inductionHypothesis =>
    obtain ⟨ofFirst, ofOthers⟩ := List.forall_mem_cons.mp wired
    exact inductionHypothesis (shares.addField ofFirst) ofOthers

theorem SharesWiring.createField {type changed : ObjectType} {wiring : Wiring}
    (shares : type.SharesWiring wiring) {definition : String} {config : FieldConfig}
    (created : type.createField definition config = .ok changed) :
    changed.SharesWiring wiring := by
  unfold ObjectType.createField at created
  split at created
  · next field made =>
    cases created
    exact shares.addField ((Field.wiring_of_make made).trans shares.ofType)
  · cases created

/-- What is built from fields that share a wiring with a single known function is bound to this
function, field by field. -/
theorem SharesWiring.bindings_of_build {type : ObjectType} {target : Target} {built : BuiltObject}
    (shares : type.SharesWiring (.start [target])) (success : type.build = .ok built) :
    built.bindings.members.map (fun entry => (entry.1, entry.2.reference)) =
      built.definition.fields.map fun field => (field.name.text, ⟨target⟩) := by
  have bound := (List.forall₂_and_left _ _).mpr
    ⟨shares.ofFields, ObjectType.bindings_of_build success⟩
  calc built.bindings.members.map (fun entry => (entry.1, entry.2.reference))
      = type.fields.members.map fun field => (field.label, ⟨target⟩) := by
        refine (map_eq_map_of_forall₂ (fun field entry ⟨wired, named, binds⟩ => ?_) bound).symm
        rw [named, Field.reference_of_binding wired binds]
    _ = built.definition.fields.map fun field => (field.name.text, ⟨target⟩) := by
        refine map_eq_map_of_forall₂ (fun field definition defined => ?_) (fields_of_build success)
        rw [Field.name_of_toDefinition defined]
        rfl

end ObjectType

end SchemaAssembly
