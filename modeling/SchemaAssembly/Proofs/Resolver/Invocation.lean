/-
This file proves that a bound function can be called. As long as every reference that is
registered has been checked against the known functions, every tier of the wiring gives such
references only, whichever steps were taken and in whichever order. A field that holds the wiring
is therefore bound to a known function, and calling the binding calls that function. The call has
a result, unless it never ends, and it is said which calls those are.
-/

import SchemaAssembly.Proofs.Resolver.History

namespace SchemaAssembly

/-! ### Sound steps -/

/-- The references of a step come from the known functions. A text is read by the step itself, so
there is nothing to ask of it. -/
def Registration.IsSound (known : KnownTargets) : Registration → Prop
  | .fieldResolver _ _ reference => Reference.Obtained known reference
  | .callable _ _ _ => True
  | .typeDefault _ reference => Reference.Obtained known reference
  | .resolverClass _ => True
  | .globalDefault reference => ∀ given ∈ reference, Reference.Obtained known given

namespace Wiring

/-- Every reference in the tables of a wiring is usable. -/
structure IsSound (wiring : Wiring) : Prop where
  fieldResolvers : ∀ type field reference,
    wiring.fieldResolvers.get? (type, field) = some reference →
      reference.target.IsUsable wiring.known
  typeDefaults : ∀ type reference, wiring.typeDefaults.get? type = some reference →
    reference.target.IsUsable wiring.known
  globalDefault : ∀ reference, wiring.globalDefault = some reference →
    reference.target.IsUsable wiring.known

theorem isSound_start (known : KnownTargets) : (start known).IsSound where
  fieldResolvers type field reference found := by
    rw [start, Keyed.get?_empty] at found
    simp at found
  typeDefaults type reference found := by
    rw [start, Keyed.get?_empty] at found
    simp at found
  globalDefault reference found := by
    obtain ⟨usable, rfl⟩ := (toOption_check_eq_some_iff known _ reference).mp found
    exact usable

/-- What a sound step registers for a field is usable. -/
theorem isUsable_of_forField?_eq_some {known : KnownTargets} {step : Registration}
    (sound : step.IsSound known) {type field : String} {reference : Reference}
    (given : step.forField? known type field = some reference) :
    reference.target.IsUsable known := by
  rw [← Reference.obtained_iff_isUsable]
  cases step with
  | fieldResolver otherType otherField registered =>
    rw [Registration.forField?, Option.ite_none_right_eq_some] at given
    rw [← Option.some.inj given.2]
    exact sound
  | callable otherType otherField text =>
    rw [Registration.forField?, Option.ite_none_right_eq_some] at given
    cases read : Reference.parse known text with
    | ok registered =>
      rw [read] at given
      rw [← Option.some.inj given.2]
      exact .parsed read
    | error problem =>
      rw [read] at given
      simp [Except.toOption] at given
  | typeDefault otherType registered => simp [Registration.forField?] at given
  | resolverClass className => simp [Registration.forField?] at given
  | globalDefault registered => simp [Registration.forField?] at given

/-- What a sound step registers for a type is usable. -/
theorem isUsable_of_forType?_eq_some {known : KnownTargets} {step : Registration}
    (sound : step.IsSound known) {type : String} {reference : Reference}
    (given : step.forType? type = some reference) : reference.target.IsUsable known := by
  rw [← Reference.obtained_iff_isUsable]
  cases step with
  | typeDefault otherType registered =>
    rw [Registration.forType?, Option.ite_none_right_eq_some] at given
    rw [← Option.some.inj given.2]
    exact sound
  | fieldResolver otherType field registered => simp [Registration.forType?] at given
  | callable otherType field text => simp [Registration.forType?] at given
  | resolverClass className => simp [Registration.forType?] at given
  | globalDefault registered => simp [Registration.forType?] at given

/-- What a sound step makes the default of everything is usable. -/
theorem isUsable_of_forAll?_eq_some {known : KnownTargets} {step : Registration}
    (sound : step.IsSound known) {reference : Reference}
    (given : step.forAll? = some (some reference)) : reference.target.IsUsable known := by
  rw [← Reference.obtained_iff_isUsable]
  cases step with
  | globalDefault registered => exact sound reference (Option.some.inj given)
  | fieldResolver type field registered => simp [Registration.forAll?] at given
  | callable type field text => simp [Registration.forAll?] at given
  | typeDefault type registered => simp [Registration.forAll?] at given
  | resolverClass className => simp [Registration.forAll?] at given

/-- A sound step keeps the tables sound: what is found afterwards is what the step registers, or
was found before. -/
theorem isSound_register {wiring : Wiring} (sound : wiring.IsSound) {step : Registration}
    (stepSound : step.IsSound wiring.known) : (wiring.register step).IsSound where
  fieldResolvers type field reference found := by
    rw [get?_fieldResolvers_register, Option.or_eq_some_iff] at found
    rw [known_register]
    rcases found with given | ⟨-, before⟩
    · exact isUsable_of_forField?_eq_some stepSound given
    · exact sound.fieldResolvers type field reference before
  typeDefaults type reference found := by
    rw [get?_typeDefaults_register, Option.or_eq_some_iff] at found
    rw [known_register]
    rcases found with given | ⟨-, before⟩
    · exact isUsable_of_forType?_eq_some stepSound given
    · exact sound.typeDefaults type reference before
  globalDefault reference found := by
    rw [globalDefault_register] at found
    rw [known_register]
    cases given : step.forAll? with
    | none =>
      rw [given, Option.getD_none] at found
      exact sound.globalDefault reference found
    | some registered =>
      rw [given, Option.getD_some] at found
      exact isUsable_of_forAll?_eq_some stepSound (found ▸ given)

/-- After any sound steps the tables are sound. -/
theorem isSound_ofHistory (known : KnownTargets) (history : List Registration)
    (sound : ∀ step ∈ history, step.IsSound known) : (ofHistory known history).IsSound := by
  induction history using List.reverseRecOn with
  | nil => exact isSound_start known
  | append_singleton earlier last inductionHypothesis =>
    rw [ofHistory_concat]
    refine isSound_register (inductionHypothesis fun step member => ?_) ?_
    · exact sound step (List.mem_append_left _ member)
    · rw [known_ofHistory]
      exact sound last (List.mem_append_right _ (List.mem_singleton_self last))

/-! ### Sound answers -/

/-- A conventional method is checked at the moment at which it is found. -/
theorem isUsable_of_onResolverClasses {wiring : Wiring} {methods : List String}
    {reference : Reference} (found : wiring.onResolverClasses methods = some reference) :
    reference.target.IsUsable wiring.known := by
  obtain ⟨_, _, _, _, _, _, _, _, _, _, usable, rfl⟩ :=
    (onResolverClasses_eq_some_iff wiring methods reference).mp found
  exact usable

/-- Every tier answers by usable references, the default of the field being one. -/
theorem isUsable_of_atTier {wiring : Wiring} (sound : wiring.IsSound) {type field : String}
    {fieldDefault : Option Reference}
    (defaultUsable : ∀ reference ∈ fieldDefault, reference.target.IsUsable wiring.known)
    {tier : Tier} {reference : Reference}
    (found : wiring.atTier type field fieldDefault tier = some reference) :
    reference.target.IsUsable wiring.known := by
  cases tier with
  | explicit => exact sound.fieldResolvers type field reference found
  | convention => exact isUsable_of_onResolverClasses found
  | fieldDefault => exact defaultUsable reference found
  | typeDefault =>
    rw [atTier] at found
    split at found
    · next registered given =>
      exact sound.typeDefaults type reference (given.trans found)
    · exact isUsable_of_onResolverClasses found
  | globalDefault => exact sound.globalDefault reference found

theorem isUsable_of_find {wiring : Wiring} (sound : wiring.IsSound) {type field : String}
    {fieldDefault : Option Reference}
    (defaultUsable : ∀ reference ∈ fieldDefault, reference.target.IsUsable wiring.known)
    {reference : Reference} (found : wiring.find type field fieldDefault = .ok reference) :
    reference.target.IsUsable wiring.known := by
  obtain ⟨tier, withTier⟩ := (find_eq_ok_iff ..).mp found
  exact isUsable_of_atTier sound defaultUsable ((findWithTier_eq_ok_iff ..).mp withTier).1

end Wiring

/-- A field under a sound wiring is resolved by a usable reference. -/
theorem Field.isUsable_of_reference {field : Field} (sound : field.wiring.IsSound)
    {owner : String} {reference : Reference} (resolved : field.reference owner = .ok reference) :
    reference.target.IsUsable field.wiring.known := by
  rcases (field.reference_eq_ok_iff owner reference).mp resolved with
    ⟨target, -, usable, rfl⟩ | ⟨-, defaultUsable, found⟩
  · exact usable
  · refine Wiring.isUsable_of_find sound ?_ found
    intro given isDefault
    obtain ⟨target, isTarget, rfl⟩ := Option.map_eq_some_iff.mp isDefault
    exact defaultUsable target isTarget

/-! ### What a call gives -/

/-- There is no part of a given name, or it is a function, or any other value. -/
theorem Source.part?_cases {κ : Type} (source : Source κ) (name : String) :
    source.part? name = none ∨
      (∃ function, source.part? name = some (.callable function)) ∨
      ∃ value, source.part? name = some value ∧ ∀ function, value ≠ .callable function := by
  cases source.part? name with
  | none => exact Or.inl rfl
  | some found =>
    cases found with
    | callable function => exact Or.inr (Or.inl ⟨function, rfl⟩)
    | _ => exact Or.inr (Or.inr ⟨_, rfl, nofun⟩)

namespace Callable

variable {κ : Type} {run : κ → Source κ → Call → Option (Source κ)} {parent : Source κ}
  {call : Call}

/-- What a call gives once it has ended. A function of the application gives what it returns. The
function that reads fields gives the part of the parent, or nothing where there is none; but a part
that is a function, whichever it is, is called in turn, and what this gives is the value. -/
inductive Gives (run : κ → Source κ → Call → Option (Source κ)) (parent : Source κ) (call : Call) :
    Callable κ → Source κ → Prop
  | custom {function : κ} {value : Source κ} (returns : run function parent call = some value) :
      Gives run parent call (.custom function) value
  | nothing (absent : parent.part? call.field = none) : Gives run parent call .fieldReader .null
  | part {value : Source κ} (held : parent.part? call.field = some value)
      (notCallable : ∀ function, value ≠ .callable function) :
      Gives run parent call .fieldReader value
  | called {function : Callable κ} {value : Source κ}
      (held : parent.part? call.field = some (.callable function))
      (gives : Gives run parent call function value) : Gives run parent call .fieldReader value

/-- The calls that never end: a function of the application runs on, which may be called as the
part of the parent that is read, or the function that reads fields is that part itself. -/
inductive IsEndless (run : κ → Source κ → Call → Option (Source κ)) (parent : Source κ)
    (call : Call) : Callable κ → Prop
  | custom {function : κ} (runsOn : run function parent call = none) :
      IsEndless run parent call (.custom function)
  | part {function : κ}
      (held : parent.part? call.field = some (.callable (.custom function)))
      (runsOn : run function parent call = none) : IsEndless run parent call .fieldReader
  | itself (held : parent.part? call.field = some (.callable .fieldReader)) :
      IsEndless run parent call .fieldReader

theorem call_fieldReader_of_custom {function : κ}
    (held : parent.part? call.field = some (.callable (.custom function))) :
    fieldReader.call run parent call = run function parent call := by
  rw [Callable.call, Source.read, held]

theorem call_fieldReader_of_itself
    (held : parent.part? call.field = some (.callable .fieldReader)) :
    fieldReader.call run parent call = none := by
  rw [Callable.call, Source.read, held]

/-- A part that is no function is the value. -/
theorem call_fieldReader_of_part {value : Source κ} (held : parent.part? call.field = some value)
    (notCallable : ∀ function, value ≠ .callable function) :
    fieldReader.call run parent call = some value := by
  rw [Callable.call, Source.read, held]
  cases value with
  | callable function => exact absurd rfl (notCallable function)
  | _ => rfl

theorem call_fieldReader_of_absent (absent : parent.part? call.field = none) :
    fieldReader.call run parent call = some .null := by
  rw [Callable.call, Source.read, absent]

/-- The result of a call is what the call gives. Nothing is given by the function that reads fields
where it finds itself: what it gave would have to be given by the same call before. -/
theorem call_eq_some_iff {function : Callable κ} {value : Source κ} :
    function.call run parent call = some value ↔ Gives run parent call function value := by
  constructor
  · intro result
    cases function with
    | custom function => exact .custom result
    | fieldReader =>
      rcases parent.part?_cases call.field with
        absent | ⟨_ | function, held⟩ | ⟨found, held, notCallable⟩
      · rw [call_fieldReader_of_absent absent] at result
        cases result
        exact .nothing absent
      · rw [call_fieldReader_of_itself held] at result
        cases result
      · rw [call_fieldReader_of_custom held] at result
        exact .called held (.custom result)
      · rw [call_fieldReader_of_part held notCallable] at result
        cases result
        exact .part held notCallable
  · intro gives
    induction gives with
    | custom returns => exact returns
    | nothing absent => exact call_fieldReader_of_absent absent
    | part held notCallable => exact call_fieldReader_of_part held notCallable
    | @called function value held _ inductionHypothesis =>
      cases function with
      | custom function => exact (call_fieldReader_of_custom held).trans inductionHypothesis
      | fieldReader =>
        rw [call_fieldReader_of_itself held] at inductionHypothesis
        cases inductionHypothesis

/-- The calls without a result are those that never end. -/
theorem call_eq_none_iff {function : Callable κ} :
    function.call run parent call = none ↔ IsEndless run parent call function := by
  constructor
  · intro noResult
    cases function with
    | custom function => exact .custom noResult
    | fieldReader =>
      rcases parent.part?_cases call.field with
        absent | ⟨_ | function, held⟩ | ⟨found, held, notCallable⟩
      · rw [call_fieldReader_of_absent absent] at noResult
        cases noResult
      · exact .itself held
      · rw [call_fieldReader_of_custom held] at noResult
        exact .part held noResult
      · rw [call_fieldReader_of_part held notCallable] at noResult
        cases noResult
  · intro endless
    cases endless with
    | custom runsOn => exact runsOn
    | part held runsOn => exact (call_fieldReader_of_custom held).trans runsOn
    | itself held => exact call_fieldReader_of_itself held

end Callable

namespace Binding

variable {κ : Type}

theorem exists_get?_of_mem_known {callables : Callables κ} {target : Target}
    (known : target ∈ callables.known) : ∃ function, callables.get? target = some function := by
  have found : (callables.find? target).isSome = true := by
    rw [← Keyed.contains_eq_isSome_find?, Keyed.contains_iff_mem_keys]
    exact known
  obtain ⟨entry, isEntry⟩ := Option.isSome_iff_exists.mp found
  exact ⟨entry.2, by rw [Keyed.get?, isEntry]; rfl⟩

/-- Calling a binding calls the function that is held under its target, with what the caller
gives and the context of the binding. -/
theorem invoke_eq_call {callables : Callables κ} {binding : Binding} {function : Callable κ}
    (held : callables.get? binding.reference.target = some function)
    (run : κ → Source κ → Call → Option (Source κ)) (parent : Source κ)
    (arguments : Json.Settings) (context : Json) (parentType field : String) :
    binding.invoke run callables parent arguments context parentType field =
      (function.call run parent ⟨arguments, context, parentType, field, binding.context⟩).map
        .ok := by
  rw [invoke, held]

/-- Whatever steps set up a wiring, a field that holds it is bound to a known function if it is
bound at all. Calling the binding then never fails: it calls that function with what the caller
gives, and with the context of the field, entries and order included. It returns what the call
gives, and only a call that never ends has no result. -/
theorem invoke_of_binding (callables : Callables κ) (history : List Registration)
    (sound : ∀ step ∈ history, step.IsSound callables.known) (field : Field)
    (wired : field.wiring = .ofHistory callables.known history) (owner : String)
    (binding : Binding) (bound : field.binding owner = .ok binding) :
    ∃ function, callables.get? binding.reference.target = some function ∧
      ∀ (run : κ → Source κ → Call → Option (Source κ)) (parent : Source κ)
        (arguments : Json.Settings) (context : Json) (parentType name : String),
        let call : Call := ⟨arguments, context, parentType, name, field.context⟩
        let result := binding.invoke run callables parent arguments context parentType name
        result = (function.call run parent call).map .ok ∧
          (∀ value, result = some (.ok value) ↔ Callable.Gives run parent call function value) ∧
          (result = none ↔ Callable.IsEndless run parent call function) := by
  obtain ⟨resolved, sameContext⟩ := (field.binding_eq_ok_iff owner binding).mp bound
  have wiringSound : field.wiring.IsSound := by
    rw [wired]
    exact Wiring.isSound_ofHistory callables.known history sound
  have usable := Field.isUsable_of_reference wiringSound resolved
  rw [wired, Wiring.known_ofHistory] at usable
  obtain ⟨function, held⟩ := exists_get?_of_mem_known usable.mem_known
  refine ⟨function, held, fun run parent arguments context parentType name => ?_⟩
  dsimp only
  rw [invoke_eq_call held, sameContext]
  refine ⟨rfl, fun value => ?_, ?_⟩
  · rw [← Callable.call_eq_some_iff, Option.map_eq_some_iff]
    simp
  · rw [← Callable.call_eq_none_iff, Option.map_eq_none_iff]

/-- A method of a resolver class, found by its conventional name, is called with the context of
the field. -/
theorem invoke_of_conventional_method :
    let callables : Callables Nat := Callables.standard.set ⟨"Posts", "resolvePosts"⟩ (.custom 7)
    let history : List Registration :=
      [.globalDefault none, .callable "Query" "posts" "Posts::missing", .resolverClass "Posts"]
    let field := (Field.plain ⟨"posts".toList, by decide⟩
      (.ofHistory callables.known history)).addContext "limit" .null
    let binding : Binding := ⟨⟨⟨"Posts", "resolvePosts"⟩⟩, field.context⟩
    (∀ step ∈ history, step.IsSound callables.known) ∧
      field.wiring = .ofHistory callables.known history ∧
      field.binding "Query" = .ok binding ∧
      ∀ (run : Nat → Source Nat → Call → Option (Source Nat)) (parent : Source Nat),
        binding.invoke run callables parent ∅ .null "Query" "posts" =
          (run 7 parent ⟨∅, .null, "Query", "posts", field.context⟩).map .ok := by
  intro callables history field binding
  have sound : ∀ step ∈ history, step.IsSound callables.known := by
    intro step member
    simp only [history, List.mem_cons, List.not_mem_nil, or_false] at member
    rcases member with rfl | rfl | rfl
    · intro given isGiven
      simp at isGiven
    · trivial
    · trivial
  have wired : field.wiring = .ofHistory callables.known history := rfl
  have bound : field.binding "Query" = .ok binding :=
    (field.binding_eq_ok_iff "Query" binding).mpr ⟨by decide, rfl⟩
  obtain ⟨function, held, calls⟩ :=
    invoke_of_binding callables history sound field wired "Query" binding bound
  have isCustom : callables.get? ⟨"Posts", "resolvePosts"⟩ = some (.custom 7) := by rfl
  obtain rfl : function = .custom 7 := Option.some.inj (held.symm.trans isCustom)
  exact ⟨sound, wired, bound, fun run parent => (calls run parent ∅ .null "Query" "posts").1⟩

end Binding

end SchemaAssembly
